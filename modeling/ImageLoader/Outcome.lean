/-!
# Outcomes of work that may stop early

Work ends with a value, with an error of its own kind, or with a panic: decoders are foreign code, and
a panic is the one way of stopping that nobody asked for.  `Outcome ε α` keeps the three apart, so that
a sandbox can turn the third into the second.

* `Panic.message` — the text of a panic, or a fixed one when it carries none.
* `Outcome.mapError` — changes the kind of error and touches neither values nor panics.
-/

namespace ImageLoader

/-- What a panic carries: a text, or something that is no text. -/
inductive Panic where
  | text (message : String)
  | other
deriving DecidableEq, Inhabited

def Panic.message : Panic → String
  | .text m => m
  | .other => "unknown panic"

inductive Stop (ε : Type) where
  | error (e : ε)
  | panic (p : Panic)
deriving DecidableEq

/-- A value, an error of kind `ε`, or a panic. -/
abbrev Outcome (ε α : Type) := Except (Stop ε) α

namespace Outcome

variable {ε δ α β : Type}

def fail (e : ε) : Outcome ε α := .error (.error e)

def panicked (p : Panic) : Outcome ε α := .error (.panic p)

def ofExcept : Except ε α → Outcome ε α
  | .ok a => .ok a
  | .error e => fail e

def mapError (f : ε → δ) : Outcome ε α → Outcome δ α
  | .ok a => .ok a
  | .error (.error e) => fail (f e)
  | .error (.panic p) => panicked p

@[simp] theorem ofExcept_ok (a : α) : (ofExcept (.ok a) : Outcome ε α) = .ok a := rfl

@[simp] theorem ofExcept_error (e : ε) : (ofExcept (.error e) : Outcome ε α) = fail e := rfl

@[simp] theorem mapError_ok (f : ε → δ) (a : α) : mapError f (.ok a) = .ok a := rfl

@[simp] theorem mapError_fail (f : ε → δ) (e : ε) :
    mapError f (fail e : Outcome ε α) = fail (f e) := rfl

@[simp] theorem mapError_panicked (f : ε → δ) (p : Panic) :
    mapError f (panicked p : Outcome ε α) = panicked p := rfl

end Outcome

end ImageLoader
