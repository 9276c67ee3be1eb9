/-!
# Decimal numerals

Numerals as people type them: an optional plus sign and decimal digits, as many as they like, with a
value below a bound.

* `parse` — the value of a numeral below `bound`, or what is wrong with the text.
-/

namespace ImageLoader.Text.Decimal

inductive Fault where
  | empty
  | invalidDigit
  | tooLarge
deriving DecidableEq

def Fault.text : Fault → String
  | empty => "cannot parse integer from empty string"
  | invalidDigit => "invalid digit found in string"
  | tooLarge => "number too large to fit in target type"

def digit? (c : Char) : Option Nat :=
  if '0' ≤ c ∧ c ≤ '9' then some (c.toNat - '0'.toNat) else none

/-- Reads digits on top of what was read so far, and gives up at the first character that is no digit or takes the
value to `bound`. -/
def digits (bound : Nat) : Nat → List Char → Except Fault Nat
  | n, [] => .ok n
  | n, c :: r =>
    match digit? c with
    | none => .error .invalidDigit
    | some d => if n * 10 + d < bound then digits bound (n * 10 + d) r else .error .tooLarge

/-- The value of a numeral that has at least one digit and stays below `bound`. -/
def unsigned? (bound : Nat) : List Char → Option Nat
  | [] => none
  | s => (digits bound 0 s).toOption

/-- The value of a numeral, with or without a plus sign in front.  A sign alone lacks a digit. -/
def parse (bound : Nat) : List Char → Except Fault Nat
  | [] => .error .empty
  | ['+'] => .error .invalidDigit
  | '+' :: r => digits bound 0 r
  | s => digits bound 0 s

def parse? (bound : Nat) (s : List Char) : Option Nat := (parse bound s).toOption

end ImageLoader.Text.Decimal
