import ImageLoader.Json.Basic

/-!
# Reading records

How values, words and records of named fields are read from JSON.  A record is an object, whose unknown
members are passed over and whose known members must not repeat, or an array of exactly its fields.

* `Json.fields?` — the fields of a record, in the order of its names.
* `required`, `optional` — what a field reads as when it may, or may not, be missing.
-/

namespace ImageLoader.Json

def asBool? : Json → Option Bool
  | bool b => some b
  | _ => none

def asString? : Json → Option String
  | string s => some s
  | _ => none

/-- An integer from zero up, below a bound. -/
def asNat? (bound : Nat) : Json → Option Nat
  | number (.natural n) => if n < bound then some n else none
  | _ => none

def asUInt8? (j : Json) : Option UInt8 := (j.asNat? UInt8.size).map UInt8.ofNat

def asUInt32? (j : Json) : Option UInt32 := (j.asNat? UInt32.size).map UInt32.ofNat

def asUInt64? (j : Json) : Option UInt64 := (j.asNat? UInt64.size).map UInt64.ofNat

def asList? {α : Type} (f : Json → Option α) : Json → Option (List α)
  | array items => items.mapM f
  | _ => none

/-- An array of exactly two items. -/
def asPair? {α : Type} (f : Json → Option α) : Json → Option (α × α)
  | array [a, b] => do return (← f a, ← f b)
  | _ => none

def asOption? {α : Type} (f : Json → Option α) : Json → Option (Option α)
  | null => some none
  | j => (f j).map some

/-- A word out of a list of words: by itself, or as the one key of an object whose value is `null`. -/
def asWord? : Json → Option String
  | string s => some s
  | object [(s, null)] => some s
  | _ => none

/-- The value of a field of an object; a field that repeats cannot be read. -/
def field? (members : List (String × Json)) (name : String) : Option (Option Json) :=
  match members.filter fun m => m.1 == name with
  | [] => some none
  | [m] => some (some m.2)
  | _ => none

/-- The fields of a record, in the order of `names`; from an object some may be missing. -/
def fields? (names : List String) : Json → Option (List (Option Json))
  | object members => names.mapM (field? members)
  | array items => if items.length = names.length then some (items.map some) else none
  | _ => none

def required {α : Type} (f : Json → Option α) : Option Json → Option α
  | some j => f j
  | none => none

/-- A field that may be missing or `null`. -/
def optional {α : Type} (f : Json → Option α) : Option Json → Option (Option α)
  | some j => j.asOption? f
  | none => some none

end ImageLoader.Json
