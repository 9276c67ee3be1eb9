/-!
# JSON values

The syntax tree of a JSON text.  Objects keep their members in the order of the text, repetitions
included, because whether a repetition matters depends on what the object is read as.  A number keeps
whether it was written as an integer.

* `Json.isSound` — no part of the tree is beyond what a value can hold.
-/

namespace ImageLoader

/-- A number as it was written. -/
inductive JsonNumber where
  /-- An integer that is not negative. -/
  | natural (n : Nat)
  /-- The negative of a positive integer. -/
  | negative (n : Nat)
  /-- A number with a fraction or an exponent: `digits * 10 ^ exponent`, sign aside. -/
  | real (digits : Nat) (exponent : Int)
deriving DecidableEq, Inhabited

inductive Json where
  | null
  | bool (b : Bool)
  | number (n : JsonNumber)
  | string (s : String)
  /-- A string whose escapes leave half of a surrogate pair: sound as syntax, not as a text. -/
  | brokenString
  | array (items : List Json)
  | object (members : List (String × Json))
  /-- An object with half of a surrogate pair in a key: it can be passed over, but not read. -/
  | brokenObject
deriving Inhabited

namespace JsonNumber

/-- Is the number within the range of double precision?  The digits settle most cases; the rest is
compared with the point from which on numbers round to infinity. -/
def isFinite : JsonNumber → Bool
  | natural n => n < bound
  | negative n => n < bound
  | real digits exponent =>
    if digits = 0 then true
    else if 400 < exponent + (Nat.toDigits 10 digits).length then false
    else if exponent < 0 then digits < bound * Nat.pow 10 (-exponent).toNat
    else digits * Nat.pow 10 exponent.toNat < bound
where
  /-- Half a step above the greatest finite number. -/
  bound : Nat := (1 <<< 1024) - (1 <<< 970)

/-- The integer that the number is, if it was written as one and fits 64 bits. -/
def integer? : JsonNumber → Option Int
  | natural n => if n < UInt64.size then some n else none
  | negative n => if n ≤ UInt64.size / 2 then some (-(n : Int)) else none
  | real _ _ => none

end JsonNumber

namespace Json

def nat (n : Nat) : Json := .number (.natural n)

def int (n : Int) : Json :=
  if 0 ≤ n then nat n.toNat else .number (.negative (-n).toNat)

def option {α : Type} (f : α → Json) : Option α → Json
  | some a => f a
  | none => .null

/-- The member of an object that is read under this key: the first one. -/
def member? : Json → String → Option Json
  | object members, key => (members.find? fun m => m.1 == key).map Prod.snd
  | _, _ => none

mutual

/-- Is every number finite, is every string and every key whole, and is the nesting below `depth`? -/
def isSound (depth : Nat) : Json → Bool
  | number n => n.isFinite
  | brokenString | brokenObject => false
  | array items => depth != 0 && areSound (depth - 1) items
  | object members => depth != 0 && membersSound (depth - 1) members
  | _ => true

def areSound (depth : Nat) : List Json → Bool
  | [] => true
  | j :: rest => isSound depth j && areSound depth rest

def membersSound (depth : Nat) : List (String × Json) → Bool
  | [] => true
  | (_, j) :: rest => isSound depth j && membersSound depth rest

end

end Json

end ImageLoader
