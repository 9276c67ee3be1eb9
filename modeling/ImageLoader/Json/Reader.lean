import ImageLoader.Json.Basic
import ImageLoader.Text.Decimal

/-!
# Reading JSON

From a text to its tree.  The reader follows the grammar character by character; each part returns what is
left of the text.  The recursion is bounded by the length of the text, which no part can exceed.

* `Json.parse?` — the value of a whole text.
-/

namespace ImageLoader.Json

def isBlank (c : Char) : Bool := c = ' ' || c = '\t' || c = '\n' || c = '\r'

def skipBlanks (s : List Char) : List Char := s.dropWhile isBlank

/-! ## Numbers -/

def isDigit (c : Char) : Bool := (Text.Decimal.digit? c).isSome

/-- The value of a run of digits, on top of `n`. -/
def digitsValue (n : Nat) (s : List Char) : Nat :=
  s.foldl (fun n c => n * 10 + (Text.Decimal.digit? c).getD 0) n

/-- A run of digits, at least one, and what follows. -/
def digits? (s : List Char) : Option (List Char × List Char) :=
  match s.span isDigit with
  | ([], _) => none
  | (d, rest) => some (d, rest)

/-- The integer part: a zero alone, or digits that begin with another. -/
def integerPart? : List Char → Option (List Char × List Char)
  | '0' :: rest =>
    match rest with
    | c :: _ => if isDigit c then none else some (['0'], rest)
    | [] => some (['0'], [])
  | s => digits? s

def fraction? : List Char → Option (Option (List Char) × List Char)
  | '.' :: rest => (digits? rest).map fun (d, r) => (some d, r)
  | s => some (none, s)

def exponent? : List Char → Option (Option Int × List Char)
  | c :: rest =>
    if c = 'e' ∨ c = 'E' then
      match rest with
      | '-' :: r => (digits? r).map fun (d, r) => (some (-(digitsValue 0 d : Int)), r)
      | '+' :: r => (digits? r).map fun (d, r) => (some (digitsValue 0 d : Int), r)
      | r => (digits? r).map fun (d, r) => (some (digitsValue 0 d : Int), r)
    else some (none, c :: rest)
  | [] => some (none, [])

def unsigned? (isNegative : Bool) (s : List Char) : Option (JsonNumber × List Char) := do
  let (whole, s) ← integerPart? s
  let (fraction, s) ← fraction? s
  let (exponent, s) ← exponent? s
  let value :=
    match fraction, exponent with
    | none, none =>
      let n := digitsValue 0 whole
      if isNegative then if n = 0 then .real 0 0 else .negative n else .natural n
    | f, e =>
      let f := f.getD []
      .real (digitsValue 0 (whole ++ f)) (e.getD 0 - f.length)
  return (value, s)

def number? : List Char → Option (JsonNumber × List Char)
  | '-' :: s => unsigned? true s
  | s => unsigned? false s

/-! ## Strings -/

def hexDigit? (c : Char) : Option Nat :=
  if '0' ≤ c ∧ c ≤ '9' then some (c.toNat - '0'.toNat)
  else if 'a' ≤ c ∧ c ≤ 'f' then some (c.toNat - 'a'.toNat + 10)
  else if 'A' ≤ c ∧ c ≤ 'F' then some (c.toNat - 'A'.toNat + 10)
  else none

/-- A piece of a string: a character, or a unit of sixteen bits that an escape names. -/
inductive Piece where
  | char (c : Char)
  | unit (n : Nat)

def shortEscape? : Char → Option Char
  | '"' => some '"'
  | '\\' => some '\\'
  | '/' => some '/'
  | 'b' => some '\x08'
  | 'f' => some '\x0c'
  | 'n' => some '\n'
  | 'r' => some '\r'
  | 't' => some '\t'
  | _ => none

/-- The pieces of a string up to its closing quote, and what follows. -/
def pieces? : List Char → Option (List Piece × List Char)
  | [] => none
  | '"' :: rest => some ([], rest)
  | '\\' :: 'u' :: a :: b :: c :: d :: rest => do
    let n := (← hexDigit? a) * 4096 + (← hexDigit? b) * 256 + (← hexDigit? c) * 16 + (← hexDigit? d)
    let (p, r) ← pieces? rest
    return (.unit n :: p, r)
  | '\\' :: e :: rest => do
    let c ← shortEscape? e
    let (p, r) ← pieces? rest
    return (.char c :: p, r)
  | c :: rest =>
    if c.toNat < 0x20 ∨ c = '\\' then none
    else do
      let (p, r) ← pieces? rest
      return (.char c :: p, r)

/-- The characters that pieces spell; two units may make a pair, and half a pair spells nothing. -/
def spell? : List Piece → Option (List Char)
  | [] => some []
  | .char c :: rest => (spell? rest).map (c :: ·)
  | .unit n :: .unit m :: rest =>
    if 0xD800 ≤ n ∧ n < 0xDC00 ∧ 0xDC00 ≤ m ∧ m < 0xE000 then
      (spell? rest).map (Char.ofNat (0x10000 + (n - 0xD800) * 0x400 + (m - 0xDC00)) :: ·)
    else if 0xD800 ≤ n ∧ n < 0xE000 then none
    else (spell? (.unit m :: rest)).map (Char.ofNat n :: ·)
  | .unit n :: rest =>
    if 0xD800 ≤ n ∧ n < 0xE000 then none else (spell? rest).map (Char.ofNat n :: ·)

def text? (p : List Piece) : Option String := (spell? p).map String.ofList

/-! ## Values -/

/-- The rest of a text that begins with a word. -/
def word? (w : List Char) (s : List Char) : Option (List Char) :=
  if w.isPrefixOf s then some (s.drop w.length) else none

/-- The members under their keys, unless half of a surrogate pair is left in a key. -/
def keyed? : List (Option String × Json) → Option (List (String × Json))
  | [] => some []
  | (some key, j) :: rest => (keyed? rest).map ((key, j) :: ·)
  | (none, _) :: _ => none

def objectOf (members : List (Option String × Json)) : Json :=
  match keyed? members with
  | some m => .object m
  | none => .brokenObject

mutual

def value? : Nat → List Char → Option (Json × List Char)
  | 0, _ => none
  | fuel + 1, s =>
    match skipBlanks s with
    | '{' :: rest =>
      match skipBlanks rest with
      | '}' :: r => some (.object [], r)
      | r => (members? fuel r).map fun (m, r) => (objectOf m, r)
    | '[' :: rest =>
      match skipBlanks rest with
      | ']' :: r => some (.array [], r)
      | r => (items? fuel r).map fun (l, r) => (.array l, r)
    | '"' :: rest => (pieces? rest).map fun (p, r) =>
        (match text? p with | some s => .string s | none => .brokenString, r)
    | 't' :: rest => (word? "rue".toList rest).map fun r => (.bool true, r)
    | 'f' :: rest => (word? "alse".toList rest).map fun r => (.bool false, r)
    | 'n' :: rest => (word? "ull".toList rest).map fun r => (.null, r)
    | r => (number? r).map fun (n, r) => (.number n, r)

/-- The items of an array up to its closing bracket. -/
def items? : Nat → List Char → Option (List Json × List Char)
  | 0, _ => none
  | fuel + 1, s => do
    let (j, s) ← value? fuel s
    match skipBlanks s with
    | ',' :: rest =>
      let (l, r) ← items? fuel rest
      return (j :: l, r)
    | ']' :: rest => return ([j], rest)
    | _ => none

/-- The members of an object up to its closing brace, each with the text of its key. -/
def members? : Nat → List Char → Option (List (Option String × Json) × List Char)
  | 0, _ => none
  | fuel + 1, s =>
    match skipBlanks s with
    | '"' :: rest => do
      let (p, s) ← pieces? rest
      match skipBlanks s with
      | ':' :: rest =>
        let (j, s) ← value? fuel rest
        match skipBlanks s with
        | ',' :: rest =>
          let (m, r) ← members? fuel rest
          return ((text? p, j) :: m, r)
        | '}' :: rest => return ([(text? p, j)], rest)
        | _ => none
      | _ => none
    | _ => none

end

/-- The value of a text that is one value and blanks. -/
def parse? (s : List Char) : Option Json :=
  match value? (2 * s.length + 2) s with
  | some (j, rest) => if (skipBlanks rest).isEmpty then some j else none
  | none => none

end ImageLoader.Json
