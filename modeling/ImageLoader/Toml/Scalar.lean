import ImageLoader.Toml.Text

/-!
# Numbers and dates of a TOML document

Integers fit sixty-four bits with a sign; underscores may stand between digits.  A number that is no integer
reads as a JSON number with a fraction, and one that JSON cannot hold as a number beyond the range of double
precision.  A date or a time reads as an object with one member, so that it is never taken for a text.

* `Toml.scalar?` — a number, a date or a time.
-/

namespace ImageLoader.Toml

/-! ## Digits -/

/-- Digits that underscores may separate, behind a first one. -/
def moreDigits? (isDigit : Char → Bool) : List Char → Option (List Char × List Char)
  | '_' :: c :: rest =>
    if isDigit c then (moreDigits? isDigit rest).map fun (ds, s) => (c :: ds, s) else none
  | c :: rest =>
    if c = '_' then none
    else if isDigit c then (moreDigits? isDigit rest).map fun (ds, s) => (c :: ds, s)
    else some ([], c :: rest)
  | [] => some ([], [])

def digits? (isDigit : Char → Bool) : List Char → Option (List Char × List Char)
  | c :: rest =>
    if isDigit c then (moreDigits? isDigit rest).map fun (ds, s) => (c :: ds, s) else none
  | [] => none

def isDigitOf (base : Nat) (c : Char) : Bool :=
  match Json.hexDigit? c with
  | some d => d < base
  | none => false

def valueOf (base : Nat) (ds : List Char) : Nat :=
  ds.foldl (fun n c => n * base + (Json.hexDigit? c).getD 0) 0

def sign (s : List Char) : Bool × List Char :=
  match s with
  | '-' :: rest => (true, rest)
  | '+' :: rest => (false, rest)
  | s => (false, s)

/-! ## Numbers -/

def fitting? (isNegative : Bool) (n : Nat) : Option Json :=
  if n < UInt64.size / 2 ∨ (isNegative ∧ n = UInt64.size / 2) then
    some (.int (if isNegative then -(n : Int) else n))
  else none

/-- A numeral to a base that is a power of two, from behind the letter that names the base. -/
def based? (base : Nat) (s : List Char) : Option (Json × List Char) := do
  let (ds, s) ← digits? (isDigitOf base) s
  return (← fitting? false (valueOf base ds), s)

/-- The digits before the point: a zero alone, or digits that begin with another. -/
def whole? : List Char → Option (List Char × List Char)
  | '0' :: rest => some (['0'], rest)
  | s => digits? Json.isDigit s

def fraction? : List Char → Option (Option (List Char) × List Char)
  | '.' :: rest => (digits? Json.isDigit rest).map fun (ds, s) => (some ds, s)
  | s => some (none, s)

def exponent? : List Char → Option (Option Int × List Char)
  | c :: rest =>
    if c = 'e' ∨ c = 'E' then
      let (isNegative, rest) := sign rest
      (digits? Json.isDigit rest).map fun (ds, s) =>
        (some (if isNegative then -(valueOf 10 ds : Int) else valueOf 10 ds), s)
    else some (none, c :: rest)
  | [] => some (none, [])

/-- A number that is beyond the range of double precision. -/
def beyond : Json := .number (.real 1 400)

/-- A number with a fraction or an exponent.  A positive one must be in range. -/
def real? (isNegative : Bool) (whole : List Char) (fraction : Option (List Char))
    (exponent : Option Int) : Option Json :=
  let ds := fraction.getD []
  let n := JsonNumber.real (valueOf 10 (whole ++ ds)) (exponent.getD 0 - ds.length)
  if n.isFinite ∨ isNegative then some (.number n) else none

def decimal? (s : List Char) : Option (Json × List Char) := do
  let (isNegative, s) := sign s
  match Json.word? "inf".toList s <|> Json.word? "nan".toList s with
  | some rest => return (beyond, rest)
  | none =>
    let (whole, s) ← whole? s
    let (fraction, s) ← fraction? s
    let (exponent, s) ← exponent? s
    if fraction.isNone ∧ exponent.isNone then
      return (← fitting? isNegative (valueOf 10 whole), s)
    else return (← real? isNegative whole fraction exponent, s)

def number? : List Char → Option (Json × List Char)
  | '0' :: 'x' :: rest => based? 16 rest
  | '0' :: 'o' :: rest => based? 8 rest
  | '0' :: 'b' :: rest => based? 2 rest
  | s => decimal? s

/-! ## Dates and times -/

def exactly? (n : Nat) (s : List Char) : Option (Nat × List Char) :=
  let ds := s.take n
  if ds.length = n ∧ ds.all Json.isDigit then some (valueOf 10 ds, s.drop n) else none

/-- Two digits of a part that ends before `bound`. -/
def part? (bound : Nat) (s : List Char) : Option (Nat × List Char) :=
  (exactly? 2 s).filter fun p => p.1 < bound

def mark? (c : Char) : List Char → Option (List Char)
  | d :: rest => if d = c then some rest else none
  | [] => none

def daysIn (year month : Nat) : Nat :=
  if month = 2 then
    if year % 4 = 0 ∧ (year % 100 ≠ 0 ∨ year % 400 = 0) then 29 else 28
  else if month = 4 ∨ month = 6 ∨ month = 9 ∨ month = 11 then 30
  else 31

def time? (s : List Char) : Option (List Char) := do
  let (_, s) ← part? 24 s
  let (_, s) ← part? 60 (← mark? ':' s)
  let (_, s) ← part? 61 (← mark? ':' s)
  match s with
  | '.' :: rest =>
    match rest.span Json.isDigit with
    | ([], _) => none
    | (_, s) => return s
  | s => return s

def offset? (s : List Char) : Option (List Char) :=
  match s with
  | c :: rest =>
    if c = 'Z' ∨ c = 'z' then some rest
    else if c = '+' ∨ c = '-' then do
      let (_, s) ← part? 24 rest
      let (_, s) ← part? 60 (← mark? ':' s)
      return s
    else some s
  | [] => some s

def day? (s : List Char) : Option (List Char) := do
  let (year, s) ← exactly? 4 s
  let (month, s) ← part? 13 (← mark? '-' s)
  let (day, s) ← part? 32 (← mark? '-' s)
  if 1 ≤ month ∧ 1 ≤ day ∧ day ≤ daysIn year month then some s else none

def dateTime? (s : List Char) : Option (List Char) := do
  let rest ← day? s
  match rest with
  | c :: after =>
    if c = 'T' ∨ c = 't' ∨ c = ' ' then
      match time? after with
      | some after => offset? after
      | none => return rest
    else return rest
  | [] => return []

/-- A date or a time as it is written, as the one member of an object. -/
def moment (s rest : List Char) : Json :=
  .object [("date", .string (String.ofList (s.take (s.length - rest.length))))]

def scalar? (s : List Char) : Option (Json × List Char) :=
  match dateTime? s <|> time? s with
  | some rest => some (moment s rest, rest)
  | none => number? s

end ImageLoader.Toml
