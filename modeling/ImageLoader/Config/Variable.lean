import ImageLoader.Json.Merge
import ImageLoader.Text.Blank
import ImageLoader.Toml.Text

/-!
# Settings from environment variables

A variable whose name begins with `GLY_`, in whatever case, sets a value: the rest of its name, in small letters,
is the path of the value, with two underscores or a dot between its parts.  The text of a variable is read as
a truth value, a number, a quoted text, a list or a table if it is written as one, and is a text otherwise.

* `Variable.value` — what the text of a variable sets.
* `Variable.path?` — where the name of a variable points.
* `Variable.layer` — what all variables set together.
-/

namespace ImageLoader.Variable

/-! ## Values -/

def isBlank (c : Char) : Bool := c = ' ' || c = '\t' || c = '\n' || c = '\r' || c = '\x0c'

def skipBlanks (s : List Char) : List Char := s.dropWhile isBlank

def isWord (c : Char) : Bool := !(c = ',' || c = '{' || c = '}' || c = '[' || c = ']')

def exponent? : List Char → Option Int
  | [] => some 0
  | c :: rest =>
    if c = 'e' ∨ c = 'E' then
      let (isNegative, ds) := match rest with
        | '-' :: ds => (true, ds)
        | '+' :: ds => (false, ds)
        | ds => (false, ds)
      if ds ≠ [] ∧ ds.all Json.isDigit then
        some (if isNegative then -(Json.digitsValue 0 ds : Int) else Json.digitsValue 0 ds)
      else none
    else none

/-- A number with a point, with digits on at least one side of it.  Its sign does not matter to settings. -/
def pointed? (s : List Char) : Option JsonNumber :=
  let s := match s with
    | '-' :: rest => rest
    | '+' :: rest => rest
    | s => s
  let (whole, s) := s.span Json.isDigit
  match s with
  | '.' :: rest =>
    let (fraction, s) := rest.span Json.isDigit
    if whole = [] ∧ fraction = [] then none
    else (exponent? s).map fun e =>
      .real (Json.digitsValue 0 (whole ++ fraction)) (e - fraction.length)
  | _ => none

/-- An integer of sixty-four bits, with or without a sign. -/
def integer? : List Char → Option Int
  | '-' :: rest => (Text.Decimal.unsigned? (UInt64.size / 2 + 1) rest).map fun n => -(n : Int)
  | s => (Text.Decimal.parse? UInt64.size s).map Int.ofNat

def word (s : List Char) : Json :=
  match pointed? s with
  | some n => .number n
  | none =>
    match integer? s with
    | some n => .int n
    | none => .string (String.ofList s)

def isKey (c : Char) : Bool := c.isAlphanum || c = '_' || c = '-'

/-- A key, up to the sign behind it. -/
def key? (s : List Char) : Option (String × List Char) := do
  let (name, s) ← match skipBlanks s with
    | '"' :: rest => Toml.basic? rest
    | s =>
      match s.span isKey with
      | ([], _) => none
      | r => some r
  match skipBlanks s with
  | '=' :: rest => return (String.ofList name, rest)
  | _ => none

mutual

def value? : Nat → List Char → Option (Json × List Char)
  | 0, _ => none
  | fuel + 1, s => do
    let s := skipBlanks s
    let (j, rest) ←
      match Json.word? "true".toList s with
      | some rest => some (.bool true, rest)
      | none =>
        match Json.word? "false".toList s with
        | some rest => some (.bool false, rest)
        | none =>
          match s with
          | '{' :: rest => (members? fuel rest).map fun (m, rest) => (.object m, rest)
          | '[' :: rest => (items? fuel rest).map fun (l, rest) => (.array l, rest)
          | '"' :: rest => (Toml.basic? rest).map fun (t, rest) => (.string (String.ofList t), rest)
          | '\'' :: c :: '\'' :: rest => some (.string (String.singleton c), rest)
          | '\'' :: _ => none
          | s =>
            let (t, rest) := s.span isWord
            some (word (Text.trim t), rest)
    return (j, skipBlanks rest)

/-- The items of a list up to its closing bracket, which a comma may precede. -/
def items? : Nat → List Char → Option (List Json × List Char)
  | 0, _ => none
  | _ + 1, ']' :: rest => some ([], rest)
  | fuel + 1, s => do
    let (j, s) ← value? fuel s
    match s with
    | ',' :: rest =>
      let (l, rest) ← items? fuel rest
      return (j :: l, rest)
    | ']' :: rest => return ([j], rest)
    | _ => none

def members? : Nat → List Char → Option (List (String × Json) × List Char)
  | 0, _ => none
  | _ + 1, '}' :: rest => some ([], rest)
  | fuel + 1, s => do
    let (key, s) ← key? s
    let (j, s) ← value? fuel s
    match s with
    | ',' :: rest =>
      let (m, rest) ← members? fuel rest
      return ((key, j) :: m, rest)
    | '}' :: rest => return ([(key, j)], rest)
    | _ => none

end

/-- What the text of a variable sets: a text that is no value as a whole stands for itself. -/
def value (s : String) : Json :=
  match value? (2 * s.toList.length + 2) s.toList with
  | some (j, []) => j.settled
  | _ => .string s

/-! ## Names -/

/-- The parts of a name, between two underscores or a dot. -/
def segments : List Char → List (List Char)
  | [] => [[]]
  | '_' :: '_' :: rest => [] :: segments rest
  | c :: rest =>
    if c = '.' then [] :: segments rest
    else
      match segments rest with
      | [] => [[c]]
      | first :: more => (c :: first) :: more

/-- Where a name points.  Other names, and those with an empty part, point nowhere. -/
def path? (name : String) : Option (List String) :=
  let s := (Text.trim name.toList).map Char.toLower
  match Json.word? "gly_".toList s with
  | none => none
  | some rest =>
    let parts := segments (Text.trim rest)
    if parts.any List.isEmpty then none else some (parts.map String.ofList)

def nest (path : List String) (j : Json) : Json :=
  path.foldr (fun key j => .object [(key, j)]) j

/-- What all variables set together; of two that set the same, the later one counts. -/
def layer (environment : List (String × String)) : Json :=
  environment.foldl (fun done v =>
    match path? v.1 with
    | some path => done.merge (nest path (value v.2))
    | none => done) (.object [])

end ImageLoader.Variable
