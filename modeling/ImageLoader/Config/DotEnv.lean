import ImageLoader.Text.Blank

/-!
# Variables from a file

A file `.env` gives variables that the environment does not have yet, one on a line: a name, an equals sign and a
value.  A value may be quoted and may refer to other variables.  The first line that cannot be read ends the
file; what stood before it counts.

* `DotEnv.extend` — the environment with the variables of such a file.
-/

namespace ImageLoader.DotEnv

abbrev Environment := List (String × String)

/-! ## Lines -/

/-- Where a line stands: whether a quoted text or an escape is open, or a comment may begin. -/
inductive LineState where
  | complete
  | blank
  | escape
  | weak
  | weakEscape
  | strong
  | strongEscape
deriving DecidableEq

def LineState.opened (c : Char) : LineState :=
  if c = '\\' then escape else if c = '"' then weak else if c = '\'' then strong else complete

def LineState.next (s : LineState) (c : Char) : LineState :=
  match s with
  | blank => opened c
  | complete => if Text.isBlank c ∧ c ≠ '\n' ∧ c ≠ '\r' then blank else opened c
  | escape => complete
  | weak => if c = '\\' then weakEscape else if c = '"' then complete else weak
  | weakEscape => weak
  | strong => if c = '\\' then strongEscape else if c = '\'' then complete else strong
  | strongEscape => strong

/-- The physical lines of a text, each with its end. -/
def physical : List Char → List (List Char)
  | [] => []
  | '\n' :: rest => ['\n'] :: physical rest
  | c :: rest =>
    match physical rest with
    | [] => [[c]]
    | line :: more => (c :: line) :: more

/-- Reads a physical line: the part before a comment, and the state at its end unless a comment ended it. -/
def scanLine (s : LineState) : List Char → List Char × Option LineState
  | [] => ([], some s)
  | c :: rest =>
    if s = .blank ∧ c = '#' then ([], none)
    else
      let (kept, s) := scanLine (s.next c) rest
      (c :: kept, s)

/-- The lines of a file; a quoted text may go on over several.  A line that is not complete when the file ends
cannot be read. -/
def logical (before : List Char) (s : LineState) : List (List Char) → List (Option (List Char))
  | [] => if s = .complete then [] else [none]
  | line :: rest =>
    if ((before ++ line).dropWhile Text.isBlank).head? = some '#' then
      some [] :: logical [] .complete rest
    else
      let (kept, s) := scanLine s line
      match s with
      | none => some (before ++ kept) :: logical [] .complete rest
      | some .complete => some (before ++ kept) :: logical [] .complete rest
      | some s => logical (before ++ kept) s rest

/-! ## Values -/

structure Reading where
  /-- The quote that is open. -/
  quote : Option Char := none
  escaped : Bool := false
  /-- A blank ended the value; only a comment may follow. -/
  ended : Bool := false
  comment : Bool := false
  /-- The name that is being referred to, last character first, and whether it stands in braces. -/
  reference : Option (Bool × List Char) := none
  /-- What was read, last character first. -/
  output : List Char := []

namespace Reading

def push (r : Reading) (c : Char) : Reading := { r with output := c :: r.output }

/-- The value of the variable that was referred to, in place of the reference. -/
def substitute (environment : Environment) (r : Reading) : Reading :=
  match r.reference with
  | none => r
  | some (_, name) =>
    let value := (environment.lookup (String.ofList name.reverse)).getD ""
    { r with reference := none, output := value.toList.reverse ++ r.output }

def escape? (r : Reading) (c : Char) : Option Reading :=
  let r := { r with escaped := false }
  if c = 'n' then some (r.push '\n')
  else if c = '\\' ∨ c = '\'' ∨ c = '"' ∨ c = '$' ∨ c = ' ' then some (r.push c)
  else none

/-- A character of a reference.  Without braces a name is made of ASCII letters and digits, and the character that
ends it belongs to the value. -/
def refer (environment : Environment) (r : Reading) (inBraces : Bool) (name : List Char)
    (c : Char) : Reading :=
  if c.isAlphanum then { r with reference := some (inBraces, c :: name) }
  else if inBraces then
    if c = '}' then r.substitute environment
    else { r with reference := some (true, c :: name) }
  else if c = '{' ∧ name.isEmpty then { r with reference := some (true, []) }
  else
    let r := r.substitute environment
    if c = '$' then { r with reference := some (false, []) } else r.push c

/-- A character that is neither escaped nor part of a reference or of a text in single quotes. -/
def ordinary (r : Reading) (c : Char) : Reading :=
  if c = '$' then { r with reference := some (false, []) }
  else if c = '\\' then { r with escaped := true }
  else if r.quote = some '"' then if c = '"' then { r with quote := none } else r.push c
  else if c = '\'' ∨ c = '"' then { r with quote := some c }
  else if c = ' ' ∨ c = '\t' then { r with ended := true }
  else r.push c

def step? (environment : Environment) (r : Reading) (c : Char) : Option Reading :=
  if r.comment then some r
  else if r.ended then
    if c = ' ' ∨ c = '\t' then some r
    else if c = '#' then some { r with comment := true }
    else none
  else if r.escaped then r.escape? c
  else if r.quote = some '\'' then
    some (if c = '\'' then { r with quote := none } else r.push c)
  else
    match r.reference with
    | some (inBraces, name) => some (r.refer environment inBraces name c)
    | none => some (r.ordinary c)

/-- The value that was read, unless a quote or a brace is still open. -/
def finish? (environment : Environment) (r : Reading) : Option String :=
  match r.quote, r.reference with
  | some _, _ => none
  | none, some (true, _) => none
  | none, _ => some (String.ofList (r.substitute environment).output.reverse)

end Reading

def value? (environment : Environment) (s : List Char) : Option String := do
  (← s.foldlM (Reading.step? environment) {}).finish? environment

/-! ## Entries -/

def skipBlanks (s : List Char) : List Char := s.dropWhile Text.isBlank

def name? (s : List Char) : Option (List Char × List Char) :=
  match s with
  | c :: _ =>
    if c.isAlpha ∨ c = '_' then
      let (name, rest) := s.span fun c => c.isAlphanum || c = '_' || c = '.'
      some (name, skipBlanks rest)
    else none
  | [] => none

def equals? : List Char → Option (List Char)
  | '=' :: rest => some rest
  | _ => none

/-- A name and the text behind its equals sign; the word `export` may stand before the name. -/
def assignment? (s : List Char) : Option (List Char × List Char) := do
  let (name, s) ← name? s
  match equals? s with
  | some rest => return (name, skipBlanks rest)
  | none =>
    if name = "export".toList then
      let (name, s) ← name? s
      return (name, skipBlanks (← equals? s))
    else none

/-- The environment behind a line; a variable that is there already stays as it is. -/
def entry? (environment : Environment) (line : List Char) : Option Environment :=
  let s := skipBlanks (Text.trimEnd line)
  if s.isEmpty ∨ s.head? = some '#' then some environment
  else do
    let (name, s) ← assignment? s
    let value ←
      if s.isEmpty ∨ s.head? = some '#' then some "" else value? environment s
    let name := String.ofList name
    return if (environment.lookup name).isSome then environment else environment ++ [(name, value)]

/-- The environment behind some lines, up to the first that cannot be read. -/
def entries (environment : Environment) : List (Option (List Char)) → Environment
  | some line :: rest =>
    match entry? environment line with
    | some environment => entries environment rest
    | none => environment
  | _ => environment

def extend (environment : Environment) (text : String) : Environment :=
  let s := match text.toList with
    | '\uFEFF' :: rest => rest
    | s => s
  entries environment (logical [] .complete (physical s))

end ImageLoader.DotEnv
