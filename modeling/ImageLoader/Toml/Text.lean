import ImageLoader.Json.Reader

/-!
# The text of a TOML document

The smallest parts of a document: blanks, line ends, comments, quoted texts and keys.  Each reader returns
what it read and what is left of the text.

* `Toml.string?` — a quoted text of any of the four kinds.
* `Toml.key?` — a key, with dots between its parts.
-/

namespace ImageLoader.Toml

/-! ## Blanks and line ends -/

def isBlank (c : Char) : Bool := c = ' ' || c = '\t'

def skipBlanks (s : List Char) : List Char := s.dropWhile isBlank

/-- A character that may stand in a comment: no control character but the tab. -/
def isComment (c : Char) : Bool := c = '\t' || 0x20 ≤ c.toNat

def isPlain (c : Char) : Bool := isComment c && c != '\x7f'

def lineEnd? : List Char → Option (List Char)
  | '\n' :: rest => some rest
  | '\r' :: '\n' :: rest => some rest
  | _ => none

/-- What follows a line whose last part was read: blanks, a comment, and the end of the line or text. -/
def endOfLine? (s : List Char) : Option (List Char) :=
  let s := match skipBlanks s with
    | '#' :: rest => rest.dropWhile isComment
    | s => s
  if s.isEmpty then some [] else lineEnd? s

/-- What follows blanks, line ends and comments.  A comment ends with its line. -/
def skipLayout (inComment : Bool) : List Char → List Char
  | [] => []
  | '\r' :: '\n' :: rest => skipLayout false rest
  | c :: rest =>
    if c = '\n' then skipLayout false rest
    else if inComment then if isComment c then skipLayout true rest else c :: rest
    else if c = '#' then skipLayout true rest
    else if isBlank c then skipLayout false rest
    else c :: rest

/-! ## Quoted texts -/

def codePoint? (digits : List Char) : Option Char := do
  let ds ← digits.mapM Json.hexDigit?
  let n := ds.foldl (fun n d => n * 16 + d) 0
  if n < 0xD800 ∨ (0xE000 ≤ n ∧ n < 0x110000) then some (Char.ofNat n) else none

def shortEscape? : Char → Option Char
  | 'b' => some '\x08'
  | 't' => some '\t'
  | 'n' => some '\n'
  | 'f' => some '\x0c'
  | 'r' => some '\r'
  | '"' => some '"'
  | '\\' => some '\\'
  | _ => none

/-- A text with escapes, on one line, up to its closing quote. -/
def basic? : List Char → Option (List Char × List Char)
  | [] => none
  | '"' :: rest => some ([], rest)
  | '\\' :: 'u' :: a :: b :: c :: d :: rest => do
    let char ← codePoint? [a, b, c, d]
    let (text, rest) ← basic? rest
    return (char :: text, rest)
  | '\\' :: 'U' :: a :: b :: c :: d :: e :: f :: g :: h :: rest => do
    let char ← codePoint? [a, b, c, d, e, f, g, h]
    let (text, rest) ← basic? rest
    return (char :: text, rest)
  | '\\' :: c :: rest => do
    let char ← shortEscape? c
    let (text, rest) ← basic? rest
    return (char :: text, rest)
  | c :: rest =>
    if isPlain c ∧ c ≠ '\\' then (basic? rest).map fun (text, rest) => (c :: text, rest) else none

/-- A text without escapes, on one line, up to its closing quote. -/
def literal? : List Char → Option (List Char × List Char)
  | [] => none
  | '\'' :: rest => some ([], rest)
  | c :: rest =>
    if isPlain c then (literal? rest).map fun (text, rest) => (c :: text, rest) else none

/-- Does a backslash before this text end the line?  Only blanks may follow it there. -/
def endsLine (s : List Char) : Bool := (lineEnd? (skipBlanks s)).isSome

/-- A text over several lines, up to its three closing quotes; up to two more of them belong to it.  With
`escapes` a backslash begins an escape, and one at the end of a line joins the lines: while `joining`, blanks
and line ends are passed over. -/
def block? (quote : Char) (escapes : Bool) (joining : Bool) :
    List Char → Option (List Char × List Char)
  | [] => none
  | '\r' :: '\n' :: rest =>
    if joining then block? quote escapes true rest
    else (block? quote escapes false rest).map fun (text, rest) => ('\n' :: text, rest)
  | '\\' :: 'u' :: a :: b :: c :: d :: rest =>
    if escapes then do
      let char ← codePoint? [a, b, c, d]
      let (text, rest) ← block? quote escapes false rest
      return (char :: text, rest)
    else do
      let (text, rest) ← block? quote escapes false ('u' :: a :: b :: c :: d :: rest)
      return ('\\' :: text, rest)
  | '\\' :: 'U' :: a :: b :: c :: d :: e :: f :: g :: h :: rest =>
    if escapes then do
      let char ← codePoint? [a, b, c, d, e, f, g, h]
      let (text, rest) ← block? quote escapes false rest
      return (char :: text, rest)
    else do
      let (text, rest) ← block? quote escapes false
        ('U' :: a :: b :: c :: d :: e :: f :: g :: h :: rest)
      return ('\\' :: text, rest)
  | c :: rest =>
    if joining ∧ (isBlank c ∨ c = '\n') then block? quote escapes true rest
    else if c = quote then
      match rest.span (· = quote) with
      | (_ :: _ :: more, after) =>
        if more.length ≤ 2 then some (more, after)
        else some ([quote, quote], more.drop 2 ++ after)
      | _ => (block? quote escapes false rest).map fun (text, rest) => (c :: text, rest)
    else if c = '\\' ∧ escapes then
      if endsLine rest then block? quote escapes true rest
      else
        match rest with
        | [] => none
        | e :: rest => do
          let char ← shortEscape? e
          let (text, rest) ← block? quote escapes false rest
          return (char :: text, rest)
    else if isPlain c ∨ c = '\n' then
      (block? quote escapes false rest).map fun (text, rest) => (c :: text, rest)
    else none

/-- The lines of a text over several lines, from behind its three opening quotes.  A line end directly behind
them does not count. -/
def lines? (quote : Char) (s : List Char) : Option (List Char × List Char) :=
  block? quote (quote = '"') false ((lineEnd? s).getD s)

def string? : List Char → Option (List Char × List Char)
  | '"' :: '"' :: '"' :: rest => lines? '"' rest
  | '\'' :: '\'' :: '\'' :: rest => lines? '\'' rest
  | '"' :: rest => basic? rest
  | '\'' :: rest => literal? rest
  | _ => none

/-! ## Keys -/

def isBare (c : Char) : Bool := c.isAlphanum || c = '_' || c = '-'

def simpleKey? : List Char → Option (List Char × List Char)
  | '"' :: rest => basic? rest
  | '\'' :: rest => literal? rest
  | s =>
    match s.span isBare with
    | ([], _) => none
    | (name, rest) => some (name, rest)

/-- The parts of a key and what follows; there are at most as many as the fuel allows. -/
def keyParts? : Nat → List Char → Option (List String × List Char)
  | 0, _ => none
  | fuel + 1, s => do
    let (name, s) ← simpleKey? (skipBlanks s)
    match skipBlanks s with
    | '.' :: rest =>
      let (names, s) ← keyParts? fuel rest
      return (String.ofList name :: names, s)
    | s => return ([String.ofList name], s)

def key? (s : List Char) : Option (List String × List Char) := keyParts? (s.length + 1) s

end ImageLoader.Toml
