import ImageLoader.Toml.Scalar
import ImageLoader.Toml.Table

/-!
# Reading TOML

From the text of a document to a JSON value.  Values nest, so their reader is bounded by the length of the
text; a document is read line by line.

* `Toml.parse?` — the object that a document describes.
-/

namespace ImageLoader.Toml

/-! ## Values -/

mutual

def value? : Nat → List Char → Option (Json × List Char)
  | 0, _ => none
  | fuel + 1, s =>
    match s with
    | '[' :: rest =>
      match skipLayout false rest with
      | ']' :: rest => some (.array [], rest)
      | s => (items? fuel s).map fun (l, rest) => (.array l, rest)
    | '{' :: rest =>
      match skipBlanks rest with
      | '}' :: rest => some (.object [], rest)
      | s => (members? fuel [] s).map fun (m, rest) => (.object (membersJson m), rest)
    | 't' :: rest => (Json.word? "rue".toList rest).map fun rest => (.bool true, rest)
    | 'f' :: rest => (Json.word? "alse".toList rest).map fun rest => (.bool false, rest)
    | c :: _ =>
      if c = '"' ∨ c = '\'' then
        (string? s).map fun (text, rest) => (.string (String.ofList text), rest)
      else scalar? s
    | [] => none

/-- The items of an array up to its closing bracket, which a comma may precede. -/
def items? : Nat → List Char → Option (List Json × List Char)
  | 0, _ => none
  | fuel + 1, s => do
    let (j, s) ← value? fuel s
    match skipLayout false s with
    | ',' :: rest =>
      match skipLayout false rest with
      | ']' :: rest => return ([j], rest)
      | s =>
        let (l, rest) ← items? fuel s
        return (j :: l, rest)
    | ']' :: rest => return ([j], rest)
    | _ => none

def members? : Nat → Members → List Char → Option (Members × List Char)
  | 0, _, _ => none
  | fuel + 1, m, s => do
    let (path, s) ← key? s
    let (j, s) ← value? fuel (skipBlanks (← mark? '=' s))
    let m ← m.define true path j
    match skipBlanks s with
    | ',' :: rest => members? fuel m rest
    | '}' :: rest => return (m, rest)
    | _ => none

end

/-! ## Documents -/

/-- A line with a key and its value, for the table that the last header named. -/
def keyLine? (m : Members) (path : List String) (s : List Char) : Option (Members × List Char) := do
  let (key, s) ← key? s
  let (j, s) ← value? (s.length + 1) (skipBlanks (← mark? '=' s))
  let m ← m.within (fun inner => inner.define true key j) path
  return (m, ← endOfLine? s)

def header? (closing s : List Char) : Option (List String × List Char) := do
  let (path, s) ← key? s
  return (path, ← endOfLine? (← Json.word? closing s))

/-- The lines of a document, on top of what the lines before them defined. -/
def lines : Nat → Members → List String → List Char → Option Members
  | 0, _, _, _ => none
  | fuel + 1, m, path, s =>
    match skipBlanks s with
    | [] => some m
    | '[' :: '[' :: rest => do
      let (path, s) ← header? [']', ']'] rest
      lines fuel (← m.append? path) path s
    | '[' :: rest => do
      let (path, s) ← header? [']'] rest
      lines fuel (← m.open? path) path s
    | c :: rest =>
      if c = '#' ∨ c = '\n' ∨ c = '\r' then do lines fuel m path (← endOfLine? (c :: rest))
      else do
        let (m, s) ← keyLine? m path (c :: rest)
        lines fuel m path s

/-- The object that a document describes.  A byte order mark may precede the document. -/
def parse? (s : List Char) : Option Json :=
  let s := match s with
    | '\uFEFF' :: rest => rest
    | s => s
  (lines (s.length + 1) [] [] s).map fun m => .object (membersJson m)

end ImageLoader.Toml
