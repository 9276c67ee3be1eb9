import ImageLoader.Json.Basic

/-!
# Writing JSON

From a tree to its text, either on one line or spread over lines with an indentation of two blanks.

* `Json.compact` — the text on one line.
* `Json.pretty` — the text spread over lines.
* `escape` — what stands for a character inside a string.
-/

namespace ImageLoader

namespace JsonNumber

/-- The text of a number; an integer is written without a fraction. -/
def render : JsonNumber → String
  | natural n => toString n
  | negative n => s!"-{n}"
  | real digits exponent => s!"{digits}e{exponent}"

end JsonNumber

namespace Json

def hexDigit (n : Nat) : Char := Nat.digitChar n

/-- What stands for a character inside a string: control characters, quotes and backslashes are escaped,
all else stands for itself. -/
def escape (c : Char) : List Char :=
  match c with
  | '"' => ['\\', '"']
  | '\\' => ['\\', '\\']
  | '\n' => ['\\', 'n']
  | '\r' => ['\\', 'r']
  | '\t' => ['\\', 't']
  | '\x08' => ['\\', 'b']
  | '\x0c' => ['\\', 'f']
  | c =>
    if c.toNat < 0x20 then
      ['\\', 'u', '0', '0', hexDigit (c.toNat / 16), hexDigit (c.toNat % 16)]
    else [c]

def quote (s : String) : String := String.ofList ('"' :: s.toList.flatMap escape ++ ['"'])

mutual

def compact : Json → String
  | null => "null"
  | bool b => if b then "true" else "false"
  | number n => n.render
  | string s => quote s
  | brokenString => quote ""
  | array [] => "[]"
  | array (j :: rest) => "[" ++ compact j ++ compactItems rest ++ "]"
  | object [] | brokenObject => "\x7b\x7d"
  | object ((k, j) :: rest) => "\x7b" ++ quote k ++ ":" ++ compact j ++ compactMembers rest ++ "\x7d"

def compactItems : List Json → String
  | [] => ""
  | j :: rest => "," ++ compact j ++ compactItems rest

def compactMembers : List (String × Json) → String
  | [] => ""
  | (k, j) :: rest => "," ++ quote k ++ ":" ++ compact j ++ compactMembers rest

end

/-- A new line, indented by `n` levels. -/
def newLine (n : Nat) : String := "\n" ++ String.ofList (List.replicate (2 * n) ' ')

mutual

def prettyAt (n : Nat) : Json → String
  | null => "null"
  | bool b => if b then "true" else "false"
  | number x => x.render
  | string s => quote s
  | brokenString => quote ""
  | array [] => "[]"
  | array (j :: rest) =>
    "[" ++ newLine (n + 1) ++ prettyAt (n + 1) j ++ prettyItems n rest ++ newLine n ++ "]"
  | object [] | brokenObject => "\x7b\x7d"
  | object ((k, j) :: rest) =>
    "\x7b" ++ newLine (n + 1) ++ quote k ++ ": " ++ prettyAt (n + 1) j ++ prettyMembers n rest ++
      newLine n ++ "\x7d"

def prettyItems (n : Nat) : List Json → String
  | [] => ""
  | j :: rest => "," ++ newLine (n + 1) ++ prettyAt (n + 1) j ++ prettyItems n rest

def prettyMembers (n : Nat) : List (String × Json) → String
  | [] => ""
  | (k, j) :: rest =>
    "," ++ newLine (n + 1) ++ quote k ++ ": " ++ prettyAt (n + 1) j ++ prettyMembers n rest

end

def pretty (j : Json) : String := prettyAt 0 j

end Json

end ImageLoader
