import ImageLoader.Bytes
import ImageLoader.Error

/-!
# Sources

Where an encoded image comes from: a file, a stream, or bytes at hand.  A stream is the sequence of what its
reads give; an interrupted read is repeated, an empty one ends the stream, and a failed one fails the whole.

* `Source.readAll` — the bytes of a source, or why they cannot be had.
* `Source.describe` — a source in messages for developers.
-/

namespace ImageLoader

inductive StreamRead where
  | data (b : Bytes)
  | interrupted
  | failed (text : String)
deriving DecidableEq

inductive Source where
  | file (path : String)
  | stream (reads : List StreamRead)
  | bytes (b : Bytes)
deriving DecidableEq

structure FileFault where
  text : String
  /-- The file could be opened, and only reading it failed. -/
  wasOpened : Bool := false
deriving DecidableEq

/-- The bytes of a file, or the reason for which the system refuses them. -/
abbrev FileReader := String → Except FileFault Bytes

/-- The bytes of a stream, behind those read before. -/
def StreamRead.collect : List StreamRead → Bytes → Except String Bytes
  | [], done => .ok done
  | .data b :: rest, done => if b.isEmpty then .ok done else collect rest (done ++ b)
  | .interrupted :: rest, done => collect rest done
  | .failed text :: _, _ => .error text

namespace Source

def readAll (read : FileReader) : Source → Except LoadError Bytes
  | file path =>
    match read path with
    | .ok b => .ok b
    | .error fault => .error (.sourceUnreadable s!"{path}: {fault.text}")
  | stream reads =>
    match StreamRead.collect reads ByteArray.empty with
    | .ok b => .ok b
    | .error text => .error (.sourceUnreadable s!"stream: {text}")
  | bytes b => .ok b

def kind : Source → String
  | file _ => "file"
  | stream _ => "stream"
  | bytes _ => "bytes"

/-! ## Paths in messages -/

/-- Characters that leave no mark of their own on paper. -/
def isInvisible (c : Char) : Bool :=
  let n := c.toNat
  n < 0x20 || (0x7F ≤ n && n < 0xA0) || n == 0xAD || (0x300 ≤ n && n ≤ 0x36F) ||
    (0x200B ≤ n && n ≤ 0x200F) || (0x2028 ≤ n && n ≤ 0x202E) || (0x2060 ≤ n && n ≤ 0x206F) ||
    (0xE000 ≤ n && n ≤ 0xF8FF) || (0xFE00 ≤ n && n ≤ 0xFE0F) || n == 0xFEFF

def escapeChar (c : Char) : List Char :=
  if c = '\x00' then ['\\', '0']
  else if c = '\t' then ['\\', 't']
  else if c = '\r' then ['\\', 'r']
  else if c = '\n' then ['\\', 'n']
  else if c = '\\' ∨ c = '"' ∨ c = '\'' then ['\\', c]
  else if isInvisible c then "\\u\x7b".toList ++ Nat.toDigits 16 c.toNat ++ ['}']
  else [c]

def quotePath (s : String) : String :=
  String.ofList ('"' :: s.toList.flatMap escapeChar ++ ['"'])

def describe : Source → String
  | file path => s!"File({quotePath path})"
  | stream _ => "Stream(..)"
  | bytes b => s!"Bytes({b.size} bytes)"

end Source

end ImageLoader
