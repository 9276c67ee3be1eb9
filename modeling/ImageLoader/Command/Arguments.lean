import ImageLoader.Frame.Request
import ImageLoader.Sandbox.Selector
import ImageLoader.Text.Blank
import ImageLoader.Text.Decimal

/-!
# Arguments

What the words of a command line ask for.  Options may stand anywhere; two dashes alone make every later word a
path.  An option that takes a value takes it from behind an equals sign or from the next word, and is checked when
the next word has been looked at: an unknown word is reported before a bad value in front of it.

* `Arguments.parse` — what the words ask for, or the fault that is reported.
* `parseScale` — a size such as `64x32`, or what is said of a text that is none.
-/

namespace ImageLoader

inductive Feed where
  /-- By its path. -/
  | path
  /-- As a stream. -/
  | stream
  /-- As bytes that were read before. -/
  | bytes
deriving DecidableEq

structure Arguments where
  path : Option String := none
  feed : Feed := .path
  asynchronous : Bool := false
  sandbox : Option SandboxSelector := none
  accept : List MemoryFormat := []
  scale : Option (UInt32 × UInt32) := none
  noTransformations : Bool := false
  allFrames : Bool := false
  json : Bool := false
  listTypes : Bool := false
deriving DecidableEq

inductive UsageError where
  | help
  | version
  | missingArgument
  | conflict
  | unknownArgument
  | badValue
  | missingValue
  | unwantedValue
deriving DecidableEq

/-- A side of a size.  A fault is told of the text as it stands, blanks included. -/
def parseSide (s : List Char) : Except String UInt32 :=
  match Text.Decimal.parse UInt32.size (Text.trim s) with
  | .ok n => .ok (.ofNat n)
  | .error fault => .error s!"{String.ofList s}: {fault.text}"

/-- A size: a width, the letter x of either case, and a height. -/
def parseScale (s : List Char) : Except String (UInt32 × UInt32) :=
  match s.span fun c => c != 'x' && c != 'X' with
  | (width, _ :: height) => do return (← parseSide width, ← parseSide height)
  | _ => .error s!"expected WIDTHxHEIGHT, got {String.ofList s}"

namespace Arguments

def request (a : Arguments) : FrameRequest := { scale := a.scale }

/-! ## Names -/

inductive Switch where
  | stream
  | bytes
  | asynchronous
  | noTransformations
  | allFrames
  | json
  | listTypes
  | help
  | version
deriving DecidableEq

inductive Slot where
  | path
  | sandbox
  | accept
  | scale
deriving DecidableEq

def longName? (name : String) : Option (Switch ⊕ Slot) :=
  match name with
  | "stream" => some (.inl .stream)
  | "bytes" => some (.inl .bytes)
  | "async" => some (.inl .asynchronous)
  | "no-transformations" => some (.inl .noTransformations)
  | "all-frames" => some (.inl .allFrames)
  | "json" => some (.inl .json)
  | "list-types" => some (.inl .listTypes)
  | "help" => some (.inl .help)
  | "version" => some (.inl .version)
  | "sandbox" => some (.inr .sandbox)
  | "accept" => some (.inr .accept)
  | "scale" => some (.inr .scale)
  | _ => none

def shortName? (c : Char) : Option Switch :=
  if c = 'h' then some .help else if c = 'V' then some .version else none

inductive Word where
  /-- Two dashes alone. -/
  | divider
  /-- An option by its long name, perhaps with a value. -/
  | long (name : String) (value : Option String)
  /-- Options by their short names; the first decides. -/
  | short (name : Char)
  /-- A value or a path. -/
  | plain (text : String)

/-- Tells what a word is.  A dash alone is a path. -/
def Word.of (text : String) : Word :=
  match text.toList with
  | ['-', '-'] => divider
  | '-' :: '-' :: rest =>
    match rest.span fun c => c != '=' with
    | (name, _ :: value) => long (String.ofList name) (some (String.ofList value))
    | (name, []) => long (String.ofList name) none
  | '-' :: c :: _ => short c
  | _ => plain text

/-! ## Reading word by word -/

structure Given where
  switches : List Switch := []
  path : Option String := none
  sandbox : Option SandboxSelector := none
  accept : List MemoryFormat := []
  scale : Option (UInt32 × UInt32) := none
  /-- What takes the next value, or a value that was not looked at yet. -/
  waiting : Option (Slot × Option String) := none
  /-- Two dashes alone have been seen. -/
  divided : Bool := false

namespace Given

/-- Puts a value where it belongs.  Only formats may be given twice. -/
def take (g : Given) (slot : Slot) (text : String) : Except UsageError Given :=
  match slot with
  | .path => if text = "" then .error .missingValue else .ok { g with path := some text }
  | .sandbox =>
    if g.sandbox.isSome then .error .conflict
    else
      match SandboxSelector.parse text with
      | .ok s => .ok { g with sandbox := some s }
      | .error _ => .error .badValue
  | .accept =>
    match MemoryFormat.parse text with
    | .ok f => .ok { g with accept := g.accept ++ [f] }
    | .error _ => .error .badValue
  | .scale =>
    if g.scale.isSome then .error .conflict
    else
      match parseScale text.toList with
      | .ok size => .ok { g with scale := some size }
      | .error _ => .error .badValue

def settle (g : Given) : Except UsageError Given :=
  match g.waiting with
  | none => .ok g
  | some (_, none) => .error .missingValue
  | some (slot, some text) => { g with waiting := none }.take slot text

/-- Sets a switch, which may be given once. -/
def switch (g : Given) (s : Switch) : Except UsageError Given := do
  let g ← g.settle
  match s with
  | .help => .error .help
  | .version => .error .version
  | s => if s ∈ g.switches then .error .conflict else .ok { g with switches := s :: g.switches }

def hasPath (g : Given) : Bool :=
  g.path.isSome ||
    match g.waiting with
    | some (.path, _) => true
    | _ => false

def positional (g : Given) (text : String) : Except UsageError Given :=
  if g.hasPath then .error .unknownArgument
  else do
    let g ← g.settle
    return { g with waiting := some (.path, some text) }

/-- One word, if no two dashes stand before it. -/
def option (g : Given) (word : Word) : Except UsageError Given :=
  match word with
  | .divider => .ok { g with divided := true }
  | .long name value =>
    match longName? name, value with
    | none, _ => .error .unknownArgument
    | some (.inl _), some _ => .error .unwantedValue
    | some (.inl s), none => g.switch s
    | some (.inr slot), some text => do (← g.settle).take slot text
    | some (.inr slot), none => do return { ← g.settle with waiting := some (slot, none) }
  | .short c =>
    match shortName? c with
    | some s => g.switch s
    | none => .error .unknownArgument
  | .plain text =>
    match g.waiting with
    | some (slot, none) => .ok { g with waiting := some (slot, some text) }
    | _ => g.positional text

def word (g : Given) (text : String) : Except UsageError Given :=
  if g.divided then g.positional text else g.option (.of text)

/-- What all words ask for.  A stream and bytes exclude each other, and a path is missing unless the types are to
be listed. -/
def finish (g : Given) : Except UsageError Arguments := do
  let g ← g.settle
  let has (s : Switch) : Bool := decide (s ∈ g.switches)
  if has .stream ∧ has .bytes then throw .conflict
  if g.path.isNone ∧ !has .listTypes then throw .missingArgument
  return {
    path := g.path
    feed := if has .stream then .stream else if has .bytes then .bytes else .path
    asynchronous := has .asynchronous
    sandbox := g.sandbox
    accept := g.accept
    scale := g.scale
    noTransformations := has .noTransformations
    allFrames := has .allFrames
    json := has .json
    listTypes := has .listTypes }

end Given

def parse (words : List String) : Except UsageError Arguments := do
  (← words.foldlM Given.word {}).finish

end Arguments

end ImageLoader
