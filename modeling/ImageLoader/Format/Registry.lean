/-!
# The type registry

The enumerations that bindings to other systems see: for each type its name and its values, and for each
value its number, its name in capitals, and its nick.  The entries are written out one by one: they are what the
other systems were built against, and not whatever the types of this library are at present.

* `TypeInfo.all` — the registered types.
* `TypeInfo.flags` — the values that a word of flags is made of.
* `TypeInfo.report` — the registry as text.
-/

namespace ImageLoader

structure ValueInfo where
  value : Int64
  name : String
  nick : String
deriving DecidableEq

/-- Is a value one of several, or one of many that combine? -/
inductive TypeKind where
  | enumeration
  | flags
deriving DecidableEq

structure TypeInfo where
  name : String
  kind : TypeKind
  values : List ValueInfo
deriving DecidableEq

def TypeKind.name : TypeKind → String
  | enumeration => "enum"
  | flags => "flags"

namespace ValueInfo

/-- The entry as a line of the report, with the number set to the right of ten columns. -/
def line (v : ValueInfo) : String :=
  let number := toString v.value
  let margin := String.ofList (List.replicate (10 - number.length) ' ')
  s!"  {margin}{number}  {v.name}  {v.nick}\n"

end ValueInfo

namespace TypeInfo

/-! ## The entries -/

def selectorValues : List ValueInfo :=
  [⟨0, "GLY_SANDBOX_SELECTOR_AUTO", "auto"⟩,
    ⟨1, "GLY_SANDBOX_SELECTOR_BWRAP", "bwrap"⟩,
    ⟨2, "GLY_SANDBOX_SELECTOR_FLATPAK_SPAWN", "flatpak-spawn"⟩,
    ⟨3, "GLY_SANDBOX_SELECTOR_NOT_SANDBOXED", "not-sandboxed"⟩]

def formatValues : List ValueInfo :=
  [⟨0, "GLY_MEMORY_FORMAT_B8G8R8A8_PREMULTIPLIED", "b8g8r8a8_premultiplied"⟩,
    ⟨1, "GLY_MEMORY_FORMAT_A8R8G8B8_PREMULTIPLIED", "a8r8g8b8_premultiplied"⟩,
    ⟨2, "GLY_MEMORY_FORMAT_R8G8B8A8_PREMULTIPLIED", "r8g8b8a8_premultiplied"⟩,
    ⟨3, "GLY_MEMORY_FORMAT_B8G8R8A8", "b8g8r8a8"⟩,
    ⟨4, "GLY_MEMORY_FORMAT_A8R8G8B8", "a8r8g8b8"⟩,
    ⟨5, "GLY_MEMORY_FORMAT_R8G8B8A8", "r8g8b8a8"⟩,
    ⟨6, "GLY_MEMORY_FORMAT_A8B8G8R8", "a8b8g8r8"⟩,
    ⟨7, "GLY_MEMORY_FORMAT_R8G8B8", "r8g8b8"⟩,
    ⟨8, "GLY_MEMORY_FORMAT_B8G8R8", "b8g8r8"⟩,
    ⟨9, "GLY_MEMORY_FORMAT_R16G16B16", "r16g16b16"⟩,
    ⟨10, "GLY_MEMORY_FORMAT_R16G16B16A16_PREMULTIPLIED", "r16g16b16a16_premultiplied"⟩,
    ⟨11, "GLY_MEMORY_FORMAT_R16G16B16A16", "r16g16b16a16"⟩,
    ⟨12, "GLY_MEMORY_FORMAT_R16G16B16_FLOAT", "r16g16b16_float"⟩,
    ⟨13, "GLY_MEMORY_FORMAT_R16G16B16A16_FLOAT", "r16g16b16a16_float"⟩,
    ⟨14, "GLY_MEMORY_FORMAT_R32G32B32_FLOAT", "r32g32b32_float"⟩,
    ⟨15, "GLY_MEMORY_FORMAT_R32G32B32A32_FLOAT_PREMULTIPLIED", "r32g32b32a32_float_premultiplied"⟩,
    ⟨16, "GLY_MEMORY_FORMAT_R32G32B32A32_FLOAT", "r32g32b32a32_float"⟩,
    ⟨17, "GLY_MEMORY_FORMAT_G8A8_PREMULTIPLIED", "g8a8_premultiplied"⟩,
    ⟨18, "GLY_MEMORY_FORMAT_G8A8", "g8a8"⟩,
    ⟨19, "GLY_MEMORY_FORMAT_G8", "g8"⟩,
    ⟨20, "GLY_MEMORY_FORMAT_G16A16_PREMULTIPLIED", "g16a16_premultiplied"⟩,
    ⟨21, "GLY_MEMORY_FORMAT_G16A16", "g16a16"⟩,
    ⟨22, "GLY_MEMORY_FORMAT_G16", "g16"⟩]

def flagValues : List ValueInfo :=
  [⟨0x000001, "GLY_MEMORY_FORMAT_SELECTION_B8G8R8A8_PREMULTIPLIED", "b8g8r8a8_premultiplied"⟩,
    ⟨0x000002, "GLY_MEMORY_FORMAT_SELECTION_A8R8G8B8_PREMULTIPLIED", "a8r8g8b8_premultiplied"⟩,
    ⟨0x000004, "GLY_MEMORY_FORMAT_SELECTION_R8G8B8A8_PREMULTIPLIED", "r8g8b8a8_premultiplied"⟩,
    ⟨0x000008, "GLY_MEMORY_FORMAT_SELECTION_B8G8R8A8", "b8g8r8a8"⟩,
    ⟨0x000010, "GLY_MEMORY_FORMAT_SELECTION_A8R8G8B8", "a8r8g8b8"⟩,
    ⟨0x000020, "GLY_MEMORY_FORMAT_SELECTION_R8G8B8A8", "r8g8b8a8"⟩,
    ⟨0x000040, "GLY_MEMORY_FORMAT_SELECTION_A8B8G8R8", "a8b8g8r8"⟩,
    ⟨0x000080, "GLY_MEMORY_FORMAT_SELECTION_R8G8B8", "r8g8b8"⟩,
    ⟨0x000100, "GLY_MEMORY_FORMAT_SELECTION_B8G8R8", "b8g8r8"⟩,
    ⟨0x000200, "GLY_MEMORY_FORMAT_SELECTION_R16G16B16", "r16g16b16"⟩,
    ⟨0x000400, "GLY_MEMORY_FORMAT_SELECTION_R16G16B16A16_PREMULTIPLIED", "r16g16b16a16_premultiplied"⟩,
    ⟨0x000800, "GLY_MEMORY_FORMAT_SELECTION_R16G16B16A16", "r16g16b16a16"⟩,
    ⟨0x001000, "GLY_MEMORY_FORMAT_SELECTION_R16G16B16_FLOAT", "r16g16b16_float"⟩,
    ⟨0x002000, "GLY_MEMORY_FORMAT_SELECTION_R16G16B16A16_FLOAT", "r16g16b16a16_float"⟩,
    ⟨0x004000, "GLY_MEMORY_FORMAT_SELECTION_R32G32B32_FLOAT", "r32g32b32_float"⟩,
    ⟨0x008000, "GLY_MEMORY_FORMAT_SELECTION_R32G32B32A32_FLOAT_PREMULTIPLIED", "r32g32b32a32_float_premultiplied"⟩,
    ⟨0x010000, "GLY_MEMORY_FORMAT_SELECTION_R32G32B32A32_FLOAT", "r32g32b32a32_float"⟩,
    ⟨0x020000, "GLY_MEMORY_FORMAT_SELECTION_G8A8_PREMULTIPLIED", "g8a8_premultiplied"⟩,
    ⟨0x040000, "GLY_MEMORY_FORMAT_SELECTION_G8A8", "g8a8"⟩,
    ⟨0x080000, "GLY_MEMORY_FORMAT_SELECTION_G8", "g8"⟩,
    ⟨0x100000, "GLY_MEMORY_FORMAT_SELECTION_G16A16_PREMULTIPLIED", "g16a16_premultiplied"⟩,
    ⟨0x200000, "GLY_MEMORY_FORMAT_SELECTION_G16A16", "g16a16"⟩,
    ⟨0x400000, "GLY_MEMORY_FORMAT_SELECTION_G16", "g16"⟩]

/-! ## The types -/

def sandboxSelector : TypeInfo :=
  ⟨"GlySandboxSelector", .enumeration, selectorValues⟩

def memoryFormat : TypeInfo :=
  ⟨"GlyMemoryFormat", .enumeration, formatValues⟩

def formatSet : TypeInfo :=
  ⟨"GlyMemoryFormatSelection", .flags, flagValues⟩

def all : List TypeInfo := [sandboxSelector, memoryFormat, formatSet]

def find? (name : String) : Option TypeInfo := all.find? fun t => t.name == name

def value? (t : TypeInfo) (v : Int64) : Option ValueInfo := t.values.find? fun i => i.value == v

def nick? (t : TypeInfo) (nick : String) : Option ValueInfo := t.values.find? fun i => i.nick == nick

/-- The entries whose bits are all set in a word; an entry without bits is never among them. -/
def flags (t : TypeInfo) (bits : Int64) : List ValueInfo :=
  t.values.filter fun i => i.value != 0 && bits &&& i.value == i.value

def describe (t : TypeInfo) : String :=
  s!"{t.name} ({t.kind.name})\n" ++ String.join (t.values.map ValueInfo.line)

def report : String := String.join (all.map describe)

end TypeInfo

end ImageLoader
