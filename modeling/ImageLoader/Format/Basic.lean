/-!
# Memory formats

How a pixel lies in memory.  A `MemoryFormat` names one of twenty-three layouts; `layout` says what the
name means: the type of a channel, the order of the components, and whether colour was multiplied by
alpha.  All other properties are read off the layout.

* `MemoryFormat.layout` — the table.
* `MemoryFormat.nBytes` — the bytes of a pixel.
* `mem_all`, `getElem?_all_value` — `MemoryFormat.all` lists every format, in the order of their numbers.
-/

namespace ImageLoader

/-- How one channel is stored: as a fraction of the greatest word, or as a number. -/
inductive ChannelType where
  | u8
  | u16
  | f16
  | f32
deriving DecidableEq, Inhabited

def ChannelType.size : ChannelType → Nat
  | .u8 => 1
  | .u16 => 2
  | .f16 => 2
  | .f32 => 4

/-- What a channel of a pixel holds.  `gray` is the mean of the three colours. -/
inductive Component where
  | red
  | green
  | blue
  | alpha
  | gray
deriving DecidableEq, Inhabited

structure Layout where
  channelType : ChannelType
  order : List Component
  premultiplied : Bool := false
deriving DecidableEq

/-- A pixel layout.  The order of the constructors is the order of the public numbers. -/
inductive MemoryFormat where
  | b8g8r8a8Premultiplied
  | a8r8g8b8Premultiplied
  | r8g8b8a8Premultiplied
  | b8g8r8a8
  | a8r8g8b8
  | r8g8b8a8
  | a8b8g8r8
  | r8g8b8
  | b8g8r8
  | r16g16b16
  | r16g16b16a16Premultiplied
  | r16g16b16a16
  | r16g16b16Float
  | r16g16b16a16Float
  | r32g32b32Float
  | r32g32b32a32FloatPremultiplied
  | r32g32b32a32Float
  | g8a8Premultiplied
  | g8a8
  | g8
  | g16a16Premultiplied
  | g16a16
  | g16
deriving DecidableEq, Inhabited

namespace MemoryFormat

def layout : MemoryFormat → Layout
  | b8g8r8a8Premultiplied => ⟨.u8, [.blue, .green, .red, .alpha], true⟩
  | a8r8g8b8Premultiplied => ⟨.u8, [.alpha, .red, .green, .blue], true⟩
  | r8g8b8a8Premultiplied => ⟨.u8, [.red, .green, .blue, .alpha], true⟩
  | b8g8r8a8 => ⟨.u8, [.blue, .green, .red, .alpha], false⟩
  | a8r8g8b8 => ⟨.u8, [.alpha, .red, .green, .blue], false⟩
  | r8g8b8a8 => ⟨.u8, [.red, .green, .blue, .alpha], false⟩
  | a8b8g8r8 => ⟨.u8, [.alpha, .blue, .green, .red], false⟩
  | r8g8b8 => ⟨.u8, [.red, .green, .blue], false⟩
  | b8g8r8 => ⟨.u8, [.blue, .green, .red], false⟩
  | r16g16b16 => ⟨.u16, [.red, .green, .blue], false⟩
  | r16g16b16a16Premultiplied => ⟨.u16, [.red, .green, .blue, .alpha], true⟩
  | r16g16b16a16 => ⟨.u16, [.red, .green, .blue, .alpha], false⟩
  | r16g16b16Float => ⟨.f16, [.red, .green, .blue], false⟩
  | r16g16b16a16Float => ⟨.f16, [.red, .green, .blue, .alpha], false⟩
  | r32g32b32Float => ⟨.f32, [.red, .green, .blue], false⟩
  | r32g32b32a32FloatPremultiplied => ⟨.f32, [.red, .green, .blue, .alpha], true⟩
  | r32g32b32a32Float => ⟨.f32, [.red, .green, .blue, .alpha], false⟩
  | g8a8Premultiplied => ⟨.u8, [.gray, .alpha], true⟩
  | g8a8 => ⟨.u8, [.gray, .alpha], false⟩
  | g8 => ⟨.u8, [.gray], false⟩
  | g16a16Premultiplied => ⟨.u16, [.gray, .alpha], true⟩
  | g16a16 => ⟨.u16, [.gray, .alpha], false⟩
  | g16 => ⟨.u16, [.gray], false⟩

def channelType (f : MemoryFormat) : ChannelType := f.layout.channelType

def nChannels (f : MemoryFormat) : Nat := f.layout.order.length

def nBytes (f : MemoryFormat) : Nat := f.nChannels * f.channelType.size

def hasAlpha (f : MemoryFormat) : Bool := f.layout.order.contains .alpha

def isPremultiplied (f : MemoryFormat) : Bool := f.layout.premultiplied

/-- Does the format store brightness in place of colour? -/
def isGrayscale (f : MemoryFormat) : Bool := f.layout.order.contains .gray

def all : List MemoryFormat :=
  [b8g8r8a8Premultiplied, a8r8g8b8Premultiplied, r8g8b8a8Premultiplied, b8g8r8a8, a8r8g8b8,
    r8g8b8a8, a8b8g8r8, r8g8b8, b8g8r8, r16g16b16, r16g16b16a16Premultiplied, r16g16b16a16,
    r16g16b16Float, r16g16b16a16Float, r32g32b32Float, r32g32b32a32FloatPremultiplied,
    r32g32b32a32Float, g8a8Premultiplied, g8a8, g8, g16a16Premultiplied, g16a16, g16]

def value (f : MemoryFormat) : Nat := f.ctorIdx

@[simp] theorem mem_all (f : MemoryFormat) : f ∈ all := by cases f <;> decide

/-- The number of a format is its place in the list. -/
theorem getElem?_all_value (f : MemoryFormat) : all[f.value]? = some f := by cases f <;> rfl

theorem value_lt (f : MemoryFormat) : f.value < 23 := by cases f <;> decide

theorem nBytes_pos (f : MemoryFormat) : 0 < f.nBytes := by cases f <;> decide

theorem nBytes_le (f : MemoryFormat) : f.nBytes ≤ 16 := by cases f <;> decide

end MemoryFormat

end ImageLoader
