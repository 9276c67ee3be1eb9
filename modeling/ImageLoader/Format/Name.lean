import ImageLoader.Format.Basic
import ImageLoader.Text.Blank

/-!
# Names of memory formats

A format has a nick, its public name in lower case, and a camel-case name that error texts use.  People
may write the nick in any ASCII case, with dashes for underscores and with blanks around it.

* `MemoryFormat.ofName?` — the format that a text names.
* `nick_injective` — no two formats share a nick.
-/

namespace ImageLoader

namespace Text

/-- The spelling by which names are compared: no blanks around, lower case, `old` read as `new`. -/
def foldName (old new : Char) (s : List Char) : List Char :=
  (trim s).map fun c => if c = old then new else c.toLower

def capital : List Char → List Char
  | [] => []
  | c :: r => c.toUpper :: r

/-- The words between underscores, each with a capital, run together. -/
def camel (s : String) : String :=
  String.join ((s.splitOn "_").map fun w => String.ofList (capital w.toList))

end Text

namespace MemoryFormat

def nick : MemoryFormat → String
  | b8g8r8a8Premultiplied => "b8g8r8a8_premultiplied"
  | a8r8g8b8Premultiplied => "a8r8g8b8_premultiplied"
  | r8g8b8a8Premultiplied => "r8g8b8a8_premultiplied"
  | b8g8r8a8 => "b8g8r8a8"
  | a8r8g8b8 => "a8r8g8b8"
  | r8g8b8a8 => "r8g8b8a8"
  | a8b8g8r8 => "a8b8g8r8"
  | r8g8b8 => "r8g8b8"
  | b8g8r8 => "b8g8r8"
  | r16g16b16 => "r16g16b16"
  | r16g16b16a16Premultiplied => "r16g16b16a16_premultiplied"
  | r16g16b16a16 => "r16g16b16a16"
  | r16g16b16Float => "r16g16b16_float"
  | r16g16b16a16Float => "r16g16b16a16_float"
  | r32g32b32Float => "r32g32b32_float"
  | r32g32b32a32FloatPremultiplied => "r32g32b32a32_float_premultiplied"
  | r32g32b32a32Float => "r32g32b32a32_float"
  | g8a8Premultiplied => "g8a8_premultiplied"
  | g8a8 => "g8a8"
  | g8 => "g8"
  | g16a16Premultiplied => "g16a16_premultiplied"
  | g16a16 => "g16a16"
  | g16 => "g16"

def camelName (f : MemoryFormat) : String := Text.camel f.nick

/-- The format with exactly this nick. -/
def ofNick? (s : String) : Option MemoryFormat := all.find? fun f => f.nick == s

def ofName? (s : String) : Option MemoryFormat :=
  all.find? fun f => f.nick.toList == Text.foldName '-' '_' s.toList

theorem nick_injective (f g : MemoryFormat) : f.nick = g.nick → f = g :=
  (by decide : ∀ f ∈ all, ∀ g ∈ all, f.nick = g.nick → f = g) f (mem_all f) g (mem_all g)

end MemoryFormat

end ImageLoader
