import ImageLoader.Format.Selection
import ImageLoader.Format.Name
import ImageLoader.Frame.Raw
import ImageLoader.Json.Record
import ImageLoader.Sandbox.Selector

/-!
# JSON forms of formats, requests and details

How the values that configurations and reports are made of are written as JSON and read back.

* `FormatSet.toJson` — a set is the list of its members, in the order of their numbers.
* `FrameDetails.toJson` — the colour profile is left out.
-/

namespace ImageLoader

namespace MemoryFormat

def toJson (f : MemoryFormat) : Json := .string f.nick

def ofJson? (j : Json) : Option MemoryFormat := j.asWord?.bind ofNick?

end MemoryFormat

namespace FormatSet

def toJson (s : FormatSet) : Json := .array (s.toList.map MemoryFormat.toJson)

def ofJson? (j : Json) : Option FormatSet := (j.asList? MemoryFormat.ofJson?).map ofList

end FormatSet

namespace SandboxSelector

def toJson (s : SandboxSelector) : Json := .string s.nick

def ofJson? (j : Json) : Option SandboxSelector := j.asWord?.bind ofNick?

end SandboxSelector

namespace SandboxMechanism

def toJson (m : SandboxMechanism) : Json := .string m.nick

def ofJson? (j : Json) : Option SandboxMechanism := j.asWord?.bind ofNick?

end SandboxMechanism

namespace ClipRegion

def toJson (r : ClipRegion) : Json :=
  .object [("x", .nat r.x.toNat), ("y", .nat r.y.toNat), ("width", .nat r.width.toNat),
    ("height", .nat r.height.toNat)]

def ofJson? (j : Json) : Option ClipRegion := do
  match ← j.fields? ["x", "y", "width", "height"] with
  | [x, y, width, height] =>
    return ⟨← Json.required Json.asUInt32? x, ← Json.required Json.asUInt32? y,
      ← Json.required Json.asUInt32? width, ← Json.required Json.asUInt32? height⟩
  | _ => none

end ClipRegion

namespace FrameRequest

def toJson (r : FrameRequest) : Json :=
  .object [("clip", .option ClipRegion.toJson r.clip),
    ("scale", .option (fun s => .array [.nat s.1.toNat, .nat s.2.toNat]) r.scale)]

def ofJson? (j : Json) : Option FrameRequest := do
  match ← j.fields? ["clip", "scale"] with
  | [clip, scale] =>
    return ⟨← Json.optional ClipRegion.ofJson? clip,
      ← Json.optional (Json.asPair? Json.asUInt32?) scale⟩
  | _ => none

end FrameRequest

namespace FrameDetails

def toJson (d : FrameDetails) : Json :=
  .object [("bit_depth", .option (fun n => .nat n.toNat) d.bitDepth),
    ("alpha_channel", .option .bool d.alphaChannel),
    ("grayscale", .option .bool d.grayscale),
    ("n_frame", .option (fun n => .nat n.toNat) d.number)]

def ofJson? (j : Json) : Option FrameDetails := do
  match ← j.fields? ["bit_depth", "alpha_channel", "grayscale", "n_frame"] with
  | [bitDepth, alphaChannel, grayscale, number] =>
    return ⟨none, ← Json.optional Json.asUInt8? bitDepth,
      ← Json.optional Json.asBool? alphaChannel, ← Json.optional Json.asBool? grayscale,
      ← Json.optional Json.asUInt64? number⟩
  | _ => none

end FrameDetails

end ImageLoader
