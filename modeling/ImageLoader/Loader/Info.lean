import ImageLoader.Bytes
import ImageLoader.Json.Record

/-!
# What is known of an image before decoding

The type of an image and what its header says: size, format name, metadata, and whether it will be turned
upright while decoding.

* `MimeType.isJpeg` — types are compared letter by letter.
-/

namespace ImageLoader

structure MimeType where
  text : String
deriving DecidableEq, Inhabited

namespace MimeType

def isJpeg (m : MimeType) : Bool := m.text == "image/jpeg"

def toJson (m : MimeType) : Json := .string m.text

def ofJson? (j : Json) : Option MimeType := j.asString?.map MimeType.mk

end MimeType

structure ImageInfo where
  width : UInt32
  height : UInt32
  formatName : Option String := none
  exif : Option Bytes := none
  /-- Are frames turned upright while decoding? -/
  transformationsApplied : Bool := false
deriving DecidableEq, Inhabited

namespace ImageInfo

/-- The metadata block is left out. -/
def toJson (i : ImageInfo) : Json :=
  .object [("width", .nat i.width.toNat), ("height", .nat i.height.toNat),
    ("format_name", .option .string i.formatName),
    ("transformations_applied", .bool i.transformationsApplied)]

def ofJson? (j : Json) : Option ImageInfo := do
  match ← j.fields? ["width", "height", "format_name", "transformations_applied"] with
  | [width, height, formatName, applied] =>
    return ⟨← Json.required Json.asUInt32? width, ← Json.required Json.asUInt32? height,
      ← Json.optional Json.asString? formatName, none, ← Json.required Json.asBool? applied⟩
  | _ => none

end ImageInfo

structure ProbedImage where
  mimeType : MimeType
  info : ImageInfo
deriving DecidableEq, Inhabited

end ImageLoader
