import ImageLoader.Bytes
import ImageLoader.Loader.Info

/-!
# Container formats

Encoded images come in containers.  The container is recognised by the first bytes of the data, and each has a
media type and a name.

* `Container.detect?` — the container of some data.
* `Container.mimeType`, `Container.ofMimeType?` — to a media type and back.
-/

namespace ImageLoader

inductive Container where
  | png
  | jpeg
  | gif
  | webp
  | pnm
  | tiff
  | targa
  | dds
  | bmp
  | ico
  | hdr
  | openExr
  | farbfeld
  | avif
  | qoi
deriving DecidableEq, Inhabited

namespace Container

/-- The first bytes of a container; `none` stands for any byte. -/
structure Signature where
  container : Container
  bytes : List (Option UInt8)

def letters (s : String) : List (Option UInt8) :=
  s.toList.map fun c => some (UInt8.ofNat c.toNat)

def octets (l : List UInt8) : List (Option UInt8) := l.map some

def anything (n : Nat) : List (Option UInt8) := List.replicate n none

def signatures : List Signature :=
  [⟨png, octets [0x89] ++ letters "PNG" ++ octets [13, 10, 26, 10]⟩,
   ⟨jpeg, octets [0xFF, 0xD8, 0xFF]⟩,
   ⟨gif, letters "GIF89a"⟩,
   ⟨gif, letters "GIF87a"⟩,
   ⟨webp, letters "RIFF" ++ anything 4 ++ letters "WEBP"⟩,
   ⟨tiff, letters "MM" ++ octets [0, 42]⟩,
   ⟨tiff, letters "II" ++ octets [42, 0]⟩,
   ⟨dds, letters "DDS "⟩,
   ⟨bmp, letters "BM"⟩,
   ⟨ico, octets [0, 0, 1, 0]⟩,
   ⟨hdr, letters "#?RADIANCE"⟩,
   ⟨avif, octets [0, 0] ++ anything 2 ++ letters "ftypavif"⟩,
   ⟨openExr, octets [0x76, 0x2F, 0x31, 0x01]⟩,
   ⟨qoi, letters "qoif"⟩,
   ⟨pnm, letters "P1"⟩,
   ⟨pnm, letters "P2"⟩,
   ⟨pnm, letters "P3"⟩,
   ⟨pnm, letters "P4"⟩,
   ⟨pnm, letters "P5"⟩,
   ⟨pnm, letters "P6"⟩,
   ⟨pnm, letters "P7"⟩,
   ⟨farbfeld, letters "farbfeld"⟩]

def begins : List (Option UInt8) → List UInt8 → Bool
  | [], _ => true
  | _ :: _, [] => false
  | none :: p, _ :: l => begins p l
  | some a :: p, b :: l => a == b && begins p l

/-- The container of some data; the first signature that fits counts. -/
def detect? (data : Bytes) : Option Container :=
  let start := (data.extract 0 16).toList
  (signatures.find? fun s => begins s.bytes start).map Signature.container

/-! ## Media types and names -/

def mimeText : Container → String
  | png => "image/png"
  | jpeg => "image/jpeg"
  | gif => "image/gif"
  | webp => "image/webp"
  | pnm => "image/x-portable-anymap"
  | tiff => "image/tiff"
  | targa => "image/x-targa"
  | dds => "image/vnd-ms.dds"
  | bmp => "image/bmp"
  | ico => "image/x-icon"
  | hdr => "image/vnd.radiance"
  | openExr => "image/x-exr"
  | farbfeld => "application/octet-stream"
  | avif => "image/avif"
  | qoi => "image/x-qoi"

def mimeType (c : Container) : MimeType := ⟨c.mimeText⟩

/-- The container that a media type stands for, among the types that stand for one. -/
def ofMimeType? (m : MimeType) : Option Container :=
  match m.text with
  | "image/png" => some png
  | "image/jpeg" => some jpeg
  | "image/gif" => some gif
  | "image/webp" => some webp
  | "image/tiff" => some tiff
  | "image/x-targa" | "image/x-tga" => some targa
  | "image/vnd-ms.dds" => some dds
  | "image/bmp" => some bmp
  | "image/x-icon" | "image/vnd.microsoft.icon" => some ico
  | "image/vnd.radiance" => some hdr
  | "image/x-exr" => some openExr
  | "image/avif" => some avif
  | "image/x-qoi" => some qoi
  | "image/x-portable-anymap" | "image/x-portable-bitmap" | "image/x-portable-graymap"
  | "image/x-portable-pixmap" => some pnm
  | _ => none

def name : Container → String
  | png => "PNG"
  | jpeg => "JPEG"
  | gif => "GIF"
  | webp => "WEBP"
  | pnm => "PNM"
  | tiff => "TIFF"
  | targa => "TGA"
  | dds => "DDS"
  | bmp => "BMP"
  | ico => "ICO"
  | hdr => "HDR"
  | openExr => "OPENEXR"
  | farbfeld => "FARBFELD"
  | avif => "AVIF"
  | qoi => "QOI"

/-- A media type leads back to its container, but for the one that has no type of its own. -/
theorem ofMimeType?_mimeType (c : Container) (h : c ≠ farbfeld) :
    ofMimeType? c.mimeType = some c := by
  cases c <;> first | exact absurd rfl h | rfl

end Container

end ImageLoader
