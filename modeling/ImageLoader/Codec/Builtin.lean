import ImageLoader.Codec.Decoder
import ImageLoader.Codec.Farbfeld
import ImageLoader.Codec.Gif.Animation
import ImageLoader.Codec.Png.Animation
import ImageLoader.Codec.Pnm
import ImageLoader.Codec.Qoi
import ImageLoader.Codec.Radiance
import ImageLoader.Codec.Tiff
import ImageLoader.Codec.WebP.File

/-!
# The codecs of this library

The containers that are read here, behind the one interface that the decoder knows.

* `Codecs.builtin` — the codecs of this library.
* `probe`, `decodeFrames` — the decoder over them.
-/

namespace ImageLoader

namespace Container

def header (c : Container) (data : Bytes) : Coded ImageHeader :=
  match c with
  | png => (Png.Preface.read data).map fun p => p.1.header
  | gif => Gif.header data
  | webp => (WebP.File.read data).map WebP.File.header
  | pnm => Pnm.header data
  | tiff => Tiff.header data
  | hdr => Radiance.header data
  | farbfeld => Farbfeld.header data
  | qoi => Qoi.header data
  | avif => .error (.unsupported "there is no decoder for this container")
  | jpeg | targa | dds | bmp | ico | openExr => .error (.damaged "the image is damaged")

/-- What the header says, within limits on the size.  Where the size comes first in the data, it is looked at
first. -/
def openWithin (c : Container) (limits : Option DecodeLimits) (data : Bytes) : Coded ImageHeader := do
  if c = png then
    let (head, _) ← Png.Head.read data
    checkSize limits head.width head.height
  let h ← c.header data
  checkSize limits h.width h.height
  return h

def pixels (c : Container) (data : Bytes) : Coded Bytes :=
  match c with
  | png => Png.stillPixels data
  | webp => (WebP.File.read data).bind WebP.File.pixels
  | pnm => Pnm.pixels data
  | tiff => Tiff.pixels data
  | hdr => Radiance.pixels data
  | qoi => Qoi.pixels data
  | _ => .error (.damaged "the image is damaged")

end Container

def ImageHeader.animated (h : ImageHeader) (pictures : List (Coded (Bytes × Duration))) : Animation where
  header := h
  cels := pictures.map fun p => p.map fun (pixels, delay) => ⟨⟨h.width, h.height, pixels⟩, delay⟩

def Picture.turned (p : Picture) (o : Orientation) (pixelSize : Nat) : Picture :=
  let (width, height) := o.size p.width p.height
  ⟨width, height, o.apply p.width.toNat p.height.toNat pixelSize p.pixels⟩

namespace Codecs

def builtin : Codecs where
  header := Container.openWithin
  still c limits data := do
    let h ← c.openWithin limits data
    return ⟨h.width, h.height, ← c.pixels data⟩
  gif limits data := do
    let h ← Container.gif.openWithin limits data
    return h.animated (Gif.pictures data (limits.bind DecodeLimits.maxAllocBytes))
  webp limits data := do
    let h ← Container.webp.openWithin limits data
    let f ← WebP.File.read data
    return if f.isAnimated then some (h.animated f.pictures) else none
  png limits data := do
    let h ← Container.png.openWithin limits data
    let (p, chunks) ← Png.Preface.read data
    return p.frameCount.map fun n => h.animated (Png.pictures p chunks n)
  turn o pixelSize p := p.turned o pixelSize

end Codecs

def probe (data : Bytes) (options : DecodeOptions) : Except LoadError ProbedImage :=
  Codecs.builtin.probe data options

def decodeFrames (data : Bytes) (m : MimeType) (options : DecodeOptions) :
    Except LoadError (List RawFrame) :=
  Codecs.builtin.decodeFrames data m options

end ImageLoader
