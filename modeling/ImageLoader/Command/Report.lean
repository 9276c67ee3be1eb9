import ImageLoader.Frame.Json
import ImageLoader.Frame.Sealed
import ImageLoader.Json.Writer
import ImageLoader.Loader.Info

/-!
# Reports

What the command line says about an image: the type, what the header says, the mechanism that it was decoded
under, and the geometry of its frames.  A report is written as text, a line for the image and a line for each
frame, or as JSON.

* `ImageReport.text`, `ImageReport.json` — the two written forms.
-/

namespace ImageLoader

structure FrameReport where
  index : Nat
  width : UInt32
  height : UInt32
  stride : UInt32
  format : MemoryFormat
  /-- The delay in milliseconds, unless it exceeds a word. -/
  delay : Option Nat
  details : FrameDetails
deriving DecidableEq

structure ImageReport where
  source : String
  mimeType : MimeType
  info : ImageInfo
  mechanism : SandboxMechanism
  frames : List FrameReport
deriving DecidableEq

namespace FrameReport

def of (index : Nat) (f : Frame) : FrameReport where
  index := index
  width := f.width
  height := f.height
  stride := f.stride
  format := f.format
  delay := (f.delay.map Duration.milliseconds).filter (· < UInt64.size)
  details := f.details

def line (r : FrameReport) : String :=
  let delay := match r.delay with
    | some n => s!", delay {n} ms"
    | none => ""
  s!"  frame {r.index}: {r.width}x{r.height} stride {r.stride} {r.format.nick}{delay}\n"

def toJson (r : FrameReport) : Json :=
  .object [("index", .nat r.index), ("width", .nat r.width.toNat), ("height", .nat r.height.toNat),
    ("stride", .nat r.stride.toNat), ("memory_format", r.format.toJson),
    ("delay_ms", .option .nat r.delay), ("details", r.details.toJson)]

end FrameReport

namespace ImageReport

def headLine (r : ImageReport) : String :=
  let name := r.info.formatName.getD "unknown"
  s!"{r.source}: {r.mimeType.text} ({name}) {r.info.width}x{r.info.height}, sandbox {r.mechanism.nick}\n"

def text (r : ImageReport) : String :=
  r.headLine ++ (if r.info.transformationsApplied then "  orientation applied\n" else "") ++
    String.join (r.frames.map FrameReport.line)

def toJson (r : ImageReport) : Json :=
  .object [("source", .string r.source), ("mime_type", r.mimeType.toJson), ("info", r.info.toJson),
    ("sandbox_mechanism", r.mechanism.toJson), ("frames", .array (r.frames.map FrameReport.toJson))]

def json (r : ImageReport) : String := r.toJson.pretty ++ "\n"

end ImageReport

end ImageLoader
