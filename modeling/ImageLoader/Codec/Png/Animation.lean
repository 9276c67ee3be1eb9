import ImageLoader.Codec.Canvas
import ImageLoader.Codec.Png.Pixels

/-!
# Animated files

An animated PNG file draws its pictures onto one canvas.  Before a picture is drawn, the region of the one before
it is kept, cleared or restored.  Chunks that control and carry pictures are numbered throughout.

* `pictures` — the canvas after each picture, with its delay, up to the first fault.
-/

namespace ImageLoader.Png

/-- What is on the canvas, what was before, and what becomes of the last picture. -/
structure Stage where
  current : Canvas
  previous : Canvas
  disposal : Disposal := .clear
  region : Region

namespace Stage

def start (h : Head) : Stage :=
  let blank := Canvas.blank h.width.toNat h.height.toNat
  { current := blank, previous := blank, region := ⟨0, 0, h.width.toNat, h.height.toNat⟩ }

def dispose (s : Stage) : Stage :=
  match s.disposal with
  | .keep => { s with previous := s.current }
  | .clear => { s with previous := s.current, current := s.current.clear s.region }
  | .restore => { s with current := s.current.restore s.region s.previous }

def draw (s : Stage) (c : FrameControl) (picture : Canvas) : Stage :=
  { s with
    current := s.current.drawOver c.x c.y picture
      (if c.blends then Canvas.blendPixel else Canvas.cover)
    disposal := c.disposal
    region := ⟨c.x, c.y, c.width, c.height⟩ }

end Stage

/-- The four bytes of colour and alpha of a pixel in one of the small formats. -/
def toRgba : List UInt8 → List UInt8
  | [g] => [g, g, g, 255]
  | [g, a] => [g, g, g, a]
  | [r, g, b] => [r, g, b, 255]
  | l => l

def picture (p : Preface) (c : FrameControl) (stream : Bytes) : Coded Canvas := do
  if p.head.depth = 16 then throw (.unsupported "animations with 16 bits a channel")
  let b ← p.pixels c.width c.height stream
  let n := p.format.nBytes
  return Canvas.ofPixels c.width c.height fun x y =>
    let start := (y * c.width + x) * n
    toRgba (b.extract start (start + n)).toList

def Stage.present (s : Stage) (p : Preface) (c : FrameControl) (stream : Bytes) : Coded Stage := do
  return s.dispose.draw c (← picture p c stream)

/-- The stream in the chunks at the front that carry a picture, the number of the next chunk, and what follows. -/
def joinNumbered : List Chunk → Nat → Bytes → Coded (Bytes × Nat × List Chunk)
  | [], _, _ => .error (.damaged "the file ends early")
  | c :: rest, sequence, done =>
    if c.name = "fdAT" then do
      c.check
      if c.body.bigEndian? 0 4 ≠ some sequence then throw (.damaged "a chunk is out of order")
      joinNumbered rest (sequence + 1) (done ++ c.body.drop 4)
    else .ok (done, sequence, c :: rest)

/-- The next frame control, and the chunks behind it. -/
def nextControl (p : Preface) (sequence : Nat) : List Chunk → Coded (FrameControl × List Chunk)
  | [] => .error (.damaged "the file ends early")
  | c :: rest => do
    c.check
    match c.name with
    | "fcTL" =>
      let control ← Coded.ofOption "a frame control is damaged" (FrameControl.ofBody? p.head c.body)
      if control.sequence ≠ sequence then throw (.damaged "a chunk is out of order")
      return (control, rest)
    | "IDAT" | "fdAT" => throw (.damaged "a picture has no frame control")
    | "IEND" => throw (.damaged "there are too few pictures")
    | _ => nextControl p sequence rest

def nextPicture (p : Preface) (s : Stage) (sequence : Nat) (chunks : List Chunk) :
    Coded (Stage × Duration × Nat × List Chunk) := do
  let (control, rest) ← nextControl p sequence chunks
  let (stream, sequence, rest) ← joinNumbered rest (sequence + 1) ByteArray.empty
  return (← s.present p control stream, control.delay, sequence, rest)

/-- The canvas after each of the next `n` pictures, up to the first fault. -/
def picturesFrom (p : Preface) : Nat → Stage → Nat → List Chunk → List (Coded (Bytes × Duration))
  | 0, _, _, _ => []
  | n + 1, s, sequence, chunks =>
    match nextPicture p s sequence chunks with
    | .error e => [.error e]
    | .ok (s, delay, sequence, rest) =>
      .ok (s.current.pixels, delay) :: picturesFrom p n s sequence rest

/-- The first picture cannot be restored to anything. -/
def FrameControl.first (c : FrameControl) : FrameControl :=
  { c with disposal := if c.disposal = .restore then .clear else c.disposal }

/-- What the image data gives to an animation: its first picture, or nothing if the image stands for itself. -/
def firstPicture (p : Preface) (stream : Bytes) : Coded (Stage × Option Duration) := do
  match p.control with
  | some control => return (← (Stage.start p.head).present p control.first stream, some control.delay)
  | none =>
    let _ ← p.pixels p.head.width.toNat p.head.height.toNat stream
    return (Stage.start p.head, none)

/-- The canvas after each of `n` pictures, with its delay, up to the first fault. -/
def pictures (p : Preface) (chunks : List Chunk) (n : Nat) : List (Coded (Bytes × Duration)) :=
  let first := do
    let (stream, rest) ← joinFront "IDAT" chunks
    return (← firstPicture p stream, rest)
  match n, first with
  | 0, _ => []
  | _, .error e => [.error e]
  | n + 1, .ok ((s, some delay), rest) => .ok (s.current.pixels, delay) :: picturesFrom p n s 1 rest
  | n + 1, .ok ((s, none), rest) => picturesFrom p (n + 1) s 0 rest

end ImageLoader.Png
