import ImageLoader.Command.Arguments
import ImageLoader.Command.Report
import ImageLoader.Loader.Load

/-!
# Inspecting an image

Loads the image that a command line names and reports its first frame, or all of them.  The frames are asked for
one after another, on the spot or by polling, until the image has no more.

* `Inspection.record` — what is done with the outcome of a call.
* `Inspection.collect` — the reports on the frames, by either way of asking.
* `Inspection.run` — the report on the image.
-/

namespace ImageLoader.Inspection

variable {σ : Type}

/-- The source that a path names, fed as asked for.  A file that is fed as a stream or as bytes is opened
here. -/
def source (files : FileReader) (feed : Feed) (path : String) : Except LoadError Source :=
  let refused (fault : FileFault) : LoadError := .sourceUnreadable s!"{path}: {fault.text}"
  match feed, files path with
  | .path, _ => .ok (.file path)
  | .stream, .ok b => .ok (.stream [.data b])
  | .stream, .error fault =>
    if fault.wasOpened then .ok (.stream [.failed fault.text]) else .error (refused fault)
  | .bytes, .ok b => .ok (.bytes b)
  | .bytes, .error fault => .error (refused fault)

def configure (a : Arguments) (l : Loader) : Loader :=
  { l with
    selector := a.sandbox.getD l.selector
    accepted := if a.accept.isEmpty then l.accepted else .ofList a.accept
    applyTransformations := l.applyTransformations && !a.noTransformations }

/-! ## Frames -/

abbrev Ask (σ : Type) := Image → World σ → Loaded Frame × Image × World σ

/-- How many frames an image has left, as far as it was decoded. -/
def remaining (img : Image) : Nat :=
  match img.queue with
  | .decoded frames => frames.length
  | _ => 0

/-- Adds the outcome of a call to the reports that were made before.  The flag is lowered once the image has no
frames left, of which there must have been one. -/
def record (done : List FrameReport) : Loaded Frame → Loaded (List FrameReport × Bool)
  | .ok f => .ok (done ++ [.of done.length f], true)
  | .error (.error .noMoreFrames) =>
    if done.isEmpty then .error (.error .noMoreFrames) else .ok (done, false)
  | .error stop => .error stop

/-- The reports on the frames from here on, behind those that were made before.  An image that has a frame less
after each call needs one call more than it has frames. -/
def collectRest (ask : Ask σ) : Nat → List FrameReport → Image → World σ →
    Loaded (List FrameReport) × Image × World σ
  | 0, done, img, w => (.ok done, img, w)
  | n + 1, done, img, w =>
    let (o, img, w) := ask img w
    match record done o with
    | .error stop => (.error stop, img, w)
    | .ok (done, more) => if more then collectRest ask n done img w else (.ok done, img, w)

def collect (ask : Ask σ) (allFrames : Bool) (img : Image) (w : World σ) :
    Loaded (List FrameReport) × Image × World σ :=
  let (o, img, w) := ask img w
  match record [] o with
  | .error stop => (.error stop, img, w)
  | .ok (done, more) =>
    if more && allFrames then collectRest ask (remaining img + 1) done img w else (.ok done, img, w)

/-! ## Images -/

def report (path : String) (img : Image) (frames : List FrameReport) : ImageReport where
  source := path
  mimeType := img.mimeType
  info := img.info
  mechanism := img.mechanism
  frames := frames

def finish (path : String) (allFrames : Bool) (ask : Ask σ) (loaded : Loaded Image × World σ) :
    Loaded ImageReport × World σ :=
  match loaded with
  | (.error stop, w) => (.error stop, w)
  | (.ok img, w) =>
    let (r, img, w) := collect ask allFrames img w
    (r.map (report path img), w)

/-- What becomes of a panic in work that runs beside the caller. -/
def contain {α : Type} : Loaded α → Loaded α
  | .error (.panic p) => .error (.error (.taskError p.message))
  | r => r

/-- The report on the image of a loader, by the way of asking that the arguments name.  Work on the spot is not
waited for under a token that was raised before. -/
def runLoader (S : Services σ) (a : Arguments) (path : String) (t : Token) (l : Loader)
    (w : World σ) : Loaded ImageReport × World σ :=
  if a.asynchronous then
    finish path a.allFrames (fun img => img.awaitNext S a.request (some t)) (l.awaitLoad S (some t) w)
  else if w.tokens.isCanceled t then (.error (.error .canceled), w)
  else
    let (r, w) := finish path a.allFrames (fun img => img.nextFrame S a.request) (l.load S w)
    (contain r, w)

def run (S : Services σ) (a : Arguments) (path : String) (t : Token) (w : World σ) :
    Loaded ImageReport × World σ :=
  match source S.files a.feed path with
  | .error e => (.error (.error e), w)
  | .ok source => runLoader S a path t (configure a (Loader.ofSource S.settings source)) w

end ImageLoader.Inspection
