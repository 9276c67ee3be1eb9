import ImageLoader.Frame.Error
import ImageLoader.Outcome

/-!
# What can go wrong while loading

The errors of loaders and images, with the one place where their wording is fixed.

* `LoadError.message` — the text of an error.
* `LoadError.unsupportedFormat?` — the name of a format that nothing can decode.
* `LoadError.ofPanic` — how a panic of a decoder is reported.
-/

namespace ImageLoader

inductive LoadError where
  | frame (e : FrameError)
  | sourceUnreadable (text : String)
  | unknownImageFormat (mimeType : Option String) (text : String)
  | decodeFailed (text : String)
  | noMoreFrames
  | canceled
  | taskError (text : String)
  | timeout (seconds : UInt64)
  | configError (text : String)
deriving DecidableEq

namespace LoadError

def message : LoadError → String
  | frame e => e.message
  | sourceUnreadable text => s!"Source unreadable: {text}"
  | unknownImageFormat _ text => s!"Unknown image format: {text}"
  | decodeFailed text => s!"Decoding failed: {text}"
  | noMoreFrames => "No more frames available"
  | canceled => "Operation was canceled"
  | taskError text => s!"Task error: {text}"
  | timeout seconds => s!"Decoding did not finish within {seconds}s"
  | configError text => s!"Configuration error: {text}"

def isCanceled : LoadError → Bool
  | canceled => true
  | _ => false

/-- The name of the format that is not supported, or the text that stands for it. -/
def unsupportedFormat? : LoadError → Option String
  | unknownImageFormat (some mime) _ => some mime
  | unknownImageFormat none text => some text
  | _ => none

/-- How a panic of a decoder with this text is reported. -/
def ofPanic (text : String) : LoadError := decodeFailed s!"decoder panicked: {text}"

end LoadError

/-- What work on images gives: a value, an error, or a panic. -/
abbrev Loaded (α : Type) := Outcome LoadError α

def Outcome.loading {α : Type} (o : Outcome FrameError α) : Loaded α := o.mapError .frame

end ImageLoader
