import ImageLoader.Format.Name
import ImageLoader.Frame.Request

/-!
# What can be wrong with a frame

The causes for which frames, formats and requests are refused, and the one place where their wording is
fixed.

* `FrameError.message` — the text of an error.
-/

namespace ImageLoader

inductive ConversionFault where
  | pixelTooShort (channel : Nat)
  | targetTooShort (channel : Nat)
  | sourceEnds (row : Nat)
  | cannotResample (width height : UInt32) (format : MemoryFormat)
  | note (text : String)
deriving DecidableEq

inductive ClipFault where
  | outside (region : ClipRegion) (width height : UInt32)
  | rowOutside (row : Nat)
  | note (text : String)
deriving DecidableEq

inductive ScaleFault where
  | empty (width height : UInt32)
  | note (text : String)
deriving DecidableEq

inductive FrameError where
  | emptySize (frame : String)
  | strideTooSmall (frame : String)
  | textureTooSmall (size : Nat) (frame : String)
  | textureTooLarge (limit : Nat)
  | dimensionTooLarge
  | invalidClip (fault : ClipFault)
  | invalidScale (fault : ScaleFault)
  | noAcceptedFormat (native : MemoryFormat)
  | conversion (fault : ConversionFault)
  | unknownValue (typeName value : String)
deriving DecidableEq

def ConversionFault.message : ConversionFault → String
  | pixelTooShort n => s!"pixel too short for channel {n}"
  | targetTooShort n => s!"target too short for channel {n}"
  | sourceEnds y => s!"source buffer ends before row {y}"
  | cannotResample w h f => s!"cannot resample {w}x{h} {f.nick} frame"
  | note text => text

def ClipFault.message : ClipFault → String
  | outside r w h => s!"{r.display} outside of {w}x{h}"
  | rowOutside row => s!"row {row} outside buffer"
  | note text => text

def ScaleFault.message : ScaleFault → String
  | empty w h => s!"{w}x{h}"
  | note text => text

def FrameError.message : FrameError → String
  | emptySize frame => s!"Width or height is zero: {frame}"
  | strideTooSmall frame => s!"Stride is smaller than possible: {frame}"
  | textureTooSmall n frame => s!"Texture is only {n} bytes but was announced differently: {frame}"
  | textureTooLarge limit => s!"Texture size exceeds limit of {limit} bytes"
  | dimensionTooLarge => "Dimension too large for this system"
  | invalidClip fault => s!"Invalid clip region: {fault.message}"
  | invalidScale fault => s!"Invalid scale: {fault.message}"
  | noAcceptedFormat f => s!"No accepted memory format to convert {f.camelName} into"
  | conversion fault => s!"Memory format conversion failed: {fault.message}"
  | unknownValue typeName value => s!"Unknown value {value} for {typeName}"

/-! ## Sizes to scale to -/

/-- The size that a frame of the given size has to be scaled to, if it has another one. -/
def FrameRequest.scaleFor (r : FrameRequest) (width height : UInt32) :
    Except FrameError (Option (UInt32 × UInt32)) :=
  match r.scale with
  | none => .ok none
  | some (w, h) =>
    if w = 0 ∨ h = 0 then .error (.invalidScale (.empty w h))
    else if w = width ∧ h = height then .ok none
    else .ok (some (w, h))

/-! ## Formats by number and name -/

namespace MemoryFormat

def ofValue (v : Int) : Except FrameError MemoryFormat :=
  match if 0 ≤ v then all[v.toNat]? else none with
  | some f => .ok f
  | none => .error (.unknownValue "MemoryFormat" (toString v))

def parse (s : String) : Except FrameError MemoryFormat :=
  match ofName? s with
  | some f => .ok f
  | none => .error (.unknownValue "MemoryFormat" s)

end MemoryFormat

end ImageLoader
