import ImageLoader.Config.Basic

/-!
# Summary of a configuration

The lines that are logged when the program starts, all at the lowest level.

* `Config.summary` — the lines.
-/

namespace ImageLoader

def optionText (o : Option Nat) : String :=
  match o with
  | some n => s!"Some({n})"
  | none => "None"

def DecodeLimits.summary (l : DecodeLimits) : List String :=
  let width := optionText (l.maxImageWidth.map UInt32.toNat)
  let height := optionText (l.maxImageHeight.map UInt32.toNat)
  let alloc := optionText (l.maxAllocBytes.map UInt64.toNat)
  [s!"  📐 Sandboxed decoder limits: width {width}, height {height}, alloc {alloc} bytes"]

def LoaderConfig.summary (c : LoaderConfig) : List String :=
  let formats := ", ".intercalate (c.acceptedFormats.toList.map MemoryFormat.nick)
  ["⚙️  Loader:",
    s!"  🛡️  Sandbox selector: {c.sandboxSelector.nick}",
    s!"  🎨 Accepted formats: {formats}",
    s!"  🔄 Apply transformations: {c.applyTransformations}, decode timeout {c.decodeTimeoutSeconds}s"]

def Config.summary (c : Config) : List String :=
  s!"Environment: {c.environment.name}" :: c.loader.summary ++ c.loader.limits.summary

end ImageLoader
