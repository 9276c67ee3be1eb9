import ImageLoader.Error
import ImageLoader.Format.Selection
import ImageLoader.Frame.Raw
import ImageLoader.Sandbox.Selector

/-!
# Decoding policies

What a mechanism means for a decoder: which limits it works under, and whether its panics are caught.

* `DecodePolicy.of` — the policy of a mechanism.
* `DecodePolicy.run` — the outcome of work done under a policy.
-/

namespace ImageLoader

/-- Bounds on what a decoder may take on; what is absent is not bounded. -/
structure DecodeLimits where
  maxImageWidth : Option UInt32
  maxImageHeight : Option UInt32
  maxAllocBytes : Option UInt64
deriving DecidableEq, Inhabited

def DecodeLimits.default : DecodeLimits := ⟨some 65535, some 65535, some 2147483648⟩

structure LoaderSettings where
  sandboxSelector : SandboxSelector
  acceptedFormats : FormatSet
  applyTransformations : Bool
  decodeTimeout : Duration
  maxTextureSize : UInt64
  limits : DecodeLimits
deriving DecidableEq, Inhabited

structure DecodePolicy where
  mechanism : SandboxMechanism
  limits : Option DecodeLimits
  isolatePanics : Bool
deriving DecidableEq, Inhabited

structure DecodeOptions where
  policy : DecodePolicy
  applyTransformations : Bool
deriving DecidableEq, Inhabited

namespace DecodePolicy

/-- The policy of a mechanism: a sandbox brings limits and catches panics. -/
def of (mechanism : SandboxMechanism) (settings : LoaderSettings) : DecodePolicy :=
  if mechanism.isSandboxed then ⟨mechanism, some settings.limits, true⟩
  else ⟨mechanism, none, false⟩

def resolve (selector : SandboxSelector) (insideFlatpak : Bool) (settings : LoaderSettings) :
    DecodePolicy :=
  of (selector.resolve insideFlatpak) settings

/-- The outcome of work done under a policy: where panics are isolated, one becomes an error. -/
def run {α : Type} (policy : DecodePolicy) (job : Loaded α) : Loaded α :=
  match job with
  | .error (.panic p) =>
    if policy.isolatePanics then .error (.error (.ofPanic p.message)) else .error (.panic p)
  | other => other

end DecodePolicy

end ImageLoader
