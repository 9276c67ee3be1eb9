import ImageLoader.Frame.Error

/-!
# Sandbox selectors

A caller selects how decoders are fenced in, or leaves the choice to the environment.  The selector
resolves to one mechanism.

* `SandboxSelector.resolve` — the mechanism behind a selector.
* `SandboxSelector.parse` — the selector that a text names.
-/

namespace ImageLoader

inductive SandboxMechanism where
  | bwrap
  | flatpakSpawn
  | notSandboxed
deriving DecidableEq, Inhabited

/-- How a caller wants decoders fenced in.  The order is that of the public numbers. -/
inductive SandboxSelector where
  | auto
  | bwrap
  | flatpakSpawn
  | notSandboxed
deriving DecidableEq, Inhabited

namespace SandboxMechanism

def all : List SandboxMechanism := [bwrap, flatpakSpawn, notSandboxed]

def nick : SandboxMechanism → String
  | bwrap => "bwrap"
  | flatpakSpawn => "flatpak-spawn"
  | notSandboxed => "not-sandboxed"

def ofNick? (s : String) : Option SandboxMechanism := all.find? fun m => m.nick == s

def isSandboxed : SandboxMechanism → Bool
  | notSandboxed => false
  | _ => true

end SandboxMechanism

namespace SandboxSelector

def all : List SandboxSelector := [auto, bwrap, flatpakSpawn, notSandboxed]

def nick : SandboxSelector → String
  | auto => "auto"
  | bwrap => "bwrap"
  | flatpakSpawn => "flatpak-spawn"
  | notSandboxed => "not-sandboxed"

def value (s : SandboxSelector) : Nat := s.ctorIdx

def ofValue (v : Int) : Except FrameError SandboxSelector :=
  match if 0 ≤ v then all[v.toNat]? else none with
  | some s => .ok s
  | none => .error (.unknownValue "SandboxSelector" (toString v))

def ofNick? (s : String) : Option SandboxSelector := all.find? fun m => m.nick == s

/-- The selector that a text names, in any ASCII case, with underscores for dashes, blanks around it. -/
def parse (s : String) : Except FrameError SandboxSelector :=
  match all.find? fun m => m.nick.toList == Text.foldName '_' '-' s.toList with
  | some m => .ok m
  | none => .error (.unknownValue "SandboxSelector" s)

/-- The mechanism behind a selector; only `auto` asks whether the process runs inside Flatpak. -/
def resolve (s : SandboxSelector) (insideFlatpak : Bool) : SandboxMechanism :=
  match s with
  | auto => if insideFlatpak then .flatpakSpawn else .bwrap
  | bwrap => .bwrap
  | flatpakSpawn => .flatpakSpawn
  | notSandboxed => .notSandboxed

end SandboxSelector

end ImageLoader
