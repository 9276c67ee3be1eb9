import ImageLoader.Frame.Json
import ImageLoader.Sandbox.Policy

/-!
# Configuration

The settings that a user writes: how images are loaded, what is logged, and which environment the program
believes to run in.

* `Config.default` — what holds unless it is configured otherwise.
* `Config.validate` — refuses settings under which nothing could be loaded.
* `Config.toJson`, `Config.ofJson?` — the written form, and reading it.
-/

namespace ImageLoader

inductive LogFormat where
  | json
  | pretty
deriving DecidableEq, Inhabited

structure LoaderConfig where
  sandboxSelector : SandboxSelector
  acceptedFormats : FormatSet
  applyTransformations : Bool
  decodeTimeoutSeconds : UInt64
  maxTextureSize : UInt64
  limits : DecodeLimits
deriving DecidableEq, Inhabited

structure LoggingConfig where
  level : String
  format : LogFormat
  includeLocation : Bool
deriving DecidableEq, Inhabited

structure EnvironmentConfig where
  name : String
deriving DecidableEq, Inhabited

structure Config where
  loader : LoaderConfig
  logging : LoggingConfig
  environment : EnvironmentConfig
deriving DecidableEq, Inhabited

/-! ## Defaults -/

def LoaderConfig.default : LoaderConfig where
  sandboxSelector := .auto
  acceptedFormats := .all
  applyTransformations := true
  decodeTimeoutSeconds := 60
  maxTextureSize := ImageLoader.maxTextureSize
  limits := .default

def LoggingConfig.default : LoggingConfig where
  level := "info"
  format := .pretty
  includeLocation := false

def EnvironmentConfig.default : EnvironmentConfig where
  name := "development"

def Config.default : Config := ⟨.default, .default, .default⟩

def LoaderConfig.settings (c : LoaderConfig) : LoaderSettings where
  sandboxSelector := c.sandboxSelector
  acceptedFormats := c.acceptedFormats
  applyTransformations := c.applyTransformations
  decodeTimeout := .ofSeconds c.decodeTimeoutSeconds
  maxTextureSize := c.maxTextureSize
  limits := c.limits

/-! ## Validation -/

def DecodeLimits.anyZero (l : DecodeLimits) : Bool :=
  l.maxImageWidth == some 0 || l.maxImageHeight == some 0 || l.maxAllocBytes == some 0

/-- Refuses settings under which nothing could be loaded; the first fault counts. -/
def Config.validate (c : Config) : Except LoadError Unit :=
  if c.loader.decodeTimeoutSeconds = 0 then
    .error (.configError "decode_timeout_secs must be greater than 0")
  else if c.loader.maxTextureSize = 0 then
    .error (.configError "max_texture_size must be greater than 0")
  else if c.loader.acceptedFormats.isEmpty then
    .error (.configError "accepted_memory_formats cannot be empty")
  else if c.loader.limits.anyZero then
    .error (.configError "Decoder limits must be greater than 0 when set")
  else if (Text.trim c.logging.level.toList).isEmpty then
    .error (.configError "logging level cannot be empty")
  else .ok ()

/-! ## Written form -/

namespace LogFormat

def nick : LogFormat → String
  | json => "json"
  | pretty => "pretty"

def ofNick? (s : String) : Option LogFormat := [json, pretty].find? fun f => f.nick == s

def toJson (f : LogFormat) : Json := .string f.nick

def ofJson? (j : Json) : Option LogFormat := j.asWord?.bind ofNick?

end LogFormat

namespace DecodeLimits

def toJson (l : DecodeLimits) : Json :=
  .object [("max_image_width", .option (fun n => .nat n.toNat) l.maxImageWidth),
    ("max_image_height", .option (fun n => .nat n.toNat) l.maxImageHeight),
    ("max_alloc_bytes", .option (fun n => .nat n.toNat) l.maxAllocBytes)]

def ofJson? (j : Json) : Option DecodeLimits := do
  match ← j.fields? ["max_image_width", "max_image_height", "max_alloc_bytes"] with
  | [width, height, alloc] =>
    return ⟨← Json.optional Json.asUInt32? width, ← Json.optional Json.asUInt32? height,
      ← Json.optional Json.asUInt64? alloc⟩
  | _ => none

end DecodeLimits

namespace LoaderConfig

def toJson (c : LoaderConfig) : Json :=
  .object [("sandbox_selector", c.sandboxSelector.toJson),
    ("accepted_memory_formats", c.acceptedFormats.toJson),
    ("apply_transformations", .bool c.applyTransformations),
    ("decode_timeout_secs", .nat c.decodeTimeoutSeconds.toNat),
    ("max_texture_size", .nat c.maxTextureSize.toNat),
    ("limits", c.limits.toJson)]

def ofJson? (j : Json) : Option LoaderConfig := do
  match ← j.fields? ["sandbox_selector", "accepted_memory_formats", "apply_transformations",
      "decode_timeout_secs", "max_texture_size", "limits"] with
  | [selector, accepted, applied, timeout, texture, limits] =>
    return ⟨← Json.required SandboxSelector.ofJson? selector,
      ← Json.required FormatSet.ofJson? accepted, ← Json.required Json.asBool? applied,
      ← Json.required Json.asUInt64? timeout, ← Json.required Json.asUInt64? texture,
      ← Json.required DecodeLimits.ofJson? limits⟩
  | _ => none

end LoaderConfig

namespace LoggingConfig

def toJson (c : LoggingConfig) : Json :=
  .object [("level", .string c.level), ("format", c.format.toJson),
    ("include_location", .bool c.includeLocation)]

def ofJson? (j : Json) : Option LoggingConfig := do
  match ← j.fields? ["level", "format", "include_location"] with
  | [level, format, location] =>
    return ⟨← Json.required Json.asString? level, ← Json.required LogFormat.ofJson? format,
      ← Json.required Json.asBool? location⟩
  | _ => none

end LoggingConfig

namespace EnvironmentConfig

def toJson (c : EnvironmentConfig) : Json := .object [("env", .string c.name)]

def ofJson? (j : Json) : Option EnvironmentConfig := do
  match ← j.fields? ["env"] with
  | [name] => return ⟨← Json.required Json.asString? name⟩
  | _ => none

end EnvironmentConfig

namespace Config

def toJson (c : Config) : Json :=
  .object [("loader", c.loader.toJson), ("logging", c.logging.toJson),
    ("environment", c.environment.toJson)]

def ofJson? (j : Json) : Option Config := do
  match ← j.fields? ["loader", "logging", "environment"] with
  | [loader, logging, environment] =>
    return ⟨← Json.required LoaderConfig.ofJson? loader,
      ← Json.required LoggingConfig.ofJson? logging,
      ← Json.required EnvironmentConfig.ofJson? environment⟩
  | _ => none

end Config

end ImageLoader
