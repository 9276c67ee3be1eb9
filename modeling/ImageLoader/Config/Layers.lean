import ImageLoader.Config.Basic
import ImageLoader.Config.Variable
import ImageLoader.Loader.Source
import ImageLoader.Toml.Document

/-!
# Loading the configuration

The configuration is made of layers: the defaults, the file `gly.toml`, the file `gly.json`, and environment
variables.  A later layer is laid over the earlier ones, table by table; a file that is not there is no layer.

* `Config.load` — the configuration out of all layers, once it is found valid.
* `Config.patched?` — the defaults with one layer over them, unchecked.
-/

namespace ImageLoader.Config

def unloadable : LoadError := .configError "Failed to load configuration"

def patched? (patch : Json) : Option Config := ofJson? (default.toJson.merge patch)

/-- The text of a file, read by `parse?`; nothing if there is no file. -/
def layer? (read : FileReader) (parse? : List Char → Option Json) (path : String) :
    Except LoadError Json :=
  match read path with
  | .error _ => .ok (.object [])
  | .ok b =>
    match (String.fromUTF8? b).bind fun s => parse? s.toList with
    | some (.object members) => .ok (.object members)
    | _ => .error unloadable

/-- A JSON text that settings may be written in: whole, and not nested too deep. -/
def parseJson? (s : List Char) : Option Json :=
  ((Json.parse? s).filter (Json.isSound 127)).map Json.settled

def within (directory name : String) : String :=
  if directory = "" then name
  else if directory.endsWith "/" then directory ++ name
  else s!"{directory}/{name}"

def load (read : FileReader) (directory : String) (environment : List (String × String)) :
    Except LoadError Config := do
  let toml ← layer? read Toml.parse? (within directory "gly.toml")
  let json ← layer? read parseJson? (within directory "gly.json")
  match ofJson? (((default.toJson.merge toml).merge json).merge (Variable.layer environment)) with
  | none => .error unloadable
  | some c =>
    c.validate
    return c

end ImageLoader.Config
