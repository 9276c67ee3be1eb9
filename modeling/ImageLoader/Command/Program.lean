import ImageLoader.Command.Inspection
import ImageLoader.Config.DotEnv
import ImageLoader.Config.Layers
import ImageLoader.Format.Registry
import ImageLoader.Loader.Standard

/-!
# The program

One run of the program as a value: from the words of the command line, the files and the environment to what is
written and how the run ends.

* `Program.run` — how a run ends.
* `Ending.exitCode`, `Ending.output` — what the caller of the program sees of it.
-/

namespace ImageLoader

inductive Ending where
  /-- With something to write. -/
  | success (output : String)
  /-- Because the command line asks for nothing that can be done. -/
  | refused (e : UsageError)
  /-- Because something was not to be had. -/
  | failed (e : LoadError)
  /-- By a panic that nobody caught. -/
  | aborted (p : Panic)

namespace Program

def help : String :=
  "\n".intercalate ["Load an image and report its frames", "", "Usage: gly [OPTIONS] [PATH]", "",
    "Options:",
    "      --stream                Hand the file to the loader as a byte stream",
    "      --bytes                 Read the file into memory and load from the buffer",
    "      --async                 Ask for the frames by polling",
    "      --sandbox <SANDBOX>     auto, bwrap, flatpak-spawn or not-sandboxed",
    "      --accept <FORMAT>       Accepted memory format, repeatable",
    "      --scale <WIDTHxHEIGHT>  Resize every frame",
    "      --no-transformations    Do not apply the orientation",
    "      --all-frames            Decode every frame instead of only the first",
    "      --json                  Print the report as JSON",
    "      --list-types            List the registered enum and flag types and exit",
    "  -h, --help                  Print help",
    "  -V, --version               Print version", ""]

def version : String := "gly 0.1.0\n"

def extendedEnvironment (files : FileReader) (environment : List (String × String)) :
    List (String × String) :=
  match files ".env" with
  | .error _ => environment
  | .ok b =>
    match String.fromUTF8? b with
    | some text => DotEnv.extend environment text
    | none => environment

def write (a : Arguments) (r : ImageReport) : String := if a.json then r.json else r.text

def inspect (files : FileReader) (insideFlatpak : Bool) (a : Arguments) (c : Config)
    (path : String) : Ending :=
  let services : Services Unit := .standard c.loader.settings files insideFlatpak
  match (Inspection.run services a path ⟨0⟩ { state := () }).1 with
  | .ok report => .success (write a report)
  | .error (.error e) => .failed e
  | .error (.panic p) => .aborted p

def run (words : List String) (files : FileReader) (environment : List (String × String))
    (insideFlatpak : Bool) : Ending :=
  match Arguments.parse words with
  | .error .help => .success help
  | .error .version => .success version
  | .error e => .refused e
  | .ok a =>
    match Config.load files "." (extendedEnvironment files environment) with
    | .error e => .failed e
    | .ok c =>
      if a.listTypes then .success TypeInfo.report
      else
        match a.path with
        | some path => inspect files insideFlatpak a c path
        | none => .refused .missingArgument

end Program

namespace Ending

def exitCode : Ending → UInt32
  | success _ => 0
  | refused _ => 2
  | failed _ => 1
  | aborted _ => 101

def output : Ending → String
  | success text => text
  | _ => ""

def failure? : Ending → Option LoadError
  | failed e => some e
  | _ => none

end Ending

def UsageError.message : UsageError → String
  | help | version => ""
  | missingArgument => "the path of an image is missing"
  | conflict => "an option is given twice, or excludes another"
  | unknownArgument => "an argument is not known"
  | badValue => "the value of an option cannot be read"
  | missingValue => "an option lacks its value"
  | unwantedValue => "an option takes no value"

end ImageLoader
