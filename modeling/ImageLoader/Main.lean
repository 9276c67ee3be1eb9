import ImageLoader.Command.Program
import ImageLoader.Loader.FileTree

/-!
# Command line

Reads the files and the environment, runs the program on them, and writes what it says.
-/

namespace ImageLoader

def faultOf (e : IO.Error) : FileFault :=
  match e with
  | .noFileOrDirectory _ _ _ => FileTree.missing
  | e => { text := toString e }

def readFile (path : String) : IO (Except FileFault Bytes) := do
  try
    return .ok (← IO.FS.readBinFile path)
  catch e => return .error (faultOf e)

def readFiles (paths : List String) : IO FileReader := do
  let contents ← paths.mapM fun path => do return (path, ← readFile path)
  return fun path => (contents.lookup path).getD (.error FileTree.missing)

def readEnvironment : IO (List (String × String)) := do
  match ← readFile "/proc/self/environ" with
  | .error _ => return []
  | .ok b =>
    let entries := ((String.fromUTF8? b).getD "").splitOn "\x00"
    return entries.filterMap fun entry =>
      match entry.toList.span (· != '=') with
      | (name, _ :: value) => some (String.ofList name, String.ofList value)
      | _ => none

def pathOf (words : List String) : List String :=
  match Arguments.parse words with
  | .ok a => a.path.toList
  | .error _ => []

end ImageLoader

open ImageLoader in
def main (words : List String) : IO UInt32 := do
  let files ← readFiles ([".env", "./gly.toml", "./gly.json"] ++ pathOf words)
  let insideFlatpak := (← readFile "/.flatpak-info").isOk
  let ending := Program.run words files (← readEnvironment) insideFlatpak
  IO.print ending.output
  match ending with
  | .refused e => IO.eprintln s!"error: {e.message}"
  | .failed e => IO.eprintln s!"Error: {e.message}"
  | _ => pure ()
  return ending.exitCode
