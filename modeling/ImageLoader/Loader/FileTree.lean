import ImageLoader.Loader.Source

/-!
# Files in memory

A working directory with its files and directories, held as a value.  A path is walked part by part from the
working directory; what stops the walk is told in the words of the system.

* `FileTree.read` — the bytes of a file, or the reason why there are none.
* `FileTree.write`, `FileTree.makeDirectory` — the tree with one more entry.
-/

namespace ImageLoader

/-- A working directory.  The directories on the way to an entry are there without being listed. -/
structure FileTree where
  files : List (List String × Bytes) := []
  directories : List (List String) := []

namespace FileTree

/-! ## Why a path leads to no file -/

def missing : FileFault := ⟨"No such file or directory (os error 2)", false⟩
def notDirectory : FileFault := ⟨"Not a directory (os error 20)", false⟩
def isADirectory : FileFault := ⟨"Is a directory (os error 21)", true⟩
def nameTooLong : FileFault := ⟨"File name too long (os error 36)", false⟩
def holdsNul : FileFault := ⟨"file name contained an unexpected NUL byte", false⟩

/-! ## Paths -/

/-- The parts of a path.  A slash at the end asks for a directory, as a part `.` does. -/
def parts (path : String) : List String :=
  let named := (path.splitOn "/").filter fun p => p != ""
  if path.endsWith "/" then named ++ ["."] else named

/-- The place that a path names if every part but `.` names an entry. -/
def place (path : String) : List String := (parts path).filter fun p => p != "."

def file? (t : FileTree) (here : List String) : Option Bytes := t.files.lookup here

def isDirectory (t : FileTree) (here : List String) : Bool :=
  here.isEmpty || t.directories.any (fun d => here.isPrefixOf d) ||
    t.files.any fun f => here.isPrefixOf f.1 && here.length < f.1.length

def write (t : FileTree) (path : String) (b : Bytes) : FileTree :=
  { t with files := (place path, b) :: t.files.filter fun f => f.1 != place path }

def makeDirectory (t : FileTree) (path : String) : FileTree :=
  { t with directories := place path :: t.directories }

def walk (t : FileTree) : List String → List String → Except FileFault (List String)
  | here, [] => .ok here
  | here, p :: rest =>
    if !t.isDirectory here then
      if (t.file? here).isSome then .error notDirectory else .error missing
    else if p = "." then t.walk here rest
    else if p = ".." then if here.isEmpty then .error missing else t.walk here.dropLast rest
    else if 255 < p.utf8ByteSize then .error nameTooLong
    else t.walk (here ++ [p]) rest

/-- The place that a path leads to.  Nothing outside the working directory is known. -/
def find (t : FileTree) (path : String) : Except FileFault (List String) :=
  if path.toList.contains '\x00' then .error holdsNul
  else if path = "" then .error missing
  else if 4095 < path.utf8ByteSize then .error nameTooLong
  else if path.startsWith "/" ∧ place path ≠ [] then .error missing
  else t.walk [] (parts path)

def read (t : FileTree) : FileReader := fun path => do
  let here ← t.find path
  if t.isDirectory here then .error isADirectory
  else
    match t.file? here with
    | some b => .ok b
    | none => .error missing

end FileTree

end ImageLoader
