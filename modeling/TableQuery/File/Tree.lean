/-
The files that a program can read: a way to read them by path, and the files of a directory.
-/
import TableQuery.File.Fault
import TableQuery.File.Path
import TableQuery.Text.Utf8

namespace TableQuery

/-- Paths are names joined by single slashes; directories exist where a file lies below them. -/
structure FileTree where
  files : List (String × List UInt8)
  deriving Inhabited

namespace FileTree

def empty : FileTree := ⟨[]⟩

/-- The file at a list of names. -/
def file? (t : FileTree) (names : List String) : Option (List UInt8) :=
  t.files.lookup ("/".intercalate names)

/-- Whether a file lies somewhere below a list of names. -/
def isDirectory (t : FileTree) (names : List String) : Bool :=
  names.isEmpty || t.files.any fun f => (("/".intercalate names) ++ "/").toList.isPrefixOf f.1.toList

def maxNameBytes : Nat := 255

/-- Follows the parts of a path from a directory on. -/
def readFrom (t : FileTree) (dir : List String) : List String → Except AccessFault (List UInt8)
  | [] => .error .isDirectory
  | part :: r =>
    if Path.isVoid part then t.readFrom dir r
    else if part = ".." then
      if dir.isEmpty then .error .notFound else t.readFrom dir.dropLast r
    else if maxNameBytes < part.utf8ByteSize then .error .nameTooLong
    else
      let names := dir ++ [part]
      match t.file? names with
      | some bytes => if r.isEmpty then .ok bytes else .error .notDirectory
      | none => if t.isDirectory names then t.readFrom names r else .error .notFound

/-- Only paths inside the working directory lead to files. -/
def read (t : FileTree) (path : String) : Except AccessFault (List UInt8) :=
  if path.toList.contains '\x00' then .error .nulInName
  else if path = "" || Path.isAbsolute path then .error .notFound
  else t.readFrom [] (Path.splitText '/' path)

/-- The names in the working directory. -/
def topNames (t : FileTree) : List String :=
  (t.files.map fun f => ((Path.splitText '/' f.1).head?).getD "").eraseDups

end FileTree

/-- A way to read files by path. -/
abbrev ReadFile := String → Except AccessFault (List UInt8)

/-- The file at a path as a text. -/
def ReadFile.text (read : ReadFile) (path : String) : Except AccessFault String := do
  match Text.decode (← read path) with
  | .ok s => return s
  | .error _ => .error .invalidText

end TableQuery
