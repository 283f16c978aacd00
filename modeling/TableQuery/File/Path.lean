/-
Paths as texts: joining, the extension of a file name, and replacing it.
-/
import TableQuery.Text.Ascii

namespace TableQuery.Path

/-- Splits a text at every separator. -/
def splitAt (sep : Char) : List Char → List (List Char)
  | [] => [[]]
  | c :: r =>
    if c = sep then [] :: splitAt sep r
    else
      match splitAt sep r with
      | [] => [[c]]
      | part :: parts => (c :: part) :: parts

def splitText (sep : Char) (s : String) : List String := (splitAt sep s.toList).map String.ofList

def isAbsolute (path : String) : Bool := path.toList.head? == some '/'

/-- An absolute path replaces the path before it. -/
def join (base path : String) : String :=
  if isAbsolute path then path
  else if base = "" || base.toList.getLast? == some '/' then base ++ path
  else base ++ "/" ++ path

/-- Empty parts and single dots name nothing. -/
def isVoid (part : String) : Bool := part = "" || part = "."

/-- The parts up to the last one that names something. -/
def namedParts (path : String) : List String :=
  ((splitText '/' path).reverse.dropWhile isVoid).reverse

/-- The last part, if it is the name of a file. -/
def fileName? (path : String) : Option String :=
  match (namedParts path).getLast? with
  | some ".." => none
  | part => part

/-- Splits a name before its last dot. A name that starts with its only dot has no extension. -/
def splitExtension (name : String) : String × Option String :=
  match (splitText '.' name).reverse with
  | ext :: r@(_ :: _) =>
    let stem := ".".intercalate r.reverse
    if stem = "" then (name, none) else (stem, some ext)
  | _ => (name, none)

def extension? (path : String) : Option String := (fileName? path).bind fun n => (splitExtension n).2

def hasExtension (path ext : String) : Bool := (extension? path).any (Text.sameLetters · ext)

/-- Gives the file name another extension; a path without a file name stays as it is. -/
def withExtension (path ext : String) : String :=
  match fileName? path with
  | none => path
  | some name =>
    "/".intercalate ((namedParts path).dropLast ++ [(splitExtension name).1 ++ "." ++ ext])

end TableQuery.Path
