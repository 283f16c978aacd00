/-
Tables by name, and the resolution of labels: a stored table, or a file of comma-separated
values.
-/
import TableQuery.Csv
import TableQuery.File.Tree
import TableQuery.Query.Execute

namespace TableQuery

/-- Names are distinct; they are found as they are written, else in another letter case. -/
structure Catalog where
  tables : List (String × Table) := []
  baseDir : Option String := none
  deriving DecidableEq, Inhabited

namespace Catalog

def entry? (c : Catalog) (name : String) : Option (String × Table) :=
  (c.tables.find? (·.1 == name)).or (c.tables.find? (Text.sameLetters ·.1 name))

def get? (c : Catalog) (name : String) : Option Table := (c.entry? name).map (·.2)

def contains (c : Catalog) (name : String) : Bool := (c.get? name).isSome

/-- Stores a table under exactly this name. -/
def insert (c : Catalog) (name : String) (t : Table) : Catalog :=
  { c with tables := c.tables.filter (·.1 != name) ++ [(name, t)] }

/-- Removes the table that the name finds. -/
def erase (c : Catalog) (name : String) : Catalog :=
  match c.entry? name with
  | some (key, _) => { c with tables := c.tables.filter (·.1 != key) }
  | none => c

/-- The stored names in order. -/
def names (c : Catalog) : List String := (c.tables.map (·.1)).mergeSort fun a b => a ≤ b

/-- The numbers of rows and columns. -/
def info? (c : Catalog) (name : String) : Option (Nat × Nat) :=
  (c.get? name).map fun t => (t.size, t.width)

/-! ## Labels -/

/-- The file that a label stands for: a path with the extension `csv`, from the base directory if
there is one; or, below a base directory, names joined by dots. -/
def csvPath? (c : Catalog) (label : String) : Option String :=
  match c.baseDir, Path.hasExtension label "csv" with
  | some base, true => some (Path.join base label)
  | none, true => some label
  | some base, false =>
    if label.toList.contains '.' then
      some (Path.withExtension ((Path.splitText '.' label).foldl Path.join base) "csv")
    else none
  | none, false => none

/-- The table in the file at a path. -/
def readCsv (read : ReadFile) (path : String) : Except Error Table :=
  match read path with
  | .error fault => .error (.source (.file path (.access fault)))
  | .ok bytes =>
    match Csv.tableOfBytes bytes with
    | .error fault => .error (.source (.file path fault))
    | .ok t => .ok t

def resolve (c : Catalog) (read : ReadFile) (label : String) : Except Error Table :=
  match c.get? label with
  | some t => .ok t
  | none =>
    match c.csvPath? label with
    | some path => readCsv read path
    | none => .error (.source (.tableNotFound label))

/-- Of a resolved table, the columns asked for. -/
def fetch (c : Catalog) (read : ReadFile) : Fetcher := fun r => do
  (← c.resolve read r.label).project r.tokens

end Catalog

end TableQuery
