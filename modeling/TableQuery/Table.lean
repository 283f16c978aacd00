/-
Tables: a list of field names and rows of as many values. Operations that could break the shape
check it and fail without an effect.
-/
import TableQuery.Value

namespace TableQuery

abbrev Row := List Value

structure Table where
  fields : List String
  rows : List Row
  deriving DecidableEq, Inhabited

/-- One end of a range of row numbers, which are words of 64 bits. -/
inductive Bound where
  | unbounded
  | included (n : UInt64)
  | excluded (n : UInt64)
  deriving DecidableEq, Repr

/-- The number of the next row; the greatest number stays. -/
def Bound.next (n : UInt64) : UInt64 := if n.toNat + 1 < UInt64.size then n + 1 else n

namespace Table

/-- Every row has one value for each field. -/
def WellFormed (t : Table) : Prop := ∀ r ∈ t.rows, r.length = t.fields.length

instance (t : Table) : Decidable t.WellFormed := inferInstanceAs (Decidable (∀ r ∈ t.rows, _))

def empty (fields : List String) : Table := ⟨fields, []⟩

/-- Fails at the first row of another length. -/
def checkRows (width : Nat) (rows : List Row) : Except Error Unit :=
  match rows.find? (·.length != width) with
  | some bad => .error (.shapeMismatch width bad.length)
  | none => .ok ()

def ofRows (fields : List String) (rows : List Row) : Except Error Table := do
  checkRows fields.length rows
  return ⟨fields, rows⟩

/-! ## Size and access -/

def width (t : Table) : Nat := t.fields.length

def size (t : Table) : Nat := t.rows.length

def isEmpty (t : Table) : Bool := t.rows.isEmpty

/-- The first field of exactly this name, else the first one of this name in another case. -/
def columnIndex? (t : Table) (name : String) : Option Nat :=
  (t.fields.findIdx? (· == name)).or (t.fields.findIdx? (Text.sameLetters · name))

def column (t : Table) (i : Nat) : List Value := t.rows.map (·.getD i .null)

def fieldAt (t : Table) (i : Nat) : String := t.fields.getD i ""

/-! ## Changes -/

def append (t : Table) (row : Row) : Except Error Table :=
  if row.length = t.width then .ok { t with rows := t.rows ++ [row] }
  else .error (.shapeMismatch t.width row.length)

/-- The rows have to match the new fields. -/
def setFields (t : Table) (fields : List String) : Except Error Table := ofRows fields t.rows

def setRows (t : Table) (rows : List Row) : Except Error Table := ofRows t.fields rows

/-- As many names as fields. -/
def renameFields (t : Table) (names : List String) : Except Error Table :=
  if names.length = t.width then .ok { t with fields := names }
  else .error (.shapeMismatch t.width names.length)

def truncate (t : Table) (n : Nat) : Table := { t with rows := t.rows.take n }

/-! ## Parts and combinations -/

/-- The first row of a range and the row behind its last one; ends beyond the table are moved to its
end. -/
def rowRange (t : Table) (start stop : Bound) : Nat × Nat :=
  let first := match start with
    | .unbounded => 0
    | .included n => n.toNat
    | .excluded n => (Bound.next n).toNat
  let last := match stop with
    | .unbounded => t.size
    | .included n => (Bound.next n).toNat
    | .excluded n => n.toNat
  let last := min last t.size
  (min first last, last)

/-- The rows in a range. -/
def sliceRows (t : Table) (start stop : Bound) : Table :=
  let range := t.rowRange start stop
  { t with rows := (t.rows.take range.2).drop range.1 }

/-- The columns from `start` up to but not including `stop`. -/
def sliceColumns (t : Table) (start stop : Nat) : Table :=
  ⟨(t.fields.take stop).drop start, t.rows.map fun r => (r.take stop).drop start⟩

/-- The columns at the given places, in that order. -/
def select (t : Table) (columns : List Nat) : Table :=
  ⟨columns.map t.fieldAt, t.rows.map fun r => columns.map fun i => r.getD i .null⟩

/-- Puts two tables of as many rows side by side. -/
def chain (t u : Table) : Except Error Table :=
  if t.size = u.size then .ok ⟨t.fields ++ u.fields, t.rows.zipWith (· ++ ·) u.rows⟩
  else .error (.rowCountMismatch t.size u.size)

end Table

end TableQuery
