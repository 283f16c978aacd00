/-
Partition of the rows of a table by key columns.
-/
import TableQuery.Table

namespace TableQuery.Group

/-- The key of a row whose first `split` values are not part of it. -/
def keyOf (split : Nat) (row : Row) : List Value := (row.drop split).map Value.groupKey

/-- What is known of the rows read so far: the place of each key among the buckets, and the rows in
each bucket. -/
structure Buckets where
  index : List (List Value × Nat)
  rows : List (List Row)

namespace Buckets

def empty : Buckets := ⟨[], []⟩

/-- The place of the bucket of a key; a new key gets an empty bucket behind the others. -/
def place (b : Buckets) (key : List Value) : Nat × Buckets :=
  match b.index.lookup key with
  | some slot => (slot, b)
  | none => (b.rows.length, ⟨(key, b.rows.length) :: b.index, b.rows ++ [[]]⟩)

/-- Puts a row behind the others of its key. -/
def add (b : Buckets) (key : List Value) (row : Row) : Buckets :=
  let (slot, b) := b.place key
  { b with rows := b.rows.modify slot (· ++ [row]) }

/-- Reads rows with their keys, one after the other. -/
def ofKeyed (keyed : List (List Value × Row)) : Buckets := keyed.foldl (fun b r => b.add r.1 r.2) empty

end Buckets

/-- One table for each key that the last `n` columns hold, in the order of first occurrence and
without those columns. Without key columns all rows form one group. -/
def partition (t : Table) (n : Nat) : Except Error (List Table) :=
  if n = 0 then .ok [t]
  else if t.width < n then .error (.shapeMismatch n t.width)
  else
    let split := t.width - n
    let buckets := Buckets.ofKeyed (t.rows.map fun r => (keyOf split r, r.take split))
    buckets.rows.mapM (Table.ofRows (t.fields.take split))

end TableQuery.Group
