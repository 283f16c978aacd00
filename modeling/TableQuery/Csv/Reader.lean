/-
Records of comma-separated values. Fields may stand in quotes, a quote inside is written twice,
and records end at a line feed or a carriage return; lines without a byte are passed over.
-/
import TableQuery.File.Fault

namespace TableQuery.Csv

def comma : UInt8 := 44
def quote : UInt8 := 34
def lineFeed : UInt8 := 10
def carriageReturn : UInt8 := 13

def isLineEnd (b : UInt8) : Bool := b == lineFeed || b == carriageReturn

/-- Where a field is being read. -/
inductive Mode where
  /-- Before its first byte. -/
  | start
  /-- Outside quotes. -/
  | plain
  | quoted
  /-- Behind a quote that ends the quoted part or is the first of two. -/
  | closing
  deriving DecidableEq, Repr

/-- What one byte does to the field that is being read. -/
inductive Step where
  | keep (mode : Mode)
  | skip (mode : Mode)
  | endField
  | endRecord
  deriving DecidableEq, Repr

def stepPlain (b : UInt8) : Step :=
  if b = comma then .endField else if isLineEnd b then .endRecord else .keep .plain

def step : Mode → UInt8 → Step
  | .start, b => if b = quote then .skip .quoted else stepPlain b
  | .plain, b => stepPlain b
  | .quoted, b => if b = quote then .skip .closing else .keep .quoted
  | .closing, b => if b = quote then .keep .quoted else stepPlain b

abbrev Field := List UInt8

/-- Reads to the end of a record or of the bytes: the fields after `field`, of which a part is
read, and the rest behind the line end. -/
def fieldsFrom (mode : Mode) (field : Field) : List UInt8 → List Field × List UInt8
  | [] => ([field.reverse], [])
  | b :: r =>
    match step mode b with
    | .keep mode => fieldsFrom mode (b :: field) r
    | .skip mode => fieldsFrom mode field r
    | .endField =>
      let (fields, rest) := fieldsFrom .start [] r
      (field.reverse :: fields, rest)
    | .endRecord => ([field.reverse], r)

theorem fieldsFrom_rest_length (mode : Mode) (field : Field) (bytes : List UInt8) :
    (fieldsFrom mode field bytes).2.length ≤ bytes.length := by
  induction bytes generalizing mode field with
  | nil => simp [fieldsFrom]
  | cons b r ih =>
    simp only [fieldsFrom]
    split <;> simp only [List.length_cons]
    · exact Nat.le_succ_of_le (ih _ _)
    · exact Nat.le_succ_of_le (ih _ _)
    · exact Nat.le_succ_of_le (ih _ _)
    · omega

/-- The next record and what follows it. -/
def nextRecord (bytes : List UInt8) : Option (List Field × List UInt8) :=
  match bytes.dropWhile isLineEnd with
  | [] => none
  | b :: r => some (fieldsFrom .start [] (b :: r))

theorem fieldsFrom_cons_rest_length (mode : Mode) (field : Field) (b : UInt8) (r : List UInt8) :
    (fieldsFrom mode field (b :: r)).2.length ≤ r.length := by
  simp only [fieldsFrom]
  split
  · exact fieldsFrom_rest_length _ _ _
  · exact fieldsFrom_rest_length _ _ _
  · exact fieldsFrom_rest_length _ _ _
  · exact Nat.le_refl _

theorem nextRecord_length {bytes rest : List UInt8} {fields : List Field}
    (h : nextRecord bytes = some (fields, rest)) : rest.length < bytes.length := by
  unfold nextRecord at h
  have hd := (List.dropWhile_sublist isLineEnd (l := bytes)).length_le
  split at h
  · cases h
  · rename_i b r hb
    simp only [Option.some.injEq] at h
    have hr := fieldsFrom_cons_rest_length .start [] b r
    rw [h] at hr
    rw [hb, List.length_cons] at hd
    exact Nat.lt_of_lt_of_le (Nat.lt_succ_of_le hr) hd

/-- All records, each with the rest of the bytes before it. -/
def records (bytes : List UInt8) : List (List UInt8 × List Field) :=
  match _h : nextRecord bytes with
  | none => []
  | some (fields, rest) => (bytes, fields) :: records rest
termination_by bytes.length
decreasing_by exact nextRecord_length _h

/-- The place in a file where only `rest` is left. -/
def startOf (file rest : List UInt8) (record : Nat) : RecordStart :=
  let byte := file.length - rest.length
  ⟨record, 1 + (file.take byte).count lineFeed, byte⟩

end TableQuery.Csv
