/-
Tables from files of comma-separated values: the first record names the fields, and the cells are
trimmed and typed.
-/
import TableQuery.Csv.Reader
import TableQuery.Table
import TableQuery.Text.Blank
import TableQuery.Text.Utf8

namespace TableQuery.Csv

/-- The white space that is removed from the bytes of a cell before they are decoded. -/
def isAsciiBlank (b : UInt8) : Bool := b == 32 || b == 9 || b == 10 || b == 12 || b == 13

def trimBytes (bytes : Field) : Field :=
  ((bytes.dropWhile isAsciiBlank).reverse.dropWhile isAsciiBlank).reverse

/-- Decodes fields from the `i`-th on; else tells which field fails and how many of its bytes are
valid. -/
def decodeFields (i : Nat) : List Field → Except (Nat × Nat) (List String)
  | [] => .ok []
  | f :: r =>
    match Text.decode f with
    | .error upTo => .error (i, upTo)
    | .ok s => (decodeFields (i + 1) r).map (Text.trim s :: ·)

/-- The bytes behind a byte-order mark. -/
def skipMark : List UInt8 → List UInt8
  | 0xEF :: 0xBB :: 0xBF :: r => r
  | r => r

/-- The rows from the given record number on; each has to be as wide as the header. -/
def rowsFrom (file : List UInt8) (width record : Nat) :
    List (List UInt8 × List Field) → Except FileFault (List Row)
  | [] => .ok []
  | (rest, fields) :: r =>
    if fields.length ≠ width then
      .error (.unequalLengths (startOf file rest record) fields.length width)
    else
      match decodeFields 0 (fields.map trimBytes) with
      | .error (i, upTo) => .error (.invalidText (startOf file rest record) i upTo)
      | .ok cells => (rowsFrom file width (record + 1) r).map (cells.map Value.ofCell :: ·)

/-- The table that a file holds; an empty file holds one without fields. -/
def tableOfBytes (file : List UInt8) : Except FileFault Table :=
  match records (skipMark file) with
  | [] => .ok (.empty [])
  | (_, header) :: r =>
    match decodeFields 0 header with
    | .error (i, upTo) => .error (.invalidText ⟨0, 1, 0⟩ i upTo)
    | .ok fields => (rowsFrom file header.length 1 r).map (⟨fields, ·⟩)

end TableQuery.Csv
