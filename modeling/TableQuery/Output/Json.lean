/-
Tables as JSON: an array with one object for each row.
-/
import TableQuery.Table

namespace TableQuery.Json

def hexDigit (n : Nat) : Char :=
  if n < 10 then Char.ofNat (48 + n) else Char.ofNat (87 + n)

/-- The form of a character inside a text. Control characters are given by their number. -/
def escape (c : Char) : List Char :=
  if c = '"' then ['\\', '"']
  else if c = '\\' then ['\\', '\\']
  else if c = '\n' then ['\\', 'n']
  else if c = '\r' then ['\\', 'r']
  else if c = '\t' then ['\\', 't']
  else if c.toNat < 0x20 then
    ['\\', 'u', '0', '0', hexDigit (c.toNat / 16), hexDigit (c.toNat % 16)]
  else [c]

def ofText (s : String) : String := String.ofList ('"' :: s.toList.flatMap escape ++ ['"'])

/-- Floats that are no numbers are null. -/
def ofValue : Value → String
  | .null => "null"
  | .float x => if x.isFinite then (Value.float x).toText else "null"
  | .text s => ofText s
  | v => v.toText

def ofRow (fields : List String) (row : Row) : String :=
  let members := (fields.zip row).map fun (name, v) => ofText name ++ ": " ++ ofValue v
  "\x7b" ++ ", ".intercalate members ++ "\x7d"

/-- One line for each row. -/
def ofTable (t : Table) : String :=
  let rows := ",\n".intercalate (t.rows.map fun row => "  " ++ ofRow t.fields row)
  "[\n" ++ (if t.rows.isEmpty then "" else rows ++ "\n") ++ "]\n"

end TableQuery.Json
