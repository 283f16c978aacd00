/-
Writing of comma-separated values: a field stands in quotes where it has to, and records end with
a line feed.
-/

namespace TableQuery.Csv

def needsQuotes (field : List Char) : Bool :=
  field.any fun c => c == ',' || c == '"' || c == '\n' || c == '\r'

/-- Writes every quote twice. -/
def doubleQuotes (field : List Char) : List Char :=
  field.flatMap fun c => if c = '"' then ['"', '"'] else [c]

def writeField (field : List Char) : List Char :=
  if needsQuotes field then '"' :: doubleQuotes field ++ ['"'] else field

/-- A record that would be an empty line is a pair of quotes. -/
def writeRecord (fields : List (List Char)) : List Char :=
  let line := [','].intercalate (fields.map writeField)
  (if line.isEmpty then ['"', '"'] else line) ++ ['\n']

def writeRecords (records : List (List (List Char))) : List Char := records.flatMap writeRecord

end TableQuery.Csv
