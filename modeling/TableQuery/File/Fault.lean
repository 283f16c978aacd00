/-
Why a file cannot be read, or cannot be read as comma-separated values.
-/

namespace TableQuery

/-- Why the bytes of a file cannot be had. -/
inductive AccessFault where
  | notFound
  | notDirectory
  | isDirectory
  | nameTooLong
  | nulInName
  /-- The bytes are there but are no text. -/
  | invalidText
  | other (message : String)
  deriving DecidableEq, Repr

def AccessFault.message : AccessFault → String
  | notFound => "No such file or directory (os error 2)"
  | notDirectory => "Not a directory (os error 20)"
  | isDirectory => "Is a directory (os error 21)"
  | nameTooLong => "File name too long (os error 36)"
  | nulInName => "file name contained an unexpected NUL byte"
  | invalidText => "stream did not contain valid UTF-8"
  | other message => message

/-- The place where a record starts: its number, the line and the byte offset reached by then. -/
structure RecordStart where
  record : Nat
  line : Nat
  byte : Nat
  deriving DecidableEq, Repr

/-- Why a file of comma-separated values has no table. -/
inductive FileFault where
  | access (fault : AccessFault)
  | unequalLengths (start : RecordStart) (found expected : Nat)
  | invalidText (start : RecordStart) (field validUpTo : Nat)
  deriving DecidableEq, Repr

def FileFault.message : FileFault → String
  | access fault => fault.message
  | unequalLengths p found expected =>
    s!"CSV error: record {p.record} (line: {p.line}, byte: {p.byte}): found record with {found} fields, but the previous record has {expected} fields"
  | invalidText p field upTo =>
    s!"CSV parse error: record {p.record} (line {p.line}, field: {field}, byte: {p.byte}): invalid utf-8: invalid UTF-8 in field {field} near byte index {upTo}"

end TableQuery
