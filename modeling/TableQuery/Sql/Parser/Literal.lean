/-
Literals, and the fields that points in time and intervals have.
-/
import TableQuery.Sql.Parser.Basic

namespace TableQuery.Sql.Parser

/-- A literal, as it stands where only a literal can stand. -/
def literal : Parser Literal := do
  match ← next with
  | some (.number digits long) => return .number digits long
  | some (.text s) => return .text s
  | some (.literal s) | some (.placeholder s) => return .other s
  | some (.word w) =>
    match w.keyword with
    | "TRUE" => return .bool true
    | "FALSE" => return .bool false
    | "NULL" => return .null
    | _ => if w.quote = some '\x22' then return .other w.ident.spelling else fail
  | some (.symbol s) =>
    if s = ":" || s = "@" then
      match ← next with
      | some (.word w) => return .other (s ++ w.text)
      | some (.number digits false) => return .other (s ++ digits)
      | _ => fail
    else fail
  | none => fail

/-- The fields that a point in time has. -/
def timeFields : List String :=
  ["YEAR", "YEARS", "MONTH", "MONTHS", "WEEK", "WEEKS", "DAY", "DAYOFWEEK", "DAYOFYEAR", "DAYS",
    "DATE", "DATETIME", "HOUR", "HOURS", "MINUTE", "MINUTES", "SECOND", "SECONDS", "CENTURY",
    "DECADE", "DOY", "DOW", "EPOCH", "ISODOW", "ISOYEAR", "ISOWEEK", "JULIAN", "MICROSECOND",
    "MICROSECONDS", "MILLENIUM", "MILLENNIUM", "MILLISECOND", "MILLISECONDS", "NANOSECOND",
    "NANOSECONDS", "QUARTER", "TIME", "TIMEZONE", "TIMEZONE_ABBR", "TIMEZONE_HOUR",
    "TIMEZONE_MINUTE", "TIMEZONE_REGION"]

def timeField : Parser String := do
  match ← oneOf timeFields with
  | some "WEEK" =>
    if ← symbol "(" then
      let _ ← ident
      expectSymbol ")"
    return "WEEK"
  | some k => return k
  | none => fail

/-- The fields that an interval can be counted in. -/
def intervalUnits : List String :=
  ["YEAR", "YEARS", "MONTH", "MONTHS", "WEEK", "WEEKS", "DAY", "DAYS", "HOUR", "HOURS", "MINUTE",
    "MINUTES", "SECOND", "SECONDS", "CENTURY", "DECADE", "DOW", "DOY", "EPOCH", "ISODOW", "ISOYEAR",
    "JULIAN", "MICROSECOND", "MICROSECONDS", "MILLENIUM", "MILLENNIUM", "MILLISECOND",
    "MILLISECONDS", "NANOSECOND", "NANOSECONDS", "QUARTER", "TIMEZONE", "TIMEZONE_HOUR",
    "TIMEZONE_MINUTE"]

end TableQuery.Sql.Parser
