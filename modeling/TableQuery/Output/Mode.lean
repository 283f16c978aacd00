/-
The forms in which a table is printed.
-/
import TableQuery.Csv.Writer
import TableQuery.Output.Grid
import TableQuery.Output.Json

namespace TableQuery

inductive OutputMode where
  | grid | csv | json
  deriving DecidableEq, Repr, Inhabited

/-- The names by which modes are chosen. -/
def OutputMode.name : OutputMode → String
  | grid => "table"
  | csv => "csv"
  | json => "json"

/-- A null is an empty field. -/
def Csv.cell (v : Value) : String := if v.isNull then "" else v.toText

/-- The names, then the rows. -/
def Csv.ofTable (t : Table) : String :=
  String.ofList (writeRecords ((t.fields :: t.rows.map (·.map cell)).map (·.map String.toList)))

/-- Nothing is printed if there is no grid of the table. -/
def Table.print (t : Table) : OutputMode → String
  | .grid => (Grid.print? t).getD ""
  | .csv => Csv.ofTable t
  | .json => Json.ofTable t

end TableQuery
