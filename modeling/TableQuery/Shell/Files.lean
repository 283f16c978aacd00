/-
The files that a text of statements reads, as far as its queries name them.
-/
import TableQuery.Database

namespace TableQuery

/-- The path that a query reads when its label is not a stored table. -/
def Catalog.pathsOfQuery (c : Catalog) (q : Sql.QueryExpr) : List String :=
  match q.plan with
  | .ok planned => (planned.baseLabel?.bind c.csvPath?).toList
  | .error _ => []

def Catalog.pathsOf (c : Catalog) : Sql.Statement → List String
  | .query q => c.pathsOfQuery q
  | .createTable d => d.query.toList.flatMap c.pathsOfQuery
  | _ => []

/-- The paths that all statements of a text read. -/
def Catalog.pathsOfText (c : Catalog) (text : String) : List String :=
  match Sql.Statement.ofString text with
  | .ok ss => ss.flatMap c.pathsOf
  | .error _ => []

/-- Files that were read before, by path. -/
def ReadFile.ofList (files : List (String × Except AccessFault (List UInt8))) : ReadFile :=
  fun path => (files.lookup path).getD (.error .notFound)

end TableQuery
