/-
A database: stored tables that statements read, create and drop. Names are stored in lower case.
-/
import TableQuery.Catalog
import TableQuery.Sql.Parser.Statement
import TableQuery.Sql.Plan.Query

namespace TableQuery

/-! ## Outcomes -/

/-- What a statement did to a table. -/
inductive Notice where
  | created (name : String) (rows cols : Nat)
  | alreadyThere (name : String)
  | dropped (name : String)
  | notThere (name : String)
  deriving DecidableEq

def Notice.message : Notice → String
  | created name rows cols => s!"Created table '{name}' ({rows} rows, {cols} cols)"
  | alreadyThere name => s!"Table '{name}' already exists (skipped)"
  | dropped name => s!"Dropped table '{name}'"
  | notThere name => s!"Table '{name}' not found (skipped)"

/-- One line for each notice. -/
def Notice.lines (ns : List Notice) : String := "\n".intercalate (ns.map (·.message))

inductive Outcome where
  | table (t : Table)
  | notices (ns : List Notice)
  deriving DecidableEq

structure Database where
  catalog : Catalog := {}
  deriving DecidableEq, Inhabited

namespace Sql

def statementError {α : Type} (f : StatementFault) : Except Error α := .error (.plan (.statement f))

/-- The query that a text stands for. -/
def parseQuery (text : String) : Except Error Query := do
  match (← (Statement.ofString text).mapError Error.syntaxFault).head? with
  | some (.query q) => q.plan
  | some _ => statementError .notQuery
  | none => statementError .emptyQuery

end Sql

namespace Catalog

/-- The result of a written query on the stored tables and on files. -/
def runQuery (c : Catalog) (read : ReadFile) (q : Sql.QueryExpr) : Except Sql.Error Table := do
  let planned ← q.plan
  (planned.execute (c.fetch read)).mapError Sql.Error.engine

/-- The result of the query that stands first in a text. -/
def query (c : Catalog) (read : ReadFile) (text : String) : Except Sql.Error Table := do
  match (← (Sql.Statement.ofString text).mapError Sql.Error.syntaxFault).head? with
  | some (.query q) => c.runQuery read q
  | some _ => Sql.statementError .onlyQuery
  | none => Sql.statementError .emptyQuery

/-- Stores a table under a name in place of the one there was. -/
def replace (c : Catalog) (name : String) (t : Table) : Catalog := (c.erase name).insert name t

end Catalog

namespace Database

open Sql (Statement CreateTable)

/-- The name under which a written name is stored. -/
def storedName (name : String) : String := Text.lower name

def register (db : Database) (name : String) (t : Table) : Database :=
  ⟨db.catalog.replace (storedName name) t⟩

/-- A table is created from a query; one that is there is kept unless it may be replaced. -/
def create (db : Database) (read : ReadFile) (c : CreateTable) : Except Sql.Error Outcome × Database :=
  let name := storedName (Sql.Name.text c.name)
  if db.catalog.contains name && !c.orReplace then
    if c.ifNotExists then (.ok (.notices [.alreadyThere name]), db)
    else (Sql.statementError (.tableExists name), db)
  else
    match c.query with
    | none => (Sql.statementError .noDefinition, db)
    | some q =>
      match db.catalog.runQuery read q with
      | .error e => (.error e, db)
      | .ok t => (.ok (.notices [.created name t.size t.width]), ⟨db.catalog.replace name t⟩)

/-- Tables are dropped one after the other, up to the first that is not there. -/
def drop (db : Database) (ifExists : Bool) : List String → Except Sql.Error (List Notice) × Database
  | [] => (.ok [], db)
  | name :: r =>
    if db.catalog.contains name then
      let (result, db) := drop ⟨db.catalog.erase name⟩ ifExists r
      (result.map (.dropped name :: ·), db)
    else if ifExists then
      let (result, db) := drop db ifExists r
      (result.map (.notThere name :: ·), db)
    else (Sql.statementError (.tableMissing name), db)

/-- The outcome of a statement, and the database after it, also after an error. -/
def run (db : Database) (read : ReadFile) : Statement → Except Sql.Error Outcome × Database
  | .query q => ((db.catalog.runQuery read q).map .table, db)
  | .createTable c => db.create read c
  | .dropTable ifExists names =>
    let (result, db) := db.drop ifExists (names.map fun n => storedName (Sql.Name.text n))
    (result.map .notices, db)
  | .other _ => (Sql.statementError .unsupported, db)

/-- Runs statements up to the first error. The outcome is that of the last one. -/
def runAll (db : Database) (read : ReadFile) (last : Except Sql.Error Outcome) :
    List Statement → Except Sql.Error Outcome × Database
  | [] => (last, db)
  | s :: r =>
    match db.run read s with
    | (.ok out, db) => db.runAll read (.ok out) r
    | (.error e, db) => (.error e, db)

/-- Runs the statement that stands first in a text. -/
def execute (db : Database) (read : ReadFile) (text : String) : Except Sql.Error Outcome × Database :=
  match Statement.ofString text with
  | .error f => (.error (.syntaxFault f), db)
  | .ok [] => (Sql.statementError .emptyQuery, db)
  | .ok (s :: _) => db.run read s

/-- Runs all statements of a text. -/
def executeScript (db : Database) (read : ReadFile) (text : String) :
    Except Sql.Error Outcome × Database :=
  match Statement.ofString text with
  | .error f => (.error (.syntaxFault f), db)
  | .ok ss => db.runAll read (Sql.statementError .emptyScript) ss

/-- Runs all statements of a file. -/
def executeFile (db : Database) (read : ReadFile) (path : String) :
    Except Sql.Error Outcome × Database :=
  match read.text path with
  | .error fault => (Sql.statementError (.unreadable path fault), db)
  | .ok text => db.executeScript read text

end Database

end TableQuery
