/-
Why a statement has no result: its text is no statement, it asks for what queries cannot do, or
the query itself fails.
-/
import TableQuery.Error
import TableQuery.Sql.Syntax

namespace TableQuery.Sql

/-- Clauses that queries do not have. -/
inductive ClauseFault where
  | withClause
  | offset
  | fetch
  | setOperation (op : SetOp)
  | body (spelling : String)
  | qualifiedStar
  | groupAllStar
  | distinctGroups
  | distinctStar
  | distinctOn
  | nullsOrder
  | joins
  | severalSources
  | source
  deriving DecidableEq

/-- References by position, and limits, that are no numbers in range. -/
inductive PositionFault where
  | invalid (clause : Clause) (digits : String)
  | outside (clause : Clause) (position size : Nat)
  | star (clause : Clause) (position : Nat)
  | limit (digits : String)
  | limitTerm
  deriving DecidableEq

/-- Table functions other than the one that reads a file, or not with one text. -/
inductive TableFunctionFault where
  | argumentCount
  | argument (spelling : String)
  | unknown (name : String)
  deriving DecidableEq

/-- Terms that expressions cannot stand for. -/
inductive TermFault where
  | path (spelling : String)
  | operator (symbol : String)
  | value (spelling : String)
  | number (digits : String)
  | type (text : String)
  | window (function : String)
  | filter (function : String)
  | arguments (function : String)
  | query (function : String)
  | distinct (function : String)
  | other (spelling : String)
  deriving DecidableEq

/-- Statements that do not fit the place or the tables there are. -/
inductive StatementFault where
  | emptyQuery
  | emptyScript
  | unsupported
  | onlyQuery
  | notQuery
  | noDefinition
  | tableExists (name : String)
  | tableMissing (name : String)
  | unreadable (path : String) (fault : AccessFault)
  deriving DecidableEq

inductive PlanFault where
  | clause (fault : ClauseFault)
  | position (fault : PositionFault)
  | tableFunction (fault : TableFunctionFault)
  | term (fault : TermFault)
  | statement (fault : StatementFault)
  deriving DecidableEq

/-- The first error ends a statement. -/
inductive Error where
  | syntaxFault (fault : SyntaxFault)
  | plan (fault : PlanFault)
  | engine (e : TableQuery.Error)
  deriving DecidableEq

/-! ## Messages -/

def ClauseFault.message : ClauseFault → String
  | withClause => "WITH (common table expressions) is not supported"
  | offset => "OFFSET is not supported"
  | fetch => "FETCH is not supported; use LIMIT"
  | setOperation op => s!"{op.name} is not supported"
  | body s => s!"Unsupported query body: {s}"
  | qualifiedStar => "Qualified wildcards (t.*) are not supported"
  | groupAllStar => "GROUP BY ALL cannot expand SELECT *"
  | distinctGroups => "DISTINCT combined with GROUP BY is not supported"
  | distinctStar => "SELECT DISTINCT * is not supported"
  | distinctOn => "DISTINCT ON is not supported"
  | nullsOrder => "NULLS FIRST/LAST is not supported"
  | joins => "Joins are not supported"
  | severalSources => "Multiple FROM sources (implicit joins) are not supported"
  | source => "Only table references, read_csv(), and subqueries are supported in FROM"

def PositionFault.message : PositionFault → String
  | invalid c digits => s!"Invalid positional {c.name}: {digits}"
  | outside c n size => s!"{c.name} position {n} is not in the select list (1..={size})"
  | star c n => s!"{c.name} position {n} refers to `*`"
  | limit digits => s!"Invalid LIMIT value: {digits}"
  | limitTerm => "LIMIT must be an integer literal"

def TableFunctionFault.message : TableFunctionFault → String
  | argumentCount => "read_csv() takes one argument: read_csv('/path/to/file.csv')"
  | argument s => s!"Expected a string literal argument, got: {s}"
  | unknown f => s!"Unknown table function '{f}'. Supported: read_csv()"

def TermFault.message : TermFault → String
  | path s => s!"Unsupported compound identifier: {s}"
  | operator s => s!"Unsupported operator: {s}"
  | value s => s!"Unsupported value: {s}"
  | number digits => s!"Invalid number literal: {digits}"
  | type s => s!"Unsupported CAST target type: {s}"
  | window f => s!"Window function '{f}' is not supported"
  | filter f => s!"FILTER clause on '{f}' is not supported"
  | arguments f => s!"Unsupported argument syntax in {f}()"
  | query f => s!"Subquery arguments to {f}() are not supported"
  | distinct f => s!"DISTINCT is only supported in count(), not {f}()"
  | other s => s!"Unsupported expression: {s}"

def StatementFault.message : StatementFault → String
  | emptyQuery => "Empty query"
  | emptyScript => "Empty script"
  | unsupported => "Only SELECT, CREATE TABLE AS, and DROP TABLE are supported"
  | onlyQuery => "Only SELECT is supported here"
  | notQuery => "Expected a SELECT statement"
  | noDefinition => "CREATE TABLE requires AS SELECT"
  | tableExists t => s!"Table '{t}' already exists (use CREATE OR REPLACE TABLE)"
  | tableMissing t => s!"Table '{t}' not found"
  | unreadable path fault => s!"Failed to read {path}: {fault.message}"

def PlanFault.message : PlanFault → String
  | clause f => f.message
  | position f => f.message
  | tableFunction f => f.message
  | term f => f.message
  | statement f => f.message

def Error.message : Error → String
  | syntaxFault f => "SQL parse error: " ++ f.message
  | plan f => "SQL planning error: " ++ f.message
  | engine e => "Engine error: " ++ e.message

end TableQuery.Sql
