/-
What can go wrong in a query, by cause, and the text that is shown for each cause.
-/
import TableQuery.Number.Integer
import TableQuery.File.Fault

namespace TableQuery

/-! ## Kinds and operators named in messages -/

/-- The kinds of values. -/
inductive Kind where
  | null | bool | int | float | text
  deriving DecidableEq, Repr

def Kind.name : Kind → String
  | null => "null"
  | bool => "bool"
  | int => "int"
  | float => "float"
  | text => "text"

/-- The arithmetic operators. -/
inductive ArithOp where
  | add | sub | mul | div | rem
  deriving DecidableEq, Repr

def ArithOp.symbol : ArithOp → String
  | add => "+"
  | sub => "-"
  | mul => "*"
  | div => "/"
  | rem => "%"

/-- The clauses of a query in which an expression can stand. -/
inductive Clause where
  | filter | groupBy | having | orderBy
  deriving DecidableEq, Repr

def Clause.name : Clause → String
  | filter => "WHERE"
  | groupBy => "GROUP BY"
  | having => "HAVING"
  | orderBy => "ORDER BY"

/-! ## Causes -/

/-- An argument that has no result. -/
inductive ArgumentFault where
  | overflow (op : ArithOp) (a b : Int64)
  | overflowNeg (i : Int64)
  | overflowAbs (i : Int64)
  | arity (function : String) (count : Nat)
  | precisionRange (digits : Int64)
  | notIntFloat (x : Double)
  | notInt (text : String)
  | notFloat (text : String)
  | nestedAggregate (function : String)
  | aggregateInGroupBy (label : String)
  | aggregateInFilter (label : String)
  deriving DecidableEq

/-- Kinds that do not fit together, or do not fit an operation. -/
inductive TypeFault where
  | notBool (k : Kind)
  | compare (a b : Kind)
  | arithmetic (op : ArithOp) (a b : Kind)
  | negate (k : Kind)
  | sum (k : Kind)
  | average (k : Kind)
  | like (a b : Kind)
  | precision (k : Kind)
  | argument (function : String) (k : Kind)
  | order (a b : Kind)
  deriving DecidableEq

/-- A star where it has no meaning. -/
inductive WildcardFault where
  | evaluated
  | aggregate (function : String)
  | inside (label : String)
  | noSource
  | clause (c : Clause)
  deriving DecidableEq

/-- A source without a table. -/
inductive SourceFault where
  | tableNotFound (label : String)
  | file (path : String) (fault : FileFault)
  | reported (message : String)
  deriving DecidableEq

/-- The first error ends a query. -/
inductive Error where
  | shapeMismatch (expected found : Nat)
  | rowCountMismatch (left right : Nat)
  | unknownColumn (name : String)
  | unknownFunction (name : String)
  | invalidArgument (fault : ArgumentFault)
  | typeMismatch (fault : TypeFault)
  | wildcard (fault : WildcardFault)
  | source (fault : SourceFault)
  deriving DecidableEq

/-! ## Messages -/

def ArgumentFault.message : ArgumentFault → String
  | overflow op a b =>
    s!"integer overflow in {Integer.toText a} {op.symbol} {Integer.toText b}"
  | overflowNeg i => s!"integer overflow in -{Integer.toText i}"
  | overflowAbs i => s!"integer overflow in abs({Integer.toText i})"
  | arity f n => s!"{f}() does not take {n} argument(s)"
  | precisionRange n => s!"round() precision {Integer.toText n} out of range"
  | notIntFloat x => s!"cannot convert {x.toText} to int"
  | notInt s => s!"cannot convert '{s}' to int"
  | notFloat s => s!"cannot convert '{s}' to float"
  | nestedAggregate f => s!"aggregate calls cannot be nested inside {f}()"
  | aggregateInGroupBy e => s!"aggregate `{e}` is not allowed in GROUP BY"
  | aggregateInFilter e => s!"aggregate in `{e}` is not allowed in WHERE"

def TypeFault.message : TypeFault → String
  | notBool k => s!"expected bool, found {k.name}"
  | compare a b => s!"cannot compare {a.name} with {b.name}"
  | arithmetic op a b => s!"cannot apply '{op.symbol}' to {a.name} and {b.name}"
  | negate k => s!"cannot negate {k.name}"
  | sum k => s!"cannot sum {k.name}"
  | average k => s!"cannot average {k.name}"
  | like a b => s!"LIKE expects text operands, found {a.name} and {b.name}"
  | precision k => s!"round() precision must be int, found {k.name}"
  | argument f k => s!"{f}() of {k.name}"
  | order a b => s!"cannot order {a.name} against {b.name}"

def WildcardFault.message : WildcardFault → String
  | evaluated => "`*` is only valid as a SELECT item or inside count(*)"
  | aggregate f => s!"{f}(*) is not supported"
  | inside e => s!"`*` cannot appear inside `{e}`"
  | noSource => "SELECT * requires a source"
  | clause c => s!"`*` is not allowed in {c.name}"

def SourceFault.message : SourceFault → String
  | tableNotFound label => s!"table '{label}' not found"
  | file path fault => s!"{path}: {fault.message}"
  | reported message => message

def Error.message : Error → String
  | shapeMismatch expected found =>
    s!"shape mismatch: expected {expected} values, found {found}"
  | rowCountMismatch left right => s!"row count mismatch: {left} vs {right}"
  | unknownColumn name => s!"column '{name}' not found"
  | unknownFunction name => s!"unknown function '{name}'"
  | invalidArgument fault => "invalid argument: " ++ fault.message
  | typeMismatch fault => "type mismatch: " ++ fault.message
  | wildcard fault => "wildcard error: " ++ fault.message
  | source fault => "source error: " ++ fault.message

end TableQuery
