/-
Queries: the clauses of one selection, the source it reads from, the columns it refers to, and
the checks made before any row is read.
-/
import TableQuery.Expr.Token
import TableQuery.Order

namespace TableQuery

/-- The clauses of one selection. -/
structure Select where
  items : List Expr
  /-- One name for each item; that of a star is not used. -/
  names : Option (List String) := none
  filter : Option Expr := none
  groupBy : List Expr := []
  having : Option Expr := none
  orderBy : List OrderKey := []
  limit : Option Nat := none
  deriving DecidableEq, Inhabited

/-- A selection reads from nothing, from a labelled table or from another query. -/
inductive Query where
  | constant (select : Select)
  | table (select : Select) (label : String)
  | nested (select : Select) (inner : Query)
  deriving DecidableEq, Inhabited

namespace Select

/-- All expressions, clause by clause. -/
def exprs (s : Select) : List Expr :=
  s.items ++ s.filter.toList ++ s.groupBy ++ s.having.toList ++ s.orderBy.map (·.expr)

/-- The columns that the selection refers to. -/
def tokens (s : Select) : TokenSet := Expr.tokens s.exprs

/-- The expressions outside the items, with their clauses. -/
def clauses (s : Select) : List (Clause × Expr) :=
  s.filter.toList.map (.filter, ·) ++ s.groupBy.map (.groupBy, ·) ++
    s.having.toList.map (.having, ·) ++ s.orderBy.map (.orderBy, ·.expr)

/-! ## Checks -/

def checkItems (s : Select) (hasSource : Bool) : Except Error Unit :=
  match s.items.find? fun e => e != .wildcard && e.hasStrayWildcard with
  | some e => .error (.wildcard (.inside e.label))
  | none =>
    if !hasSource && s.items.contains .wildcard then .error (.wildcard .noSource) else .ok ()

def checkClauses (s : Select) : Except Error Unit :=
  match s.clauses.find? (·.2.hasStrayWildcard) with
  | some (c, _) => .error (.wildcard (.clause c))
  | none => .ok ()

def checkAggregates (s : Select) : Except Error Unit :=
  match s.groupBy.find? (·.containsAggregate) with
  | some e => .error (.invalidArgument (.aggregateInGroupBy e.label))
  | none =>
    match s.filter.filter (·.containsAggregate) with
    | some e => .error (.invalidArgument (.aggregateInFilter e.label))
    | none => .ok ()

def checkNames (s : Select) : Except Error Unit :=
  match s.names with
  | some names =>
    if names.length = s.items.length then .ok ()
    else .error (.shapeMismatch s.items.length names.length)
  | none => .ok ()

/-- The checks made before any table is read. -/
def check (s : Select) (hasSource : Bool) : Except Error Unit := do
  s.checkItems hasSource
  s.checkClauses
  s.checkAggregates
  s.checkNames

end Select

namespace Query

def select : Query → Select
  | constant s | table s _ | nested s _ => s

def hasSource : Query → Bool
  | constant _ => false
  | _ => true

/-- The label at the innermost level. -/
def baseLabel? : Query → Option String
  | constant _ => none
  | table _ label => some label
  | nested _ inner => inner.baseLabel?

end Query

end TableQuery
