/-
Execution of a query: the rows of the source are filtered, partitioned into groups, the groups
filtered and ordered, the items evaluated on each group, and the results put together.
-/
import TableQuery.Query
import TableQuery.Group

namespace TableQuery

/-! ## Filters -/

/-- The rows whose mask value is true; a mask value that is no truth value is an error. -/
def keepTrue : List Row → List Value → Except Error (List Row)
  | row :: rows, v :: mask => do
    let b ← v.truth
    let rest ← keepTrue rows mask
    return if b = some true then row :: rest else rest
  | _, _ => .ok []

def Table.filterBy (t : Table) (condition : Expr) : Except Error Table := do
  Table.ofRows t.fields (← keepTrue t.rows (← Expr.evalRows t condition))

/-- Whether all values are true; nothing is looked at behind the first that is not. -/
def allTrue : List Value → Except Error Bool
  | [] => .ok true
  | v :: r => do if (← v.truth) = some true then allTrue r else return false

/-! ## Columns -/

/-- Adds what is not yet there. -/
def addNew (chosen : List Nat) (i : Nat) : List Nat :=
  if chosen.contains i then chosen else chosen ++ [i]

def Table.addNamed (t : Table) : List Nat → List String → Except Error (List Nat)
  | chosen, [] => .ok chosen
  | chosen, name :: r =>
    match t.columnIndex? name with
    | some i => t.addNamed (addNew chosen i) r
    | none => .error (.unknownColumn name)

/-- The places of columns chosen so far and of those that the expressions refer to; a star stands
for all columns. -/
def Table.choose (t : Table) (chosen : List Nat) (es : List Expr) : Except Error (List Nat) :=
  let tokens := Expr.tokens es
  if tokens.isWildcard then .ok ((List.range t.width).foldl addNew chosen)
  else t.addNamed chosen tokens.columns

/-- Only the columns that the tokens name, in the order of the table. -/
def Table.project (t : Table) (tokens : TokenSet) : Except Error Table := do
  if tokens.isWildcard then return t
  let named ← t.addNamed [] tokens.columns
  return t.select ((List.range t.width).filter named.contains)

namespace Select

/-- The items with their names, each star replaced by the fields of the source. -/
def expand (s : Select) (fields : List String) : List (Expr × String) :=
  (s.items.zip (s.names.getD (Expr.labels s.items))).flatMap fun (e, name) =>
    if e = .wildcard then fields.map fun f => (.column f, f) else [(e, name)]

/-! ## The stages -/

/-- The rows of the filtered table cut down to the columns that items, order and group filter
need, then the values of the group keys. The second result counts the columns for items and
order. -/
def workingTable (s : Select) (items : List Expr) (t : Table) : Except Error (Table × Nat) := do
  let chosen ← t.choose [] items
  let chosen ← t.choose chosen (s.orderBy.map (·.expr))
  let all ← t.choose chosen s.having.toList
  let working := t.select all
  if s.groupBy.isEmpty then return (working, chosen.length)
  else return (← working.chain (← Expr.evalTable t s.groupBy), chosen.length)

/-- The groups on which the group filter is true in every row, cut to their first columns. -/
def keepGroups (s : Select) (keep : Nat) : List Table → Except Error (List Table)
  | [] => .ok []
  | g :: r => do
    let passes ← match s.having with
      | some condition => do allTrue (← Expr.evalRows g condition)
      | none => pure true
    let rest ← s.keepGroups keep r
    return if passes then g.sliceColumns 0 keep :: rest else rest

/-- Rows are ordered inside each group, then the groups among themselves. -/
def orderGroups (s : Select) (groups : List Table) : Except Error (List Table) := do
  if s.orderBy.isEmpty then return groups
  Order.sortTables s.orderBy (← groups.mapM (Order.sortRows s.orderBy))

/-- Whether a group gives one row only: if an item contains an aggregate, or if no item other than
the group keys refers to a column outside an aggregate. -/
def collapses (s : Select) (items : List Expr) : Bool :=
  Expr.allInAggregate (items.filter (!s.groupBy.contains ·)) || items.any (·.containsAggregate)

/-- The values of the items on each group. -/
def evalGroups (s : Select) (items : List Expr) (groups : List Table) : Except Error (List Table) :=
  groups.mapM fun g => do
    let out ← Expr.evalTable g items
    return if s.collapses items then out.truncate 1 else out

/-- One table from the tables of all groups. Their rows have to be as wide as the first table. -/
def merge (names : List String) : List Table → Except Error Table
  | [] => .ok (.empty names)
  | t :: ts => do
    let rows := ts.flatMap (·.rows)
    Table.checkRows t.width rows
    (Table.mk t.fields (t.rows ++ rows)).renameFields names

def limited (s : Select) (t : Table) : Table :=
  match s.limit with
  | some n => t.truncate n
  | none => t

/-- The row that a selection without a source reads. -/
def dummy : Table := ⟨["Dummy Field"], [[.text "Dummy Value"]]⟩

/-- The result for the table read from the source, if there is one. -/
def run (s : Select) (source : Option Table) : Except Error Table := do
  let t := source.getD dummy
  let expanded := s.expand t.fields
  let items := expanded.map (·.1)
  let names := expanded.map (·.2)
  if source.isSome && t.isEmpty then return .empty names
  let t ← match s.filter with
    | some condition => t.filterBy condition
    | none => pure t
  if t.isEmpty then return .empty names
  let (working, keep) ← s.workingTable items t
  let groups ← s.keepGroups keep (← Group.partition working s.groupBy.length)
  let groups ← s.orderGroups groups
  if groups.isEmpty then return .empty names
  return s.limited (← merge names (← s.evalGroups items groups))

end Select

/-! ## Queries -/

/-- What a query asks of the place where tables are kept: a label, and the columns it needs. -/
structure Request where
  label : String
  tokens : TokenSet
  deriving DecidableEq

abbrev Fetcher := Request → Except Error Table

namespace Query

/-- Each level is checked before the level below it is run. -/
def runWith {m : Type → Type} [Monad m] (fetch : Request → m (Except Error Table)) :
    Query → ExceptT Error m Table
  | constant s => do
    s.check false
    s.run none
  | table s label => do
    s.check true
    s.run (some (← ExceptT.mk (fetch ⟨label, s.tokens⟩)))
  | nested s inner => do
    s.check true
    s.run (some (← inner.runWith fetch))

def execute (fetch : Fetcher) (q : Query) : Except Error Table :=
  (q.runWith (m := Id) fetch).run

/-- The result together with the requests made on the way. -/
def trace (fetch : Fetcher) (q : Query) : Except Error Table × List Request :=
  (q.runWith (m := StateM (List Request)) fun r => do
    modify (· ++ [r])
    return fetch r).run.run []

end Query

end TableQuery
