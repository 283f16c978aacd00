/-
The meaning of queries: the query that each one stands for. References by position and by alias
are replaced by the items they refer to.
-/
import TableQuery.Query
import TableQuery.Sql.Plan.Term

namespace TableQuery.Sql

def clauseError {α : Type} (f : ClauseFault) : Except Error α := .error (.plan (.clause f))

def positionError {α : Type} (f : PositionFault) : Except Error α := .error (.plan (.position f))

def tableFunctionError {α : Type} (f : TableFunctionFault) : Except Error α :=
  .error (.plan (.tableFunction f))

/-! ## Items and what refers to them -/

/-- The planned items of a selection with their labels. -/
structure Scope where
  items : List (Expr × String)

namespace Scope

def exprs (s : Scope) : List Expr := s.items.map (·.1)

/-- The first item under a label, in any letter case; a star has none. -/
def find? (s : Scope) (name : String) : Option Expr :=
  (s.items.find? fun (e, label) => e != .wildcard && Text.sameLetters label name).map (·.1)

mutual

/-- Replaces each column that is the label of an item by that item. -/
def substitute (s : Scope) : Expr → Expr
  | .column name => (s.find? name).getD (.column name)
  | .call f args => .call f (s.substituteAll args)
  | .lit v => .lit v
  | .wildcard => .wildcard

def substituteAll (s : Scope) : List Expr → List Expr
  | [] => []
  | e :: r => s.substitute e :: s.substituteAll r

end

/-- The item at a position, counted from one. -/
def atPosition (s : Scope) (clause : Clause) (digits : String) : Except Error Expr :=
  match readPosition? digits with
  | none => positionError (.invalid clause digits)
  | some n =>
    match if n = 0 then none else s.items[n - 1]? with
    | none => positionError (.outside clause n s.items.length)
    | some (.wildcard, _) => positionError (.star clause n)
    | some (e, _) => .ok e
where
  /-- A number of digits only, of at most 64 bits. -/
  readPosition? (digits : String) : Option Nat :=
    if digits.toList.all Char.isDigit && !digits.toList.isEmpty then
      let n := Double.natOfDigits digits.toList
      if n < UInt64.size then some n else none
    else none

/-- A number stands for the item at this position, any other term for its expression. -/
def resolve (s : Scope) (clause : Clause) : Term → Except Error Expr
  | .literal (.number digits _) => s.atPosition clause digits
  | t => do return s.substitute (← t.plan)

end Scope

def planItem : Item → Except Error (Expr × String)
  | .star => .ok (.wildcard, "*")
  | .tableStar _ => clauseError .qualifiedStar
  | .term t name => do
    let e ← t.plan
    return (e, (name.map (·.text)).getD e.label)

/-! ## Clauses -/

def isLiteral : Expr → Bool
  | .lit _ => true
  | _ => false

/-- The group keys. All items are keys but literals and those with an aggregate. -/
def planGrouping (s : Scope) : Grouping → Except Error (List Expr)
  | .by terms => terms.mapM (s.resolve .groupBy)
  | .all =>
    if s.exprs.contains .wildcard then clauseError .groupAllStar
    else .ok (s.exprs.filter fun e => !e.containsAggregate && !isLiteral e)

/-- Rows are made distinct by grouping them by all items, unless there is one row anyway. -/
def planDistinct (s : Scope) (groupBy : List Expr) : Distinct → Except Error (List Expr)
  | .no => .ok groupBy
  | .yes =>
    if !groupBy.isEmpty then clauseError .distinctGroups
    else if s.exprs.contains .wildcard then clauseError .distinctStar
    else if s.exprs.all (·.containsAggregate) then .ok []
    else .ok s.exprs
  | .on _ => clauseError .distinctOn

def planOrderItem (s : Scope) (o : OrderItem) : Except Error OrderKey :=
  if o.nullsFirst.isSome then clauseError .nullsOrder
  else do
    let e ← s.resolve .orderBy o.term
    return ⟨e, if o.ascending = some false then .desc else .asc⟩

def planLimit : Option Term → Except Error (Option Nat)
  | none => .ok none
  | some (.literal (.number digits _)) =>
    match Scope.atPosition.readPosition? digits with
    | some n => .ok (some n)
    | none => positionError (.limit digits)
  | some _ => positionError .limitTerm

/-- The clauses of a selection in the order in which their faults are found. -/
def planSelection (frame : Frame) (s : Selection) : Except Error Select := do
  let scope : Scope := ⟨← s.items.mapM planItem⟩
  let filter ← s.filter.mapM Term.plan
  let groupBy ← planGrouping scope s.grouping
  let groupBy ← planDistinct scope groupBy s.distinct
  let having ← s.having.mapM Term.plan
  let orderBy ← frame.orderBy.mapM (planOrderItem scope)
  let limit ← planLimit frame.limit
  return {
    items := scope.exprs
    names := some (scope.items.map (·.2))
    filter := filter
    groupBy := groupBy
    having := having.map scope.substitute
    orderBy := orderBy
    limit := limit }

/-- The clauses around a body that queries do not have. -/
def planFrame (frame : Frame) : Except Error Unit :=
  if frame.withClause.isSome then clauseError .withClause
  else if frame.offset.isSome then clauseError .offset
  else if frame.fetch.isSome then clauseError .fetch
  else .ok ()

/-! ## Sources and queries -/

/-- The label of the file that a table function reads. -/
def planTableFunction (name : String) (args : List Arg) : Except Error String :=
  if name = "read_csv" || name = "read_csv_auto" then
    match args with
    | [.term (.literal (.text path))] => .ok path
    | [arg] => tableFunctionError (.argument arg.spelling)
    | _ => tableFunctionError .argumentCount
  else tableFunctionError (.unknown name)

mutual

/-- The query that a written query stands for. Parentheses without clauses around them are not
seen. -/
def QueryExpr.plan : QueryExpr → Except Error Query
  | .mk frame body => do
    planFrame frame
    body.plan frame

def Body.plan (frame : Frame) : Body → Except Error Query
  | .select s source => do
    let ofSelect ← source.plan
    return ofSelect (← planSelection frame s)
  | .parens q =>
    if frame.orderBy.isEmpty && frame.limit.isNone then q.plan
    else clauseError (.body (Body.parens q).spelling)
  | .setOperation op _ => clauseError (.setOperation op)
  | .other s => clauseError (.body s)

/-- The query that reads from a source, for each selection. -/
def Source.plan : Source → Except Error (Select → Query)
  | .nothing => .ok .constant
  | .table name _ => .ok (.table · (Name.text name))
  | .function name args _ => do
    let label ← planTableFunction (Text.lower (Name.text name)) args
    return (.table · label)
  | .query q _ => do
    let inner ← q.plan
    return (.nested · inner)
  | .joined _ => clauseError .joins
  | .several _ => clauseError .severalSources
  | .other _ => clauseError .source

end

end TableQuery.Sql
