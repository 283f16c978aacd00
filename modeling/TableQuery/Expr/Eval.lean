/-
Evaluation of an expression against a table: one value for each row, or one value for the table
as a whole.
-/
import TableQuery.Table
import TableQuery.Expr

namespace TableQuery

/-- Literals and aggregates have one value for all rows. -/
inductive Evaluated where
  | scalar (v : Value)
  | column (vs : List Value)
  deriving DecidableEq

namespace Evaluated

def isScalar : Evaluated → Bool
  | scalar _ => true
  | column _ => false

/-- A value for each of `n` rows. -/
def spread (n : Nat) : Evaluated → List Value
  | scalar v => List.replicate n v
  | column vs => vs

/-- The value of the first row, `null` if there is none. -/
def first : Evaluated → Value
  | scalar v => v
  | column vs => vs.head?.getD .null

end Evaluated

/-- Reads `n` rows off a list of columns. -/
def rowsOfColumns : Nat → List (List Value) → List Row
  | 0, _ => []
  | n + 1, columns => columns.map (·.headD .null) :: rowsOfColumns n (columns.map List.tail)

namespace Expr

/-- A function is applied once where all its arguments are scalars, also on a table without
rows. -/
def applyScalar (op : Scalar) (rows : Nat) (args : List Evaluated) : Except Error Evaluated :=
  if args.all Evaluated.isScalar then return .scalar (← op.apply (args.map Evaluated.first))
  else return .column (← (rowsOfColumns rows (args.map (Evaluated.spread rows))).mapM op.apply)

mutual

def eval (t : Table) : Expr → Except Error Evaluated
  | lit v => .ok (.scalar v)
  | column name =>
    match t.columnIndex? name with
    | some i => .ok (.column (t.column i))
    | none => .error (.unknownColumn name)
  | wildcard => .error (.wildcard .evaluated)
  | call name args =>
    match Function.lookup name with
    | none => .error (.unknownFunction name)
    | some f => do
      f.checkArity args.length
      match f, args with
      | .aggregate op, [arg] =>
        if arg.containsAggregate then .error (.invalidArgument (.nestedAggregate f.name))
        else
          match op, arg with
          | .count, wildcard => return .scalar (.int (Int64.ofNat t.size))
          | _, wildcard => .error (.wildcard (.aggregate f.name))
          | op, arg => return .scalar (← op.reduce ((← eval t arg).spread t.size))
      | .aggregate _, _ => .error (.invalidArgument (.arity f.name args.length))
      | .scalar op, args => applyScalar op t.size (← evalList t args)

def evalList (t : Table) : List Expr → Except Error (List Evaluated)
  | [] => .ok []
  | e :: r => do
    let v ← eval t e
    let vs ← evalList t r
    return v :: vs

end

/-! ## Uses -/

/-- One value for each row. -/
def evalRows (t : Table) (e : Expr) : Except Error (List Value) := return (← eval t e).spread t.size

/-- One value for the table as a whole; a column gives its first value. -/
def evalWhole (t : Table) (e : Expr) : Except Error Value := return (← eval t e).first

/-- A table with one column for each expression and as many rows as `t`. Only a table without
rows gives one row if all expressions contain aggregates and are scalars. -/
def evalTable (t : Table) (es : List Expr) : Except Error Table := do
  let vs ← evalList t es
  let collapsed := t.isEmpty && !es.isEmpty && es.all containsAggregate && vs.all Evaluated.isScalar
  let n := if collapsed then 1 else t.size
  Table.ofRows (labels es) (rowsOfColumns n (vs.map (Evaluated.spread n)))

end Expr

end TableQuery
