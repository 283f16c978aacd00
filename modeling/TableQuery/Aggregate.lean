/-
Aggregates: functions that reduce a column of values to one value.
-/
import TableQuery.Value

namespace TableQuery

inductive Aggregate where
  | count | countDistinct | sum | avg | min | max | first | last
  deriving DecidableEq, Repr

namespace Aggregate

/-- Keeps the earlier of two values unless the later one compares as `wanted` against it. -/
def extreme (wanted : Ordering) : Option Value → List Value → Except Error (Option Value)
  | best, [] => .ok best
  | none, v :: r => extreme wanted (some v) r
  | some b, v :: r => do
    let o ← v.compare b
    extreme wanted (some (if o = wanted then v else b)) r

/-- Adds up values that are not null; a single value is its own sum. -/
def total : Value → List Value → Except Error Value
  | acc, [] => .ok acc
  | acc, v :: r => do
    let acc ← if acc.isNull then pure v else acc.arith .add v
    total acc r

/-- The mean of the values and of those already added up and counted. -/
def average : Double → Nat → List Value → Except Error Value
  | _, 0, [] => .ok .null
  | acc, n, [] => .ok (.float (acc.div (.ofInt n)))
  | acc, n, v :: r =>
    match v.toDouble? with
    | some x => average (acc.add x) (n + 1) r
    | none => .error (.typeMismatch (.average v.kind))

/-- Nulls are passed over, except by `first` and `last`. -/
def reduce (op : Aggregate) (column : List Value) : Except Error Value :=
  let present := column.filter (!·.isNull)
  match op with
  | count => .ok (.int (Int64.ofNat present.length))
  | countDistinct => .ok (.int (Int64.ofNat (present.map Value.groupKey).eraseDups.length))
  | sum => do
    let s ← total .null present
    if s.isNull || s.toDouble?.isSome then return s
    else .error (.typeMismatch (.sum s.kind))
  | avg => average .zero 0 present
  | min => do return (← extreme .lt none present).getD .null
  | max => do return (← extreme .gt none present).getD .null
  | first => .ok (column.head?.getD .null)
  | last => .ok (column.getLast?.getD .null)

end Aggregate

end TableQuery
