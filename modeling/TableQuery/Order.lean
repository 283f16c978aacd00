/-
Ordering of rows by key expressions, and of tables by keys that are evaluated on each table as a
whole. Both sorts are stable.
-/
import TableQuery.Expr.Eval

namespace TableQuery

inductive Direction where
  | asc | desc
  deriving DecidableEq, Repr

structure OrderKey where
  expr : Expr
  direction : Direction
  deriving DecidableEq

namespace Order

/-! ## Stable sorting -/

/-- Puts `x` behind the elements of a descending list that it is less than. -/
def insertDescending {α : Type} (less : α → α → Bool) (x : α) : List α → List α
  | [] => [x]
  | y :: ys => if less x y then y :: insertDescending less x ys else x :: y :: ys

/-- Lists of up to twenty elements are sorted by insertion, longer ones by merging. -/
def stableSort {α : Type} (less : α → α → Bool) (xs : List α) : List α :=
  if xs.length ≤ 20 then (xs.foldl (fun acc x => insertDescending less x acc) []).reverse
  else xs.mergeSort fun a b => !less b a

/-! ## Keys -/

/-- Whether two values are of one class: truth values, numbers or texts. -/
def sameClass : Value → Value → Bool
  | .bool _, .bool _ => true
  | .int _, .int _ | .int _, .float _ | .float _, .int _ | .float _, .float _ => true
  | .text _, .text _ => true
  | _, _ => false

/-- Fails at the first value of another class than the first one; nulls order against all. -/
def checkComparable (vs : List Value) : Except Error Unit :=
  match vs.filter (!·.isNull) with
  | [] => .ok ()
  | first :: r =>
    match r.find? (!sameClass first ·) with
    | some v => .error (.typeMismatch (.order first.kind v.kind))
    | none => .ok ()

def Direction.apply : Direction → Ordering → Ordering
  | .asc, o => o
  | .desc, o => o.swap

/-- Lexicographic order, each key in its direction. -/
def compareKeys : List Direction → List Value → List Value → Ordering
  | d :: ds, x :: xs, y :: ys =>
    let o := match x.compare y with
      | .ok o => o
      | .error _ => .eq
    (Direction.apply d o).then (compareKeys ds xs ys)
  | _, _, _ => .eq

def directions (keys : List OrderKey) : List Direction := keys.map (·.direction)

def keyLess (keys : List OrderKey) (x y : List Value) : Bool := (compareKeys (directions keys) x y).isLT

/-! ## Rows -/

/-- Sorts by the last columns, one for each key, and gives the first `keep` columns. -/
def sortTrailing (keys : List OrderKey) (t : Table) (keep : Nat) : Except Error Table := do
  if t.width < keys.length then throw (.shapeMismatch keys.length t.width)
  let start := t.width - keys.length
  (List.range' start keys.length).forM fun i => checkComparable (t.column i)
  let rows := stableSort (fun a b => keyLess keys (a.drop start) (b.drop start)) t.rows
  return (← Table.ofRows t.fields rows).sliceColumns 0 keep

/-- Sorts the rows by the keys evaluated for each of them. -/
def sortRows (keys : List OrderKey) (t : Table) : Except Error Table := do
  if keys.isEmpty then return t
  let columns ← keys.mapM fun k => Expr.evalRows t k.expr
  let keyed ← t.chain (← Table.ofRows (keys.map (·.expr.label)) (rowsOfColumns t.size columns))
  sortTrailing keys keyed t.width

/-! ## Tables -/

/-- Sorts tables by the keys evaluated on each as a whole; fewer than two need no key. -/
def sortTables (keys : List OrderKey) (ts : List Table) : Except Error (List Table) := do
  if keys.isEmpty || ts.length < 2 then return ts
  let keyed ← ts.mapM fun t => do return (← keys.mapM fun k => Expr.evalWhole t k.expr, t)
  (List.range keys.length).forM fun i => checkComparable (keyed.map fun p => p.1.getD i .null)
  return (stableSort (fun a b => keyLess keys a.1 b.1) keyed).map (·.2)

end Order

end TableQuery
