/-
Computations that do not fail because of a star or of the shape of a table. This holds of all functions
of values: they fail because of kinds that do not fit, numbers out of range or a wrong number of arguments.
-/
import TableQuery.Proofs.Except
import TableQuery.Function

namespace TableQuery

/-- Not about a star, and about the numbers of rows and values of a table only under a condition. -/
@[simp] def Error.Within (shape : Prop) : Error → Prop
  | .wildcard _ => False
  | .shapeMismatch .. | .rowCountMismatch .. => shape
  | _ => True

/-- If there is an error, it is within the bounds that the condition sets. -/
def FailsWithin {α : Type} (shape : Prop) (x : Except Error α) : Prop := ∀ e, x = .error e → e.Within shape

variable {shape : Prop}

namespace FailsWithin

variable {α β : Type}

@[simp] theorem ok (a : α) : FailsWithin shape (.ok a) := fun _ h => by cases h

@[simp] theorem error_iff {e : Error} : FailsWithin shape (.error e : Except Error α) ↔ e.Within shape := by
  unfold FailsWithin
  simp

theorem bind {x : Except Error α} {f : α → Except Error β} (hx : FailsWithin shape x)
    (hf : ∀ a, x = .ok a → FailsWithin shape (f a)) : FailsWithin shape (x >>= f) := by
  cases x with
  | error e => exact error_iff.2 (error_iff.1 hx)
  | ok a => exact hf a rfl

theorem map {x : Except Error α} (hx : FailsWithin shape x) (f : α → β) : FailsWithin shape (x.map f) :=
  hx.bind (f := fun a => .ok (f a)) fun a _ => ok (f a)

theorem mapM {f : α → Except Error β} : ∀ {xs : List α}, (∀ x ∈ xs, FailsWithin shape (f x)) →
    FailsWithin shape (xs.mapM f)
  | [], _ => ok []
  | x :: xs, h => by
    rw [List.mapM_cons]
    refine (h x (List.mem_cons_self ..)).bind fun y _ => ?_
    exact (mapM fun x' hx => h x' (List.mem_cons_of_mem _ hx)).bind fun ys _ => ok (y :: ys)

theorem forM {f : α → Except Error Unit} : ∀ {xs : List α}, (∀ x ∈ xs, FailsWithin shape (f x)) →
    FailsWithin shape (xs.forM f)
  | [], _ => ok ()
  | x :: xs, h => by
    show FailsWithin shape (f x >>= fun _ => xs.forM f)
    exact (h x (List.mem_cons_self ..)).bind fun _ _ => forM fun x' hx => h x' (List.mem_cons_of_mem _ hx)

end FailsWithin

/-! ## Values -/

namespace Value

theorem failsWithin_truth (v : Value) : FailsWithin shape v.truth := by
  cases v <;> simp [truth]

theorem failsWithin_and (a b : Value) : FailsWithin shape (a.and b) := by
  unfold and
  refine a.failsWithin_truth.bind fun x _ => b.failsWithin_truth.bind fun y _ => ?_
  split <;> simp

theorem failsWithin_or (a b : Value) : FailsWithin shape (a.or b) := by
  unfold or
  refine a.failsWithin_truth.bind fun x _ => b.failsWithin_truth.bind fun y _ => ?_
  split <;> simp

theorem failsWithin_not (a : Value) : FailsWithin shape a.not := by
  unfold not
  exact a.failsWithin_truth.bind fun x _ => by simp

theorem failsWithin_compare (a b : Value) : FailsWithin shape (a.compare b) := by
  cases a <;> cases b <;> simp [compare, toDouble?]

theorem failsWithin_arith (op : ArithOp) (a b : Value) : FailsWithin shape (a.arith op b) := by
  unfold arith
  split
  · simp
  · cases a <;> cases b <;> simp [toDouble?]
    split <;> simp

theorem failsWithin_neg (a : Value) : FailsWithin shape a.neg := by
  cases a with
  | int i =>
    rw [neg]
    cases Integer.ofInt? (-i.toInt) <;> simp
  | _ => simp [neg]

end Value

/-! ## Scalar functions -/

namespace Scalar

theorem failsWithin_relation (r : Relation) (a b : Value) : FailsWithin shape (applyRelation r a b) := by
  unfold applyRelation
  split
  · simp
  · exact (a.failsWithin_compare b).bind fun o _ => by simp

theorem failsWithin_like (a b : Value) : FailsWithin shape (applyLike a b) := by
  cases a <;> cases b <;> simp [applyLike]

theorem failsWithin_abs (a : Value) : FailsWithin shape (applyAbs a) := by
  cases a with
  | int i =>
    rw [applyAbs]
    cases Integer.ofInt? i.toInt.natAbs <;> simp
  | _ => simp [applyAbs]

theorem failsWithin_precision (digits : List Value) : FailsWithin shape (precision digits) := by
  unfold precision
  split
  · simp
  · split <;> simp
  · simp

theorem failsWithin_round (digits : Int) (a : Value) : FailsWithin shape (applyRound digits a) := by
  cases a <;> simp [applyRound]

theorem failsWithin_whole (op : Scalar) (f : Double → Double) (a : Value) : FailsWithin shape (applyWhole op f a) := by
  cases a <;> simp [applyWhole]

theorem failsWithin_sqrt (a : Value) : FailsWithin shape (applySqrt a) := by
  cases a <;> simp [applySqrt, Value.toDouble?]

theorem failsWithin_text (op : Scalar) (f : String → Value) (a : Value) : FailsWithin shape (applyText op f a) := by
  cases a <;> simp [applyText]

theorem failsWithin_nullIf (a b : Value) : FailsWithin shape (applyNullIf a b) := by
  unfold applyNullIf
  split
  · simp
  · exact (a.failsWithin_compare b).bind fun o _ => by split <;> simp

theorem failsWithin_toInt (a : Value) : FailsWithin shape (applyToInt a) := by
  cases a with
  | float x =>
    rw [applyToInt]
    split <;> simp
  | text s =>
    rw [applyToInt]
    cases Integer.ofText? (Text.trim s) <;> simp
  | _ => simp [applyToInt]

theorem failsWithin_toFloat (a : Value) : FailsWithin shape (applyToFloat a) := by
  cases a with
  | text s =>
    rw [applyToFloat]
    cases Double.ofText? (Text.trim s) <;> simp
  | _ => simp [applyToFloat]

theorem failsWithin_apply (op : Scalar) (args : List Value) : FailsWithin shape (op.apply args) := by
  unfold apply
  split
  · exact Value.failsWithin_arith _ _ _
  · exact Value.failsWithin_neg _
  · exact failsWithin_relation _ _ _
  · exact Value.failsWithin_and _ _
  · exact Value.failsWithin_or _ _
  · exact Value.failsWithin_not _
  · simp
  · exact failsWithin_like _ _
  · simp
  · exact failsWithin_abs _
  · exact (failsWithin_precision _).bind fun n _ => failsWithin_round n _
  · exact failsWithin_whole _ _ _
  · exact failsWithin_whole _ _ _
  · exact failsWithin_sqrt _
  · exact failsWithin_text _ _ _
  · exact failsWithin_text _ _ _
  · exact failsWithin_text _ _ _
  · exact failsWithin_text _ _ _
  · simp
  · simp
  · exact failsWithin_nullIf _ _
  · exact failsWithin_toInt _
  · exact failsWithin_toFloat _
  · simp
  · simp

end Scalar

/-! ## Aggregates -/

namespace Aggregate

theorem failsWithin_extreme (wanted : Ordering) : ∀ (vs : List Value) (best : Option Value),
    FailsWithin shape (extreme wanted best vs)
  | [], best => by simp [extreme]
  | v :: r, none => by
    rw [extreme]
    exact failsWithin_extreme wanted r (some v)
  | v :: r, some b => by
    rw [extreme]
    exact (v.failsWithin_compare b).bind fun o _ => failsWithin_extreme wanted r _

theorem failsWithin_total : ∀ (vs : List Value) (acc : Value), FailsWithin shape (total acc vs)
  | [], acc => by simp [total]
  | v :: r, acc => by
    rw [total]
    by_cases h : acc.isNull = true
    · rw [if_pos h]
      exact failsWithin_total r v
    · rw [if_neg h]
      exact (acc.failsWithin_arith .add v).bind fun s _ => failsWithin_total r s

theorem failsWithin_average : ∀ (vs : List Value) (acc : Double) (n : Nat), FailsWithin shape (average acc n vs)
  | [], acc, 0 => by simp [average]
  | [], acc, n + 1 => by simp [average]
  | v :: r, acc, n => by
    rw [average]
    cases v.toDouble? with
    | some x => exact failsWithin_average r (acc.add x) (n + 1)
    | none => simp

theorem failsWithin_reduce (op : Aggregate) (column : List Value) : FailsWithin shape (op.reduce column) := by
  cases op with
  | sum =>
    refine (failsWithin_total _ .null).bind fun s _ => ?_
    split <;> simp
  | avg => exact failsWithin_average _ .zero 0
  | min => exact (failsWithin_extreme .lt _ none).bind fun v _ => by simp
  | max => exact (failsWithin_extreme .gt _ none).bind fun v _ => by simp
  | _ => simp [reduce]

end Aggregate

theorem Function.failsWithin_checkArity (f : Function) (n : Nat) : FailsWithin shape (f.checkArity n) := by
  unfold checkArity
  split <;> simp

end TableQuery
