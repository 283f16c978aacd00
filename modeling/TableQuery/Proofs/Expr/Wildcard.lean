/-
Stars inside expressions. A star has a meaning only as the argument of a count, and in whatever letter
case this is written, it is the count that is called. So where no other star stands,

- an expression without aggregates has no star at all, and
- evaluation never comes upon a star, nor upon values that do not fit the shape of a table.
-/
import TableQuery.Proofs.Expr.Spelling
import TableQuery.Proofs.Fails

namespace TableQuery

/-! ## Counting -/

theorem Function.eq_count_of_sameLetters : ∀ f ∈ registry, Text.sameLetters f.name "count" = true →
    f = .aggregate .count := by
  decide

/-- The name of the count finds the count. -/
theorem Function.lookup_of_sameLetters {name : String} (h : Text.sameLetters name "count" = true) :
    lookup name = some (.aggregate .count) := by
  have hlower : Text.lowerAscii name = "count" := by
    rw [Text.lowerAscii, Text.sameLetters_iff.1 h]
    rfl
  unfold lookup
  rcases hf : registry.find? (·.name == name) with _ | f
  · rw [hf, hlower]
    rfl
  · have hn := List.find?_some hf
    have hname : f.name = name := beq_iff_eq.1 hn
    rw [hf, eq_count_of_sameLetters f (List.mem_of_find?_eq_some hf) (hname ▸ h)]
    rfl

namespace Expr

/-- A call takes a star only if it is a count. -/
theorem lookup_of_not_stray {name : String} (h : (call name [.wildcard]).hasStrayWildcard = false) :
    Function.lookup name = some (.aggregate .count) := by
  rw [hasStrayWildcard, Bool.not_eq_false'] at h
  exact Function.lookup_of_sameLetters h

/-! ## Expressions without aggregates -/

theorem containsAggregates_eq_any (es : List Expr) : containsAggregates es = es.any (·.containsAggregate) := by
  induction es with
  | nil => rfl
  | cons e es ih => rw [containsAggregates, List.any_cons, ih]

mutual

theorem wildcard_not_mem_leaves : ∀ e : Expr, e.hasStrayWildcard = false → e.containsAggregate = false →
    .wildcard ∉ leaves e
  | .lit _, _, _ => List.not_mem_nil
  | .column name, _, _ => by
    rw [leaves, List.mem_singleton]
    exact fun h => Token.noConfusion h
  | .wildcard, h, _ => by cases h
  | .call name args, h, ha => by
    rw [containsAggregate, Bool.or_eq_false_iff] at ha
    have hne : args ≠ [.wildcard] := by
      rintro rfl
      have hcount : Function.isAggregateName name = true := by
        rw [Function.isAggregateName, lookup_of_not_stray h]
        rfl
      exact Bool.noConfusion (ha.1.symm.trans hcount)
    rw [hasStrayWildcard_call hne] at h
    exact wildcard_not_mem_leavesOf args h ha.2

theorem wildcard_not_mem_leavesOf : ∀ es : List Expr, haveStrayWildcard es = false → containsAggregates es = false →
    .wildcard ∉ leavesOf es
  | [], _, _ => List.not_mem_nil
  | e :: es, h, ha => by
    rw [haveStrayWildcard, Bool.or_eq_false_iff] at h
    rw [containsAggregates, Bool.or_eq_false_iff] at ha
    rw [leavesOf, List.mem_append]
    rintro (hm | hm)
    · exact wildcard_not_mem_leaves e h.1 ha.1 hm
    · exact wildcard_not_mem_leavesOf es h.2 ha.2 hm

end

/-! ## Evaluation -/

variable {shape : Prop}

theorem failsWithin_applyScalar (op : Scalar) (rows : Nat) (args : List Evaluated) :
    FailsWithin shape (applyScalar op rows args) := by
  unfold applyScalar
  split
  · exact (op.failsWithin_apply _).bind fun v _ => by simp
  · exact (FailsWithin.mapM fun row _ => op.failsWithin_apply row).bind fun vs _ => by simp

variable {t : Table}

mutual

/-- Where no star is out of place, evaluation comes upon none. -/
theorem failsWithin_eval : ∀ e : Expr, e.hasStrayWildcard = false → FailsWithin shape (eval t e)
  | .lit v, _ => by simp [eval]
  | .column name, _ => by
    rw [eval]
    cases t.columnIndex? name <;> simp
  | .wildcard, h => by cases h
  | .call name args, h => by
    by_cases hw : args = [.wildcard]
    · -- a star as the only argument is counted
      subst hw
      rw [eval, lookup_of_not_stray h]
      simp [Function.checkArity, Function.arity, Arity.accepts, containsAggregate]
    · rw [hasStrayWildcard_call hw] at h
      have hl : FailsWithin shape (evalList t args) := failsWithin_evalList args h
      have h1 : ∀ arg, args = [arg] → FailsWithin shape (eval t arg) := by
        rintro arg rfl
        rw [haveStrayWildcard, Bool.or_eq_false_iff] at h
        exact failsWithin_eval arg h.1
      rw [eval]
      cases Function.lookup name with
      | none => simp
      | some f =>
        refine (f.failsWithin_checkArity _).bind fun _ _ => ?_
        split
        · split
          · simp
          · split
            · simp
            · exact absurd rfl hw
            · exact (h1 _ rfl).bind fun x _ => (Aggregate.failsWithin_reduce _ _).bind fun v _ => by simp
        · simp
        · exact hl.bind fun vs _ => failsWithin_applyScalar _ _ vs

theorem failsWithin_evalList : ∀ es : List Expr, haveStrayWildcard es = false → FailsWithin shape (evalList t es)
  | [], _ => by simp [evalList]
  | e :: es, h => by
    rw [haveStrayWildcard, Bool.or_eq_false_iff] at h
    rw [evalList]
    exact (failsWithin_eval e h.1).bind fun v _ => (failsWithin_evalList es h.2).bind fun vs _ => by simp

end

theorem haveStrayWildcard_of_forall : ∀ {es : List Expr}, (∀ e ∈ es, e.hasStrayWildcard = false) →
    haveStrayWildcard es = false
  | [], _ => rfl
  | e :: es, h => by
    rw [haveStrayWildcard, h e (List.mem_cons_self ..), haveStrayWildcard_of_forall fun f hf => h f (List.mem_cons_of_mem _ hf)]
    rfl

theorem failsWithin_evalRows {e : Expr} (h : e.hasStrayWildcard = false) : FailsWithin shape (evalRows t e) :=
  (failsWithin_eval e h).bind fun x _ => by simp

theorem failsWithin_evalWhole {e : Expr} (h : e.hasStrayWildcard = false) : FailsWithin shape (evalWhole t e) :=
  (failsWithin_eval e h).bind fun x _ => by simp

/-- The rows of the values always pass their check. -/
theorem failsWithin_evalTable {es : List Expr} (h : ∀ e ∈ es, e.hasStrayWildcard = false) :
    FailsWithin shape (evalTable t es) := by
  unfold evalTable
  refine (failsWithin_evalList es (haveStrayWildcard_of_forall h)).bind fun vs hvs => ?_
  simp only
  rw [ofRows_rowsOfColumns _ (by rw [List.length_map, length_evalList hvs, length_labels])]
  exact FailsWithin.ok _

end Expr

end TableQuery
