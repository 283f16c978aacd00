/-
Tests of membership that fail. A value stands beside others of which one is of a different class. Then the
disjunction of equations has no value, even if one of the equations holds, and its evaluation reports the
kinds of two values that cannot be compared.
-/
import TableQuery.Proofs.Sql.Planned

namespace TableQuery

theorem Scalar.applyRelation_error {r : Relation} {a b : Value} {f : Error} (h : applyRelation r a b = .error f) :
    a.comparable b = false ∧ f = .typeMismatch (.compare a.kind b.kind) := by
  have hnone : Value.relate? r a b = none := by
    have hoption := Value.toOption_applyRelation r a b
    rw [h] at hoption
    simpa [Except.toOption] using hoption.symm
  refine ⟨Value.relate?_eq_none_iff.1 hnone, ?_⟩
  unfold applyRelation at h
  split at h
  · cases h
  · rcases bind_error h with hcompare | ⟨o, -, ho⟩
    · cases a <;> cases b <;> cases hcompare <;> rfl
    · cases ho

namespace Expr

variable {T : Table} {row : Row} {e x y : Expr} {args es : List Expr} {f : Error}

/-! ## Failures of calls -/

/-- On a table that has rows, an evaluation succeeds if there is a value on each of them. -/
theorem exists_eval_iff (hT : T.rows ≠ []) :
    (∃ x, eval T e = .ok x) ↔ ∀ row ∈ T.rows, ∃ v, e.value? T row = some v := by
  have hrows := evalRows_eq hT e
  rw [toOption_evalRows] at hrows
  constructor
  · rintro ⟨x, hx⟩ row hr
    rw [hx] at hrows
    obtain ⟨v, -, hv⟩ := exists_right_of_forall₂ (mapM_eq_some.1 hrows.symm) row hr
    exact ⟨v, hv⟩
  · intro h
    rcases hx : eval T e with fault | x
    · rw [hx] at hrows
      obtain ⟨row, hr, hn⟩ := exists_of_mapM_none hrows.symm
      obtain ⟨v, hv⟩ := h row hr
      rw [hn] at hv
      cases hv
    · exact ⟨x, rfl⟩

theorem applyScalar_error {op : Scalar} {n : Nat} {xs : List Evaluated} (h : applyScalar op n xs = .error f) :
    ∃ vs, vs.length = xs.length ∧ op.apply vs = .error f := by
  unfold applyScalar at h
  split at h
  · rcases bind_error h with h | ⟨v, -, h⟩
    · exact ⟨_, List.length_map _, h⟩
    · cases h
  · rcases bind_error h with h | ⟨vs, -, h⟩
    · obtain ⟨vs, hvs, h⟩ := exists_of_mapM_error h
      exact ⟨vs, by rw [length_of_mem_rowsOfColumns hvs, List.length_map], h⟩
    · cases h

/-- A call fails where an argument fails, or where the function fails on values. -/
theorem eval_call_error (op : Scalar) (ha : op.arity.accepts args.length = true)
    (h : eval T (.call op.name args) = .error f) :
    (∃ e ∈ args, eval T e = .error f) ∨
      (∀ e ∈ args, ∃ x, eval T e = .ok x) ∧ ∃ vs, vs.length = args.length ∧ op.apply vs = .error f := by
  rw [eval_scalar op.lookup_name, if_pos ha] at h
  rcases bind_error h with h | ⟨xs, hxs, h⟩
  · rw [evalList_eq] at h
    exact .inl (exists_of_mapM_error h)
  · obtain ⟨vs, hvs, h⟩ := applyScalar_error h
    rw [length_evalList hxs] at hvs
    rw [evalList_eq] at hxs
    exact .inr ⟨fun e he => (exists_of_mapM_ok hxs e he).imp fun x hx => hx.2, vs, hvs, h⟩

/-- A call that has a value wherever its arguments have one fails only where an argument fails. -/
theorem exists_error_of_call (hT : T.rows ≠ []) (op : Scalar) (ha : op.arity.accepts args.length = true)
    (hvalue : ∀ row ∈ T.rows, (∀ e ∈ args, ∃ v, e.value? T row = some v) →
      ∃ v, (call op.name args).value? T row = some v)
    (h : eval T (.call op.name args) = .error f) : ∃ e ∈ args, eval T e = .error f := by
  rcases eval_call_error op ha h with he | ⟨hargs, -⟩
  · exact he
  · have hrows : ∀ row ∈ T.rows, ∃ v, (call op.name args).value? T row = some v := fun row hr =>
      hvalue row hr fun e he => (exists_eval_iff hT).1 (hargs e he) row hr
    obtain ⟨x, hx⟩ := (exists_eval_iff hT).2 hrows
    rw [h] at hx
    cases hx

/-! ## Tests -/

/-- The values are truth values, and an evaluation fails only on a comparison of two values of different
classes. -/
structure IsTest (T : Table) (e : Expr) : Prop where
  value : ∀ row ∈ T.rows, ∃ o : Option (Option Bool), e.value? T row = o.map .ofTruth
  fault : ∀ f, eval T e = .error f → ∃ a b : Value, a.comparable b = false ∧ f = .typeMismatch (.compare a.kind b.kind)

theorem IsTest.truth {v : Value} (h : IsTest T e) (hr : row ∈ T.rows) (hv : e.value? T row = some v) :
    ∃ o, v = .ofTruth o := by
  obtain ⟨o, ho⟩ := h.value row hr
  rw [ho] at hv
  obtain ⟨p, -, rfl⟩ := Option.map_eq_some_iff.1 hv
  exact ⟨p, rfl⟩

theorem IsTest.relation (hT : T.rows ≠ []) (r : Relation) (hx : ∀ row ∈ T.rows, ∃ v, x.value? T row = some v)
    (hy : ∀ row ∈ T.rows, ∃ v, y.value? T row = some v) : IsTest T (binary r.symbol x y) where
  value row hr := by
    obtain ⟨a, ha⟩ := hx row hr
    obtain ⟨b, hb⟩ := hy row hr
    exact ⟨_, value?_relation r ha hb⟩
  fault f h := by
    rcases eval_call_error (.relation r) rfl h with hfail | ⟨-, vs, hlen, hfail⟩
    · -- both sides have values, so neither of them fails
      obtain ⟨u, hu⟩ := (exists_eval_iff hT).2 hx
      obtain ⟨w, hw⟩ := (exists_eval_iff hT).2 hy
      simp [hu, hw] at hfail
    · obtain ⟨a, b, rfl⟩ := List.length_eq_two.1 hlen
      exact ⟨a, b, Scalar.applyRelation_error hfail⟩

theorem IsTest.or (hT : T.rows ≠ []) (hx : IsTest T x) (hy : IsTest T y) : IsTest T (binary "or" x y) where
  value row hr := by
    obtain ⟨o, ho⟩ := hx.value row hr
    obtain ⟨p, hp⟩ := hy.value row hr
    exact ⟨_, value?_or ho hp⟩
  fault f h := by
    have hvalue : ∀ row ∈ T.rows, (∀ e ∈ [x, y], ∃ v, e.value? T row = some v) →
        ∃ v, (binary "or" x y).value? T row = some v := by
      intro row hr hargs
      obtain ⟨a, ha⟩ := hargs x (by simp)
      obtain ⟨b, hb⟩ := hargs y (by simp)
      obtain ⟨o, rfl⟩ := hx.truth hr ha
      obtain ⟨p, rfl⟩ := hy.truth hr hb
      exact ⟨_, value?_or (o := some o) (p := some p) ha hb⟩
    have hside : eval T x = .error f ∨ eval T y = .error f := by simpa using exists_error_of_call hT .or rfl hvalue h
    rcases hside with hfail | hfail
    · exact hx.fault f hfail
    · exact hy.fault f hfail

theorem IsTest.not (hT : T.rows ≠ []) (hx : IsTest T x) : IsTest T x.negate where
  value row hr := by
    obtain ⟨_ | o, ho⟩ := hx.value row hr
    · exact ⟨none, value?_call_eq_none .not (List.mem_singleton_self _) ho⟩
    · exact ⟨some (Kleene.not o), value?_negateIf true ho⟩
  fault f h := by
    have hvalue : ∀ row ∈ T.rows, (∀ e ∈ [x], ∃ v, e.value? T row = some v) → ∃ v, x.negate.value? T row = some v := by
      intro row hr hargs
      obtain ⟨a, ha⟩ := hargs x (List.mem_singleton_self _)
      obtain ⟨o, rfl⟩ := hx.truth hr ha
      exact ⟨_, value?_negateIf true ha⟩
    have hfail : eval T x = .error f := by simpa using exists_error_of_call hT .not rfl hvalue h
    exact hx.fault f hfail

/-- A chain of disjunctions of tests is a test. -/
theorem IsTest.foldl_or (hT : T.rows ≠ []) (hx : ∀ row ∈ T.rows, ∃ v, x.value? T row = some v) {acc : Expr}
    (hes : ∀ e ∈ es, ∀ row ∈ T.rows, ∃ v, e.value? T row = some v) (hacc : IsTest T acc) :
    IsTest T (es.foldl (fun acc e => binary "or" acc (binary "=" x e)) acc) := by
  induction es generalizing acc with
  | nil => exact hacc
  | cons e es ih =>
    rw [List.forall_mem_cons] at hes
    have he : IsTest T (binary "=" x e) := .relation hT .eq hx hes.1
    exact ih hes.2 (hacc.or hT he)

theorem IsTest.anyEqual (hT : T.rows ≠ []) (negated : Bool) (hx : ∀ row ∈ T.rows, ∃ v, x.value? T row = some v)
    (hes : ∀ e ∈ es, ∀ row ∈ T.rows, ∃ v, e.value? T row = some v) : IsTest T (anyEqual x negated es) := by
  cases es with
  | nil =>
    rw [Expr.anyEqual]
    refine ⟨fun _ _ => ⟨some (some negated), by rw [value?]; rfl⟩, fun f h => ?_⟩
    rw [eval] at h
    cases h
  | cons e es =>
    rw [List.forall_mem_cons] at hes
    have htest := IsTest.foldl_or hT hx hes.2 (.relation hT .eq hx hes.1)
    cases negated with
    | false => exact htest
    | true => exact htest.not hT

end Expr

end TableQuery
