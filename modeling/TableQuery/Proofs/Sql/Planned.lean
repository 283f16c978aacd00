/-
The values of what expressions are planned as. A list is planned as a chain of disjunctions, a minus
before a literal as another literal, and operators and calls as calls of functions. Each of these has
the value that is made of the values of its parts, and calls an aggregate only if one of its parts does.
-/
import TableQuery.Proofs.Sql.Meaning
import TableQuery.Proofs.Expr.Rowwise
import TableQuery.Proofs.Number.Integer

namespace TableQuery

/-! ## Planned operators -/

namespace Expr

variable {T : Table} {row : Row} {e x y : Expr} {a b v w : Value} {o p : Option Bool}

theorem value?_unary (op : Scalar) (h : op.arity.accepts 1 = true) (hx : x.value? T row = some a) :
    (call op.name [x]).value? T row = (op.apply [a]).toOption := by
  rw [value?_scalar op.lookup_name, List.length_singleton, if_pos h, List.mapM_cons, hx]
  rfl

theorem value?_binary (op : Scalar) (h : op.arity.accepts 2 = true) (hx : x.value? T row = some a)
    (hy : y.value? T row = some b) : (binary op.name x y).value? T row = (op.apply [a, b]).toOption := by
  rw [binary, value?_scalar op.lookup_name, List.length_cons, List.length_singleton, if_pos h, List.mapM_cons,
    List.mapM_cons, hx, hy]
  rfl

/-- A call of a scalar function has no value where one of its arguments has none. -/
theorem value?_call_eq_none (op : Scalar) {args : List Expr} (hx : x ∈ args) (h : x.value? T row = none) :
    (call op.name args).value? T row = none := by
  rw [value?_scalar op.lookup_name, mapM_eq_none hx h]
  simp

theorem value?_relation (r : Relation) (hx : x.value? T row = some a) (hy : y.value? T row = some b) :
    (binary r.symbol x y).value? T row = (Value.relate? r a b).map .ofTruth :=
  (value?_binary (.relation r) rfl hx hy).trans (Value.toOption_applyRelation r a b)

theorem value?_and (hx : x.value? T row = some (.ofTruth o)) (hy : y.value? T row = some (.ofTruth p)) :
    (binary "and" x y).value? T row = some (.ofTruth (Kleene.and o p)) := by
  refine (value?_binary .and rfl hx hy).trans ?_
  show ((Value.ofTruth o).and (Value.ofTruth p)).toOption = _
  rw [Value.and_ofTruth]
  rfl

/-- A disjunction has a value where both sides have one. -/
theorem value?_or {o p : Option (Option Bool)} (hx : x.value? T row = o.map .ofTruth)
    (hy : y.value? T row = p.map .ofTruth) :
    (binary "or" x y).value? T row = (o.bind fun o => p.map (Kleene.or o)).map .ofTruth := by
  rcases o with _ | o
  · exact value?_call_eq_none .or (List.mem_cons_self ..) hx
  rcases p with _ | p
  · exact value?_call_eq_none .or (by simp) hy
  · refine (value?_binary .or rfl hx hy).trans ?_
    show ((Value.ofTruth o).or (Value.ofTruth p)).toOption = _
    rw [Value.or_ofTruth]
    rfl

theorem value?_not (hx : x.value? T row = some a) (h : a.truth.toOption = some o) :
    x.negate.value? T row = some (.ofTruth (Kleene.not o)) := by
  refine (value?_unary .not rfl hx).trans ?_
  show a.not.toOption = _
  unfold Value.not
  rcases ht : a.truth with fault | p
  · rw [ht] at h
    cases h
  · rw [ht] at h
    cases h
    rfl

theorem value?_negateIf (negated : Bool) (hx : x.value? T row = some (.ofTruth o)) :
    (negateIf negated x).value? T row = some (.ofTruth (Kleene.notIf negated o)) := by
  cases negated with
  | false => exact hx
  | true => exact value?_not hx (congrArg Except.toOption (Value.truth_ofTruth o))

/-- A minus before a literal is part of the literal where it has a value. -/
theorem value?_minus (hx : x.value? T row = some v) (h : v.neg.toOption = some w) : x.minus.value? T row = some w := by
  have hcall : (call "neg" [x]).value? T row = some w := (value?_unary .neg rfl hx).trans h
  cases x with
  | lit u =>
    rw [value?] at hx
    cases hx
    cases v with
    | int i =>
      -- the planned literal wraps around where the negation overflows, and then there is no `w`
      rw [minus, value?]
      rw [Value.neg] at h
      rcases hneg : Integer.ofInt? (-i.toInt) with _ | j
      · rw [hneg] at h
        cases h
      · rw [hneg, Integer.eq_neg_of_ofInt? hneg] at h
        exact h
    | float d =>
      cases h
      rw [minus, value?]
    | _ => exact hcall
  | _ => exact hcall

theorem value?_foldl_or (hx : x.value? T row = some a) {es : List Expr} {vs : List Value} {acc : Expr}
    {o : Option (Option Bool)} (hes : List.Forall₂ (fun e v => e.value? T row = some v) es vs)
    (hacc : acc.value? T row = o.map .ofTruth) :
    (es.foldl (fun acc e => binary "or" acc (binary "=" x e)) acc).value? T row =
      (o.bind fun o => (vs.mapM (Value.relate? .eq a)).map fun os => os.foldl Kleene.or o).map .ofTruth := by
  induction hes generalizing o acc with
  | nil =>
    refine hacc.trans ?_
    cases o <;> rfl
  | @cons e v es vs he _ ih =>
    have hstep := ih (value?_or hacc (value?_relation .eq hx he))
    rw [List.foldl_cons]
    refine hstep.trans ?_
    rw [List.mapM_cons]
    cases o <;> cases Value.relate? .eq a v <;> cases vs.mapM (Value.relate? .eq a) <;> rfl

/-- A test of membership has a value where the value can be compared with all elements. -/
theorem value?_anyEqual (negated : Bool) {es : List Expr} {vs : List Value} (hx : x.value? T row = some a)
    (hes : List.Forall₂ (fun e v => e.value? T row = some v) es vs) :
    (anyEqual x negated es).value? T row = (Value.isAmong? a vs).map fun o => .ofTruth (Kleene.notIf negated o) := by
  cases hes with
  | nil =>
    -- a test of membership of nothing is planned as a truth value
    cases negated <;> rfl
  | @cons e v es vs he hes =>
    have hfold := value?_foldl_or hx hes (value?_relation .eq hx he)
    rw [← Value.isAmong?_cons] at hfold
    rcases ho : Value.isAmong? a (v :: vs) with _ | o
    · rw [ho] at hfold
      cases negated with
      | false => exact hfold
      | true => exact value?_call_eq_none .not (List.mem_singleton_self _) hfold
    · rw [ho] at hfold
      exact value?_negateIf negated hfold

theorem value?_lower {anyCase : Bool} (hx : x.value? T row = some a)
    (h : (if anyCase then (Scalar.lower.apply [a]).toOption else some a) = some b) :
    (if anyCase then call "lower" [x] else x).value? T row = some b := by
  cases anyCase with
  | false =>
    cases h
    exact hx
  | true => exact (value?_unary .lower rfl hx).trans h

theorem value?_like (hx : x.value? T row = some a) (hy : y.value? T row = some b) (h : Value.like? a b = some o) :
    (binary "like" x y).value? T row = some (.ofTruth o) := by
  refine (value?_binary .like rfl hx hy).trans ?_
  show (Scalar.applyLike a b).toOption = _
  cases a <;> cases b <;> cases h <;> rfl

/-- A test of membership is planned as a call, or as a truth value. -/
theorem anyEqual_cases (x : Expr) (negated : Bool) (es : List Expr) :
    (∃ name args, anyEqual x negated es = .call name args) ∨ ∃ b, anyEqual x negated es = .lit (.bool b) := by
  cases es with
  | nil => exact .inr ⟨negated, rfl⟩
  | cons e es =>
    have hcall : ∀ (es : List Expr) (acc : Expr), (∃ n as, acc = .call n as) →
        ∃ n as, es.foldl (fun acc e => binary "or" acc (binary "=" x e)) acc = .call n as := by
      intro es
      induction es with
      | nil => exact fun _ hacc => hacc
      | cons e es ih => exact fun _ _ => ih _ ⟨_, _, rfl⟩
    obtain ⟨n, as, hfold⟩ := hcall es (binary "=" x e) ⟨_, _, rfl⟩
    rw [anyEqual, hfold]
    cases negated
    · exact .inl ⟨n, as, rfl⟩
    · exact .inl ⟨_, _, rfl⟩

theorem noAggregate_unary (op : Scalar) (hx : x.containsAggregate = false) :
    (call op.name [x]).containsAggregate = false := by
  have hn : Function.isAggregateName op.name = false := Function.isAggregateName_name (.scalar op)
  simp only [containsAggregate, containsAggregates, hn, hx, Bool.or_false]

theorem noAggregate_binary (op : Scalar) (hx : x.containsAggregate = false) (hy : y.containsAggregate = false) :
    (binary op.name x y).containsAggregate = false := by
  have hn : Function.isAggregateName op.name = false := Function.isAggregateName_name (.scalar op)
  simp only [binary, containsAggregate, containsAggregates, hn, hx, hy, Bool.or_false]

theorem noAggregate_negateIf (negated : Bool) (hx : x.containsAggregate = false) :
    (negateIf negated x).containsAggregate = false := by
  cases negated with
  | false => exact hx
  | true => exact noAggregate_unary .not hx

theorem noAggregate_minus (hx : x.containsAggregate = false) : x.minus.containsAggregate = false := by
  have hcall := noAggregate_unary .neg hx
  cases x with
  | lit v => cases v <;> rfl
  | _ => exact hcall

theorem noAggregate_anyEqual (negated : Bool) (hx : x.containsAggregate = false) {es : List Expr}
    (hes : containsAggregates es = false) : (anyEqual x negated es).containsAggregate = false := by
  have hequal : ∀ {y : Expr}, y.containsAggregate = false → (binary "=" x y).containsAggregate = false := fun hy =>
    noAggregate_binary (.relation .eq) hx hy
  have hfold : ∀ (es : List Expr) (acc : Expr), containsAggregates es = false → acc.containsAggregate = false →
      (es.foldl (fun acc e => binary "or" acc (binary "=" x e)) acc).containsAggregate = false := by
    intro es
    induction es with
    | nil => exact fun _ _ hacc => hacc
    | cons e es ih =>
      intro acc hes hacc
      rw [containsAggregates, Bool.or_eq_false_iff] at hes
      exact ih _ hes.2 (noAggregate_binary .or hacc (hequal hes.1))
  cases es with
  | nil => rfl
  | cons e es =>
    rw [containsAggregates, Bool.or_eq_false_iff] at hes
    exact noAggregate_negateIf negated (hfold es _ hes.2 (hequal hes.1))

end Expr

namespace Sql

/-! ## Operators and calls -/

/-- An operator is planned as a function of two arguments that has its values. -/
theorem BinaryOp.function_ok {op : BinaryOp} {f : String} (h : op.function = .ok f) :
    ∃ s : Scalar, f = s.name ∧ s.arity.accepts 2 = true ∧ ∀ a b, (s.apply [a, b]).toOption = op.value? a b := by
  cases op with
  | arith o =>
    cases h
    exact ⟨.arith o, rfl, rfl, fun _ _ => rfl⟩
  | relation r =>
    cases h
    exact ⟨.relation r, rfl, rfl, Value.toOption_applyRelation r⟩
  | and =>
    cases h
    refine ⟨.and, rfl, rfl, fun a b => ?_⟩
    show (a.and b).toOption = _
    rw [Value.and_eq, BinaryOp.value?]
    cases a.truth <;> cases b.truth <;> rfl
  | or =>
    cases h
    refine ⟨.or, rfl, rfl, fun a b => ?_⟩
    show (a.or b).toOption = _
    rw [Value.or_eq, BinaryOp.value?]
    cases a.truth <;> cases b.truth <;> rfl
  | join =>
    cases h
    exact ⟨.join, rfl, rfl, fun _ _ => rfl⟩
  | other s => cases h

theorem BinaryOp.exists_function {op : BinaryOp} {a b v : Value} (h : op.value? a b = some v) :
    ∃ f, op.function = .ok f := by
  cases op with
  | other s => cases h
  | _ => exact ⟨_, rfl⟩

theorem CastTarget.function_eq (c : CastTarget) : c.function = c.scalar.name := by
  cases c <;> rfl

theorem planCall_iff {name : String} {distinct : Bool} {args : List Expr} {e : Expr} :
    planCall name distinct args = .ok e ↔
      ∃ f, (functionName name distinct).toOption.bind Function.lookup = some f ∧
        f.arity.accepts args.length = true ∧ e = .call f.name args := by
  unfold planCall
  rcases functionName name distinct with fault | f
  · constructor
    · intro h
      cases h
    · rintro ⟨f, hf, -, -⟩
      cases hf
  · have hlookup : (Except.ok f : Except TermFault String).toOption.bind Function.lookup = Function.lookup f := rfl
    rw [hlookup]
    simp only [Except.mapError, ok_bind]
    rcases Function.lookup f with _ | callee
    · constructor
      · intro h
        cases h
      · rintro ⟨g, hg, -, -⟩
        cases hg
    · simp only [Function.checkArity]
      by_cases ha : callee.arity.accepts args.length
      · rw [if_pos ha]
        constructor
        · intro h
          cases h
          exact ⟨callee, rfl, ha, rfl⟩
        · rintro ⟨g, hg, -, rfl⟩
          cases hg
          rfl
      · rw [if_neg ha]
        constructor
        · intro h
          cases h
        · rintro ⟨g, hg, hga, -⟩
          cases hg
          exact absurd hga ha

theorem CastTarget.accepts_scalar (c : CastTarget) : c.scalar.arity.accepts 1 = true := by
  cases c <;> rfl

/-- A call is planned as a call of the function that it names, if this takes so many arguments. -/
theorem plan_call_iff {name : Name} {form : CallForm} {args : List Arg} {e : Expr} :
    (Term.call name form args).plan = .ok e ↔ ∃ f es, callee? name form = some f ∧
      planArgs (Text.lower (Name.spelling name)) args = .ok es ∧ f.arity.accepts es.length = true ∧
      e = .call f.name es := by
  rw [Term.plan]
  unfold callee?
  cases hw : form.windowed with
  | true => simp
  | false =>
    cases hf : form.filtered with
    | true => simp
    | false =>
      simp only [Bool.false_eq_true, if_false, Bool.or_self]
      constructor
      · intro h
        obtain ⟨es, hes, h⟩ := bind_ok h
        obtain ⟨f, hf, ha, rfl⟩ := planCall_iff.1 h
        exact ⟨f, es, hf, hes, ha, rfl⟩
      · rintro ⟨f, es, hf, hes, ha, rfl⟩
        rw [hes, ok_bind]
        exact planCall_iff.2 ⟨f, hf, ha, rfl⟩

theorem length_planArgs {f : String} : ∀ {args : List Arg} {es : List Expr}, planArgs f args = .ok es →
    es.length = args.length
  | [], es, h => by
    rw [planArgs] at h
    cases h
    rfl
  | .term t :: args, es, h => by
    rw [planArgs] at h
    obtain ⟨x, -, h⟩ := bind_ok h
    obtain ⟨xs, hxs, h⟩ := bind_ok h
    cases h
    exact congrArg (· + 1) (length_planArgs hxs)
  | .star :: args, es, h => by
    rw [planArgs] at h
    obtain ⟨xs, hxs, h⟩ := bind_ok h
    cases h
    exact congrArg (· + 1) (length_planArgs hxs)
  | .other s :: args, es, h => by
    rw [planArgs] at h
    cases h

end Sql

end TableQuery
