/-
Planning keeps meaning. On a table that has rows, a written expression that has a value on each of them
has a plan, and the plan is evaluated to these values. A test whether a value is in a list has no value
where an element is of another class, and its plan fails there.
-/
import TableQuery.Proofs.Sql.Membership

namespace TableQuery

namespace Sql

/-! ## Plans -/

mutual

theorem noAggregate_plan : ∀ (t : Term) {e : Expr}, t.plan = .ok e → t.hasAggregate = false →
    e.containsAggregate = false
  | .column i, e, h, _ => by
    rw [Term.plan] at h
    cases h
    rfl
  | .path parts, e, h, _ => by
    match parts, h with
    | [_, i], h =>
      rw [Term.plan] at h
      cases h
      rfl
    | [], h | [_], h | _ :: _ :: _ :: _, h => simp [Term.plan] at h
  | .literal l, e, h, _ => by
    rw [Term.plan] at h
    split at h <;> cases h
    rfl
  | .parens t, e, h, hn => noAggregate_plan t (by rwa [Term.plan] at h) (by rwa [Term.hasAggregate] at hn)
  | .unary .plus t, e, h, hn => noAggregate_plan t (by rwa [Term.plan] at h) (by rwa [Term.hasAggregate] at hn)
  | .unary .minus t, e, h, hn => by
    rw [Term.plan] at h
    rw [Term.hasAggregate] at hn
    obtain ⟨x, hx, h⟩ := bind_ok h
    cases h
    exact Expr.noAggregate_minus (noAggregate_plan t hx hn)
  | .unary .not t, e, h, hn => by
    rw [Term.plan] at h
    rw [Term.hasAggregate] at hn
    obtain ⟨x, hx, h⟩ := bind_ok h
    cases h
    exact Expr.noAggregate_unary .not (noAggregate_plan t hx hn)
  | .binary op l r, e, h, hn => by
    rw [Term.plan] at h
    rw [Term.hasAggregate, Bool.or_eq_false_iff] at hn
    rcases hf : op.function with fault | f
    · rw [hf] at h
      cases h
    · rw [hf] at h
      obtain ⟨x, hx, h⟩ := bind_ok h
      obtain ⟨y, hy, h⟩ := bind_ok h
      cases h
      obtain ⟨s, rfl, -, -⟩ := BinaryOp.function_ok hf
      exact Expr.noAggregate_binary s (noAggregate_plan l hx hn.1) (noAggregate_plan r hy hn.2)
  | .isNull negated t, e, h, hn => by
    rw [Term.plan] at h
    rw [Term.hasAggregate] at hn
    obtain ⟨x, hx, h⟩ := bind_ok h
    cases h
    exact Expr.noAggregate_negateIf negated (Expr.noAggregate_unary .isNull (noAggregate_plan t hx hn))
  | .between negated t low high, e, h, hn => by
    rw [Term.plan] at h
    rw [Term.hasAggregate, Bool.or_eq_false_iff, Bool.or_eq_false_iff] at hn
    obtain ⟨x, hx, h⟩ := bind_ok h
    obtain ⟨l, hl, h⟩ := bind_ok h
    obtain ⟨u, hu, h⟩ := bind_ok h
    cases h
    have hx' := noAggregate_plan t hx hn.1.1
    exact Expr.noAggregate_negateIf negated (Expr.noAggregate_binary .and
      (Expr.noAggregate_binary (.relation .ge) hx' (noAggregate_plan low hl hn.1.2))
      (Expr.noAggregate_binary (.relation .le) hx' (noAggregate_plan high hu hn.2)))
  | .inList negated t items, e, h, hn => by
    rw [Term.plan] at h
    rw [Term.hasAggregate, Bool.or_eq_false_iff] at hn
    obtain ⟨x, hx, h⟩ := bind_ok h
    obtain ⟨es, hes, h⟩ := bind_ok h
    cases h
    exact Expr.noAggregate_anyEqual negated (noAggregate_plan t hx hn.1) (noAggregates_planAll items hes hn.2)
  | .like form t pattern, e, h, hn => by
    -- in any letter case both sides are planned in lower case
    rw [Term.plan] at h
    rw [Term.hasAggregate, Bool.or_eq_false_iff] at hn
    obtain ⟨x, hx, h⟩ := bind_ok h
    obtain ⟨y, hy, h⟩ := bind_ok h
    cases h
    have hx' := noAggregate_plan t hx hn.1
    have hy' := noAggregate_plan pattern hy hn.2
    refine Expr.noAggregate_negateIf form.negated (Expr.noAggregate_binary .like ?_ ?_)
    · split
      · exact Expr.noAggregate_unary .lower hx'
      · exact hx'
    · split
      · exact Expr.noAggregate_unary .lower hy'
      · exact hy'
  | .cast _ t type, e, h, hn => by
    rw [Term.plan, TypeName.function] at h
    rw [Term.hasAggregate] at hn
    rcases ht : type.target with _ | c
    · rw [ht] at h
      cases h
    · rw [ht] at h
      obtain ⟨x, hx, h⟩ := bind_ok h
      cases h
      rw [CastTarget.function_eq]
      exact Expr.noAggregate_unary c.scalar (noAggregate_plan t hx hn)
  | .rounded up t _, e, h, hn => by
    rw [Term.plan] at h
    rw [Term.hasAggregate] at hn
    obtain ⟨x, hx, h⟩ := bind_ok h
    cases h
    cases up with
    | true => exact Expr.noAggregate_unary .ceil (noAggregate_plan t hx hn)
    | false => exact Expr.noAggregate_unary .floor (noAggregate_plan t hx hn)
  | .trim t, e, h, hn => by
    rw [Term.plan] at h
    rw [Term.hasAggregate] at hn
    obtain ⟨x, hx, h⟩ := bind_ok h
    cases h
    exact Expr.noAggregate_unary .trim (noAggregate_plan t hx hn)
  | .call name form args, e, h, hn => by
    obtain ⟨f, es, hf, hes, -, rfl⟩ := plan_call_iff.1 h
    rw [Term.hasAggregate, hf, Bool.or_eq_false_iff] at hn
    have hname : Function.isAggregateName f.name = false := (f.isAggregateName_name).trans hn.1
    rw [Expr.containsAggregate, hname, noAggregates_planArgs args hes hn.2]
    rfl
  | .callQuery name q, e, h, _ => by
    rw [Term.plan] at h
    cases h
  | .other s, e, h, _ => by
    rw [Term.plan] at h
    cases h

theorem noAggregates_planAll : ∀ (ts : List Term) {es : List Expr}, planAll ts = .ok es →
    Term.haveAggregate ts = false → Expr.containsAggregates es = false
  | [], es, h, _ => by
    rw [planAll] at h
    cases h
    rfl
  | t :: ts, es, h, hn => by
    rw [planAll] at h
    rw [Term.haveAggregate, Bool.or_eq_false_iff] at hn
    obtain ⟨x, hx, h⟩ := bind_ok h
    obtain ⟨xs, hxs, h⟩ := bind_ok h
    cases h
    rw [Expr.containsAggregates, noAggregate_plan t hx hn.1, noAggregates_planAll ts hxs hn.2]
    rfl

theorem noAggregates_planArgs : ∀ (args : List Arg) {f : String} {es : List Expr}, planArgs f args = .ok es →
    Arg.haveAggregate args = false → Expr.containsAggregates es = false
  | [], f, es, h, _ => by
    rw [planArgs] at h
    cases h
    rfl
  | .term t :: args, f, es, h, hn => by
    rw [planArgs] at h
    rw [Arg.haveAggregate, Bool.or_eq_false_iff] at hn
    obtain ⟨x, hx, h⟩ := bind_ok h
    obtain ⟨xs, hxs, h⟩ := bind_ok h
    cases h
    rw [Expr.containsAggregates, noAggregate_plan t hx hn.1, noAggregates_planArgs args hxs hn.2]
    rfl
  | .star :: args, f, es, h, hn => by
    rw [planArgs] at h
    rw [Arg.haveAggregate] at hn
    obtain ⟨xs, hxs, h⟩ := bind_ok h
    cases h
    have ih := noAggregates_planArgs args hxs hn
    exact ih
  | .other s :: args, f, es, h, hn => by
    rw [planArgs] at h
    cases h

end

section

variable {T : Table}

/-- Planned once, an expression has its values on all rows. -/
theorem exists_plan_rows (hT : T.rows ≠ []) {t : Term} {vs : List Value}
    (ht : ∀ {row : Row} {v : Value}, t.value? T row = some v → ∃ e, t.plan = .ok e ∧ e.value? T row = some v)
    (h : T.rows.mapM (t.value? T) = some vs) : ∃ e, t.plan = .ok e ∧ T.rows.mapM (e.value? T) = some vs := by
  have hrows := mapM_eq_some.1 h
  -- the plan is that of the first row, and the same on every other one
  obtain ⟨first, hfirst⟩ := List.exists_mem_of_ne_nil T.rows hT
  obtain ⟨v, -, hv⟩ := exists_right_of_forall₂ hrows first hfirst
  obtain ⟨e, he, -⟩ := ht hv
  refine ⟨e, he, mapM_eq_some.2 (hrows.imp fun row v hv => ?_)⟩
  obtain ⟨e', he', hv'⟩ := ht hv
  cases he.symm.trans he'
  exact hv'

/-- A call of an aggregate of an expression that calls none. -/
theorem value?_plan_aggregate (hT : T.rows ≠ []) {op : Aggregate} {t : Term} {e : Expr} {vs : List Value}
    {v : Value} {row : Row} (he : t.plan = .ok e) (hvs : T.rows.mapM (e.value? T) = some vs) (hn : t.hasAggregate = false)
    (hv : (op.reduce vs).toOption = some v) :
    (Expr.call (Function.aggregate op).name [e]).value? T row = some v := by
  have hw : e ≠ .wildcard := by
    rintro rfl
    obtain ⟨first, hfirst⟩ := List.exists_mem_of_ne_nil T.rows hT
    obtain ⟨u, -, hu⟩ := exists_right_of_forall₂ (mapM_eq_some.1 hvs) first hfirst
    rw [Expr.value?] at hu
    cases hu
  rw [Expr.value?_aggregate (Function.lookup_name _) hw, noAggregate_plan t he hn, hvs]
  exact hv

mutual

/-- Where a written expression has a value, it has a plan, which has the same value. -/
theorem exists_plan (hT : T.rows ≠ []) : ∀ (t : Term) {row : Row} {v : Value}, t.value? T row = some v →
    ∃ e, t.plan = .ok e ∧ e.value? T row = some v
  | .column i, row, v, h => by
    rw [Term.value?] at h
    exact ⟨.column i.text, by rw [Term.plan], by rw [Expr.value?, h]⟩
  | .path parts, row, v, h => by
    match parts, h with
    | [_, i], h =>
      rw [Term.value?] at h
      exact ⟨.column i.text, by rw [Term.plan], by rw [Expr.value?, h]⟩
    | [], h | [_], h | _ :: _ :: _ :: _, h => simp [Term.value?] at h
  | .literal l, row, v, h => by
    rw [Term.value?] at h
    rw [Term.plan]
    rcases hl : l.value with fault | u
    · rw [hl] at h
      cases h
    · rw [hl] at h
      cases h
      exact ⟨_, rfl, by rw [Expr.value?]⟩
  | .parens t, row, v, h => by
    rw [Term.value?] at h
    rw [Term.plan]
    exact exists_plan hT t h
  | .unary .plus t, row, v, h => by
    rw [Term.value?] at h
    rw [Term.plan]
    exact exists_plan hT t h
  | .unary .minus t, row, v, h => by
    rw [Term.value?] at h
    obtain ⟨u, hu, h⟩ := bind_some h
    obtain ⟨x, hx, hxu⟩ := exists_plan hT t hu
    rw [Term.plan, hx]
    exact ⟨x.minus, rfl, Expr.value?_minus hxu h⟩
  | .unary .not t, row, v, h => by
    rw [Term.value?] at h
    obtain ⟨u, hu, h⟩ := bind_some h
    obtain ⟨b, hb, h⟩ := bind_some h
    obtain ⟨x, hx, hxu⟩ := exists_plan hT t hu
    cases h
    rw [Term.plan, hx]
    exact ⟨_, rfl, Expr.value?_not hxu hb⟩
  | .binary op l r, row, v, h => by
    -- an operator without a function has no values, so there is a plan
    rw [Term.value?] at h
    obtain ⟨a, ha, h⟩ := bind_some h
    obtain ⟨b, hb, h⟩ := bind_some h
    obtain ⟨x, hx, hxa⟩ := exists_plan hT l ha
    obtain ⟨y, hy, hyb⟩ := exists_plan hT r hb
    obtain ⟨f, hf⟩ := BinaryOp.exists_function h
    obtain ⟨s, rfl, harity, hs⟩ := BinaryOp.function_ok hf
    rw [Term.plan, hf, hx, hy]
    exact ⟨Expr.binary s.name x y, rfl, by rw [Expr.value?_binary s harity hxa hyb, hs, h]⟩
  | .isNull negated t, row, v, h => by
    rw [Term.value?] at h
    obtain ⟨u, hu, h⟩ := bind_some h
    obtain ⟨x, hx, hxu⟩ := exists_plan hT t hu
    cases h
    rw [Term.plan, hx]
    exact ⟨_, rfl, Expr.value?_negateIf negated (Expr.value?_unary .isNull rfl hxu)⟩
  | .between negated t low high, row, v, h => by
    rw [Term.value?] at h
    obtain ⟨a, ha, h⟩ := bind_some h
    obtain ⟨b, hb, h⟩ := bind_some h
    obtain ⟨atLeast, hge, h⟩ := bind_some h
    obtain ⟨c, hc, h⟩ := bind_some h
    obtain ⟨atMost, hle, h⟩ := bind_some h
    obtain ⟨x, hx, hxa⟩ := exists_plan hT t ha
    obtain ⟨y, hy, hyb⟩ := exists_plan hT low hb
    obtain ⟨z, hz, hzc⟩ := exists_plan hT high hc
    cases h
    rw [Term.plan, hx, hy, hz]
    refine ⟨_, rfl, Expr.value?_negateIf negated (Expr.value?_and ?_ ?_)⟩
    · exact (Expr.value?_relation .ge hxa hyb).trans (congrArg (Option.map Value.ofTruth) hge)
    · exact (Expr.value?_relation .le hxa hzc).trans (congrArg (Option.map Value.ofTruth) hle)
  | .inList negated t items, row, v, h => by
    rw [Term.value?] at h
    obtain ⟨a, ha, h⟩ := bind_some h
    obtain ⟨vs, hvs, h⟩ := bind_some h
    obtain ⟨o, ho, h⟩ := bind_some h
    obtain ⟨x, hx, hxa⟩ := exists_plan hT t ha
    obtain ⟨es, hes, hev⟩ := exists_planAll hT items hvs
    cases h
    rw [Term.plan, hx, hes]
    refine ⟨_, rfl, ?_⟩
    rw [Expr.value?_anyEqual negated hxa hev, ho]
    rfl
  | .like form t pattern, row, v, h => by
    rw [Term.value?] at h
    obtain ⟨a, ha, h⟩ := bind_some h
    obtain ⟨la, hla, h⟩ := bind_some h
    obtain ⟨b, hb, h⟩ := bind_some h
    obtain ⟨lb, hlb, h⟩ := bind_some h
    obtain ⟨o, ho, h⟩ := bind_some h
    obtain ⟨x, hx, hxa⟩ := exists_plan hT t ha
    obtain ⟨y, hy, hyb⟩ := exists_plan hT pattern hb
    cases h
    rw [Term.plan, hx, hy]
    exact ⟨_, rfl, Expr.value?_negateIf form.negated
      (Expr.value?_like (Expr.value?_lower hxa hla) (Expr.value?_lower hyb hlb) ho)⟩
  | .cast form t type, row, v, h => by
    rw [Term.value?] at h
    obtain ⟨c, hc, h⟩ := bind_some h
    obtain ⟨u, hu, h⟩ := bind_some h
    obtain ⟨x, hx, hxu⟩ := exists_plan hT t hu
    rw [Term.plan, TypeName.function, hc, hx]
    refine ⟨.call c.function [x], rfl, ?_⟩
    rw [CastTarget.function_eq]
    exact (Expr.value?_unary c.scalar c.accepts_scalar hxu).trans h
  | .rounded up t extra, row, v, h => by
    rw [Term.value?] at h
    obtain ⟨u, hu, h⟩ := bind_some h
    obtain ⟨x, hx, hxu⟩ := exists_plan hT t hu
    rw [Term.plan, hx]
    refine ⟨_, rfl, ?_⟩
    cases up with
    | true => exact (Expr.value?_unary .ceil rfl hxu).trans h
    | false => exact (Expr.value?_unary .floor rfl hxu).trans h
  | .trim t, row, v, h => by
    rw [Term.value?] at h
    obtain ⟨u, hu, h⟩ := bind_some h
    obtain ⟨x, hx, hxu⟩ := exists_plan hT t hu
    rw [Term.plan, hx]
    exact ⟨_, rfl, (Expr.value?_unary .trim rfl hxu).trans h⟩
  | .call name form args, row, v, h => by
    rw [Term.value?] at h
    rcases hf : callee? name form with _ | op | op
    · rw [hf] at h
      cases h
    · rw [hf] at h
      -- an aggregate has a value on one expression, a count also on a star
      match args, h with
      | [.star], h =>
        cases op with
        | count =>
          cases h
          refine ⟨.call (Function.aggregate .count).name [.wildcard],
            plan_call_iff.2 ⟨_, [.wildcard], hf, ?_, rfl, rfl⟩, ?_⟩
          · rw [planArgs, planArgs]
            rfl
          · rw [Expr.value?, Function.lookup_name]
        | _ => cases h
      | [.term t], h =>
        simp only at h
        split at h
        · cases h
        · rename_i hn
          obtain ⟨vs, hvs, hv⟩ := Option.bind_eq_some_iff.1 h
          obtain ⟨e, he, hev⟩ := exists_plan_rows hT (exists_plan hT t) hvs
          refine ⟨.call (Function.aggregate op).name [e], plan_call_iff.2 ⟨_, [e], hf, ?_, rfl, rfl⟩, ?_⟩
          · rw [planArgs, planArgs, he]
            rfl
          · exact value?_plan_aggregate hT he hev (Bool.eq_false_iff.2 hn) hv
      | [], h | [.other s], h => cases op <;> cases h
      | a :: b :: r, h => cases op <;> simp at h
    · rw [hf] at h
      simp only at h
      split at h
      · rename_i harity
        obtain ⟨vs, hvs, hv⟩ := Option.bind_eq_some_iff.1 h
        obtain ⟨es, hes, hev⟩ := exists_planArgs hT args (Text.lower (Name.spelling name)) hvs
        have harity' : op.arity.accepts es.length = true := length_planArgs hes ▸ harity
        refine ⟨.call (Function.scalar op).name es, plan_call_iff.2 ⟨_, es, hf, hes, harity', rfl⟩, ?_⟩
        rw [Expr.value?_scalar (Function.lookup_name _), if_pos harity', mapM_eq_some.2 hev]
        exact hv
      · cases h
  | .callQuery name q, row, v, h => by
    rw [Term.value?] at h
    cases h
  | .other s, row, v, h => by
    rw [Term.value?] at h
    cases h

theorem exists_planAll (hT : T.rows ≠ []) : ∀ (ts : List Term) {row : Row} {vs : List Value},
    Term.values? T ts row = some vs →
      ∃ es, planAll ts = .ok es ∧ List.Forall₂ (fun e v => Expr.value? T e row = some v) es vs
  | [], row, vs, h => by
    rw [Term.values?] at h
    cases h
    exact ⟨[], by rw [planAll], .nil⟩
  | t :: ts, row, vs, h => by
    rw [Term.values?] at h
    obtain ⟨u, hu, h⟩ := bind_some h
    obtain ⟨us, hus, h⟩ := bind_some h
    obtain ⟨x, hx, hxu⟩ := exists_plan hT t hu
    obtain ⟨xs, hxs, hxus⟩ := exists_planAll hT ts hus
    cases h
    exact ⟨x :: xs, by rw [planAll, hx, hxs]; rfl, .cons hxu hxus⟩

theorem exists_planArgs (hT : T.rows ≠ []) : ∀ (args : List Arg) (f : String) {row : Row} {vs : List Value},
    Arg.values? T args row = some vs →
      ∃ es, planArgs f args = .ok es ∧ List.Forall₂ (fun e v => Expr.value? T e row = some v) es vs
  | [], f, row, vs, h => by
    rw [Arg.values?] at h
    cases h
    exact ⟨[], by rw [planArgs], .nil⟩
  | .term t :: args, f, row, vs, h => by
    rw [Arg.values?] at h
    obtain ⟨u, hu, h⟩ := bind_some h
    obtain ⟨us, hus, h⟩ := bind_some h
    obtain ⟨x, hx, hxu⟩ := exists_plan hT t hu
    obtain ⟨xs, hxs, hxus⟩ := exists_planArgs hT args f hus
    cases h
    exact ⟨x :: xs, by rw [planArgs, hx, hxs]; rfl, .cons hxu hxus⟩
  | .star :: args, f, row, vs, h => by
    rw [Arg.values?] at h
    cases h
  | .other s :: args, f, row, vs, h => by
    rw [Arg.values?] at h
    cases h

end

end

/-! ## Signs of literals -/

namespace Sample

def number (digits : String) : Term := .literal (.number digits false)

def x : Term := .column { text := "x" }

/-- `x NOT IN (1, NULL, -(-3)) OR x BETWEEN 2 AND NULL OR x IS NULL`. -/
def members : Term :=
  .binary .or
    (.binary .or
      (.inList true x [number "1", .literal .null, .unary .minus (.parens (.unary .minus (number "3")))])
      (.between false x (number "2") (.literal .null)))
    (.isNull false x)

end Sample

end Sql

end TableQuery
