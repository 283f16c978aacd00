/-
Filters in nested queries. A filter in a nested query of everything and a filter in the query around it keep
the rows that their conjunction keeps: on each row a conjunction is true exactly if both sides are, and without
aggregates the second one has on the rows that are left the values that it has among all. From there on both
queries run without a filter on the same rows.
-/
import TableQuery.Proofs.Query.Distinct
import TableQuery.Proofs.Query.Fails
import TableQuery.Proofs.Query.Star
import TableQuery.Proofs.Sql.Truth

namespace TableQuery

/-! ## Truth on a row -/

namespace Expr

/-- The truth value on a row of a table, where there is one. -/
def truth? (t : Table) (e : Expr) (row : Row) : Option (Option Bool) :=
  (value? t e row).bind fun v => v.truth.toOption

variable {t : Table} {p q : Expr} {row : Row}

theorem truth?_and : truth? t (.call "and" [p, q]) row = do
    return Kleene.and (← truth? t p row) (← truth? t q row) := by
  have hand : Function.lookup "and" = some (.scalar .and) := Scalar.lookup_name .and
  have harity : Scalar.and.arity.accepts [p, q].length = true := rfl
  unfold truth?
  rw [value?_scalar hand, if_pos harity]
  simp only [List.mapM_cons, List.mapM_nil]
  cases value? t p row with
  | none => rfl
  | some a =>
    cases value? t q row with
    | none => cases ha : a.truth <;> simp [ha, Except.toOption]
    | some b =>
      have happly : Scalar.and.apply [a, b] = a.and b := rfl
      simp only [Option.bind_eq_bind, Option.bind_some, Option.pure_def, happly, Value.and_eq]
      cases a.truth with
      | error e => rfl
      | ok x =>
        cases b.truth with
        | error e => rfl
        | ok y => simp [Except.toOption]

/-- A conjunction has a truth value where both sides have one. -/
theorem isSome_truth?_and :
    (truth? t (.call "and" [p, q]) row).isSome = true ↔
      (truth? t p row).isSome = true ∧ (truth? t q row).isSome = true := by
  rw [truth?_and]
  cases truth? t p row <;> cases truth? t q row <;> simp

/-- A conjunction is true where both sides are. -/
theorem truth?_and_eq_true :
    truth? t (.call "and" [p, q]) row = some (some true) ↔
      truth? t p row = some (some true) ∧ truth? t q row = some (some true) := by
  rw [truth?_and]
  rcases truth? t p row with _ | _ | _ | _ <;> rcases truth? t q row with _ | _ | _ | _ <;> simp [Kleene.and]

/-- Without aggregates the truth value on a row does not depend on the other rows. -/
theorem truth?_congr {u : Table} (ha : q.containsAggregate = false) (hf : u.fields = t.fields) (row : Row) :
    truth? u q row = truth? t q row := by
  rw [truth?, truth?, value?_congr q ha fun name _ => value?_column_congr hf name row]

end Expr

/-! ## Filters row by row -/

section

variable {f : Row → Option Value}

theorem keepTrue_eq_filter {rows : List Row} {mask : List Value}
    (h : List.Forall₂ (fun row v => f row = some v) rows mask)
    (ht : ∀ row ∈ rows, ((f row).bind fun v => v.truth.toOption).isSome) :
    keepTrue rows mask = .ok (rows.filter fun row => ((f row).bind fun v => v.truth.toOption) = some (some true)) := by
  induction h with
  | nil => rfl
  | @cons row v rows mask hv _ ih =>
    have hrow := ht row (List.mem_cons_self ..)
    rw [hv, Option.bind_some] at hrow
    rw [keepTrue, ih fun r hr => ht r (List.mem_cons_of_mem _ hr), List.filter_cons, hv, Option.bind_some]
    rcases htruth : v.truth with e | b
    · rw [htruth] at hrow
      cases hrow
    · by_cases hb : b = some true <;> simp [Except.toOption, hb]

theorem isSome_of_keepTrue {rows kept : List Row} {mask : List Value}
    (h : List.Forall₂ (fun row v => f row = some v) rows mask) (hk : keepTrue rows mask = .ok kept) :
    ∀ row ∈ rows, ((f row).bind fun v => v.truth.toOption).isSome := by
  induction h generalizing kept with
  | nil => exact fun _ hr => by cases hr
  | @cons row v rows mask hv _ ih =>
    rw [keepTrue] at hk
    obtain ⟨b, hb, hk⟩ := bind_ok hk
    obtain ⟨rest, hrest, -⟩ := bind_ok hk
    intro r hr
    rcases List.mem_cons.1 hr with rfl | hr
    · rw [hv, Option.bind_some, hb]
      rfl
    · exact ih hrest r hr

end

namespace Table

variable {t k : Table} {p q : Expr}

/-- The rows on which a condition is true. -/
def whereTrue (t : Table) (p : Expr) : Table :=
  { t with rows := t.rows.filter fun row => Expr.truth? t p row = some (some true) }

/-- Where a filter succeeds its condition has a truth value on every row, and those are left on which it is true. -/
theorem filterBy_ok (hne : t.rows ≠ []) (h : t.filterBy p = .ok k) :
    (∀ row ∈ t.rows, (Expr.truth? t p row).isSome) ∧ k = t.whereTrue p := by
  have hvalues := Expr.evalRows_eq hne p
  obtain ⟨mask, hmask, h⟩ := bind_ok h
  obtain ⟨rows, hrows, h⟩ := bind_ok h
  rw [hmask] at hvalues
  have hrow := mapM_eq_some.1 hvalues.symm
  have htruths := isSome_of_keepTrue hrow hrows
  rw [keepTrue_eq_filter hrow htruths] at hrows
  cases hrows
  exact ⟨htruths, (ofRows_ok h).1⟩

/-- A filter succeeds if its condition has a truth value on every row, and keeps those on which it is true. -/
theorem filterBy_eq_ok_iff (ht : t.WellFormed) (hne : t.rows ≠ []) :
    t.filterBy p = .ok k ↔ (∀ row ∈ t.rows, (Expr.truth? t p row).isSome) ∧ k = t.whereTrue p := by
  have hvalues := Expr.evalRows_eq hne p
  constructor
  · exact filterBy_ok hne
  · rintro ⟨htruths, rfl⟩
    rw [filterBy_eq ht]
    have hsome : (t.rows.mapM (Expr.value? t p)).isSome := by
      have hrow : ∀ row ∈ t.rows, Expr.value? t p row = some ((Expr.value? t p row).getD .null) := by
        intro row hr
        have := htruths row hr
        unfold Expr.truth? at this
        cases hv : Expr.value? t p row with
        | none =>
          rw [hv] at this
          cases this
        | some v => rfl
      rw [mapM_eq_some_map hrow]
      rfl
    obtain ⟨mask, hmask⟩ := Option.isSome_iff_exists.1 hsome
    have heval : (Except.ok mask : Except Error (List Value)).toOption = (Expr.evalRows t p).toOption :=
      hmask.symm.trans hvalues.symm
    rw [eq_ok_of_toOption heval rfl, ok_bind, keepTrue_eq_filter (mapM_eq_some.1 hmask) htruths]
    rfl

/-- Two filters keep what their conjunction keeps. -/
theorem whereTrue_whereTrue (ha : q.containsAggregate = false) :
    (t.whereTrue p).whereTrue q = t.whereTrue (.call "and" [p, q]) := by
  have htruth : ∀ row, Expr.truth? (t.whereTrue p) q row = Expr.truth? t q row := Expr.truth?_congr ha rfl
  unfold whereTrue at htruth ⊢
  simp only [htruth, List.filter_filter]
  refine congrArg (mk t.fields) (List.filter_congr fun row _ => ?_)
  rw [← Bool.decide_and, decide_eq_decide, Expr.truth?_and_eq_true, and_comm]

end Table

/-! ## Selections around a filter -/

/-- The conjunction with a condition, if there is one. -/
def Expr.conjoin (p : Expr) : Option Expr → Expr
  | some q => .call "and" [p, q]
  | none => p

namespace Select

/-- Everything of the rows on which a condition is true. -/
structure Restricts (s : Select) (p : Expr) : Prop extends s.Plain where
  items : s.items = [.wildcard]
  filter : s.filter = some p

/-- The selection with a further condition in its filter. -/
def restrict (s : Select) (p : Expr) : Select := { s with filter := some (p.conjoin s.filter) }

variable {s inner : Select} {p : Expr} {t u k r : Table}

/-! ### Checks -/

theorem checked_of_restrict (h : (s.restrict p).Checked true) : s.Checked true := by
  have hfilter : ∀ q ∈ s.filter, q.hasStrayWildcard = false ∧ q.containsAggregate = false := by
    intro q hq
    have hconj : (s.restrict p).filter = some (.call "and" [p, q]) := by
      rw [restrict, Option.mem_def.1 hq]
      rfl
    have hstar := not_stray_filter h _ hconj
    have hcall := h.filter _ hconj
    rw [Expr.hasStrayWildcard_call (by simp), Expr.haveStrayWildcard, Expr.haveStrayWildcard, Bool.or_eq_false_iff,
      Bool.or_eq_false_iff] at hstar
    rw [Expr.containsAggregate, Expr.containsAggregates, Expr.containsAggregates, Bool.or_eq_false_iff,
      Bool.or_eq_false_iff, Bool.or_eq_false_iff] at hcall
    exact ⟨hstar.2.1, hcall.2.2.1⟩
  refine ⟨h.items, h.source, fun c hc => ?_, h.groupBy, fun q hq => (hfilter q hq).2, h.names⟩
  -- only the clause of the filter is another one
  simp only [clauses, List.mem_append, or_assoc] at hc
  rcases hc with hc | hc
  · obtain ⟨q, hq, rfl⟩ := List.mem_map.1 hc
    exact (hfilter q (Option.mem_toList.1 hq)).1
  · exact h.clauses c (by
      simp only [clauses, List.mem_append, or_assoc]
      exact .inr hc)

theorem not_stray_of_restrict (h : (s.restrict p).Checked true) :
    p.hasStrayWildcard = false ∧ p.containsAggregate = false := by
  have hstar : (p.conjoin s.filter).hasStrayWildcard = false := not_stray_filter h _ rfl
  have hcall : (p.conjoin s.filter).containsAggregate = false := h.filter _ rfl
  cases hq : s.filter with
  | none =>
    rw [hq] at hstar hcall
    exact ⟨hstar, hcall⟩
  | some q =>
    rw [hq, Expr.conjoin, Expr.hasStrayWildcard_call (by simp), Expr.haveStrayWildcard, Bool.or_eq_false_iff] at hstar
    rw [hq, Expr.conjoin, Expr.containsAggregate, Expr.containsAggregates, Bool.or_eq_false_iff,
      Bool.or_eq_false_iff] at hcall
    exact ⟨hstar.1, hcall.2.1⟩

theorem Restricts.checked (h : inner.Restricts p) (hn : inner.checkNames = .ok ())
    (hp : p.hasStrayWildcard = false ∧ p.containsAggregate = false) : inner.Checked true where
  items e he := by
    rw [h.items, List.mem_singleton] at he
    exact .inl he
  source := nofun
  clauses c hc := by
    rw [clauses, h.filter, h.groupBy, h.having, h.orderBy] at hc
    cases List.mem_singleton.1 hc
    exact hp.1
  groupBy e he := by
    rw [h.groupBy] at he
    cases he
  filter e he := by
    cases h.filter.symm.trans he
    exact hp.2
  names := checkNames_eq_ok_iff.1 hn

/-! ### Runs -/

theorem run_of_isEmpty (ht : t.isEmpty = true) : s.run (some t) = .ok (.empty (s.namesOn t.fields)) := by
  rw [run_eq_filtered]
  exact if_pos ht

/-- A run gives what the run without a filter gives on the rows that are kept. -/
theorem run_of_kept (hf : k.fields = u.fields) (hnone : u.isEmpty = true → k.isEmpty = true)
    (hk : u.isEmpty = false → s.kept u = .ok k) : s.run (some u) = { s with filter := none }.run (some k) := by
  cases hu : u.isEmpty with
  | true =>
    rw [run_of_isEmpty hu, run_of_isEmpty (hnone hu), hf]
    rfl
  | false =>
    rw [run_eq_filtered]
    simp only [Option.getD_some, Option.isSome_some, Bool.true_and, hu, hk hu, ok_bind, Bool.false_eq_true, if_false]

/-- The rows that are left by two filters, one after the other. -/
theorem kept_whereTrue (ht : t.WellFormed) (hne : t.rows ≠ []) (hs : ∀ q ∈ s.filter, q.containsAggregate = false)
    (h : (s.restrict p).kept t = .ok k) :
    t.filterBy p = .ok (t.whereTrue p) ∧ k.rows ⊆ (t.whereTrue p).rows ∧
      ((t.whereTrue p).isEmpty = false → s.kept (t.whereTrue p) = .ok k) := by
  have hkept : t.filterBy (p.conjoin s.filter) = .ok k := h
  obtain ⟨htruths, rfl⟩ := (Table.filterBy_eq_ok_iff ht hne).1 hkept
  unfold kept
  cases hq : s.filter with
  | none =>
    rw [hq] at htruths
    exact ⟨(Table.filterBy_eq_ok_iff ht hne).2 ⟨htruths, rfl⟩, List.Subset.refl _, fun _ => rfl⟩
  | some q =>
    rw [hq] at htruths
    have hboth := fun row hr => Expr.isSome_truth?_and.1 (htruths row hr)
    have hsub : (t.whereTrue p).rows ⊆ t.rows := List.filter_sublist.subset
    have ha : q.containsAggregate = false := hs q hq
    have hw : (t.whereTrue p).WellFormed := ht.of_subset hsub
    rw [Expr.conjoin, ← Table.whereTrue_whereTrue ha]
    refine ⟨(Table.filterBy_eq_ok_iff ht hne).2 ⟨fun row hr => (hboth row hr).1, rfl⟩, List.filter_sublist.subset,
      fun hu => (Table.filterBy_eq_ok_iff hw (List.isEmpty_eq_false_iff.1 hu)).2 ⟨fun row hr => ?_, rfl⟩⟩
    have htruth : Expr.truth? (t.whereTrue p) q row = Expr.truth? t q row :=
      Expr.truth?_congr (t := t) (u := t.whereTrue p) ha rfl row
    rw [htruth]
    exact (hboth row (hsub hr)).2

/-- A run under a conjunction is a run on the result of a run under its first side. -/
theorem run_restrict (ht : t.WellFormed) (hw : 0 < t.width) (hd : t.fields.Nodup) (hi : inner.Restricts p)
    (hn : inner.checkNames = .ok ()) (hs : ∀ q ∈ s.filter, q.containsAggregate = false)
    (h : (s.restrict p).run (some t) = .ok r) : ∃ u, inner.run (some t) = .ok u ∧ s.run (some u) = .ok r := by
  cases he : t.isEmpty with
  | true =>
    have hnames : inner.namesOn t.fields = t.fields := by
      rw [namesOn, expand_star hi.items hn, List.map_map]
      exact List.map_id _
    rw [run_of_isEmpty he] at h
    refine ⟨.empty t.fields, by rw [run_of_isEmpty he, hnames], ?_⟩
    rw [run_of_isEmpty rfl]
    exact h
  | false =>
    rw [run_eq_filtered] at h
    simp only [Option.getD_some, Option.isSome_some, Bool.true_and, he, Bool.false_eq_true, if_false] at h
    obtain ⟨k, hk, h⟩ := bind_ok h
    obtain ⟨hp, hsub, hkept⟩ := kept_whereTrue ht (List.isEmpty_eq_false_iff.1 he) hs hk
    have hu : inner.kept t = .ok (t.whereTrue p) := by
      rw [kept, hi.filter]
      exact hp
    refine ⟨t.whereTrue p, ?_, ?_⟩
    · rw [run_star hi.toPlain hi.items hn hw hu, Table.firsts_eq (wellFormed_kept ht hu) hd]
    · have hf : k.fields = t.fields := fields_kept hk
      refine (run_of_kept (u := t.whereTrue p) hf (fun hempty => ?_) hkept).trans h
      rw [Table.isEmpty, List.isEmpty_iff] at hempty ⊢
      rw [hempty] at hsub
      exact List.subset_nil.1 hsub

end Select

/-- Nested filters compose. Where a query on a served table, with a further condition before its own, succeeds,
the query without it succeeds on everything of the rows on which this condition is true, with the same result. -/
theorem Query.execute_nested {fetch : Fetcher} {label : String} {t r : Table} {s inner : Select} {p : Expr}
    (ht : t.WellFormed) (hw : 0 < t.width) (hd : t.fields.Nodup) (hf : fetch.Serves label t)
    (hi : inner.Restricts p) (hn : inner.checkNames = .ok ())
    (h : (Query.table (s.restrict p) label).execute fetch = .ok r) :
    (Query.nested s (.table inner label)).execute fetch = .ok r := by
  obtain ⟨hc, hrun⟩ := run_of_serves ht hf h
  have hchecked := Select.check_eq_ok_iff.1 hc
  have houter := Select.checked_of_restrict hchecked
  have hinner := hi.checked hn (Select.not_stray_of_restrict hchecked)
  obtain ⟨u, hu, hs⟩ := Select.run_restrict ht hw hd hi hn houter.filter hrun
  have hstar : .wildcard ∈ Expr.leavesOf inner.exprs := by
    have hitem : Expr.wildcard ∈ inner.items := by
      rw [hi.items]
      exact List.mem_singleton_self _
    exact Expr.mem_leavesOf.2 ⟨.wildcard, Select.items_subset_exprs hitem, List.mem_singleton_self _⟩
  have hsource : (Query.nested s (.table inner label)).source fetch = .ok (some u) := by
    rw [source, execute_of_serves hf (Select.check_eq_ok_iff.2 hinner) hstar, hu]
    rfl
  have hcheck : s.check true = .ok () := Select.check_eq_ok_iff.2 houter
  exact (execute_of_source (q := .nested s (.table inner label)) hcheck hsource).trans hs

/-! ## An example -/

namespace Sample

def early : Expr := .call "<" [.column "id", .lit (.int 5)]

/-- `SELECT * FROM orders WHERE id < 5`. -/
def earlyOrders : Select where
  items := [.wildcard]
  names := some ["*"]
  filter := some early

/-- A fetcher of the columns asked for. -/
def ordersFetcher : Fetcher := fun r => orders.project r.tokens

end Sample

open Sample in
/-- The sums by region of the early orders; the filter of the sums leaves out those that are not positive. -/
theorem Query.execute_nested_totals :
    orders.WellFormed ∧ 0 < orders.width ∧ orders.fields.Nodup ∧ ordersFetcher.Serves "orders" orders ∧
      earlyOrders.Restricts early ∧ earlyOrders.checkNames = .ok () ∧
      (Query.table (totals.restrict early) "orders").execute ordersFetcher =
        .ok ⟨["region", "total"], [[.text "south", .int 30], [.text "north", .int 15]]⟩ ∧
      (Query.nested totals (.table earlyOrders "orders")).execute ordersFetcher =
        .ok ⟨["region", "total"], [[.text "south", .int 30], [.text "north", .int 15]]⟩ := by
  have ht : orders.WellFormed := by decide
  have hw : 0 < orders.width := by decide
  have hd : orders.fields.Nodup := by decide
  have hf : ordersFetcher.Serves "orders" orders := fun _ => .inr rfl
  have hi : earlyOrders.Restricts early := ⟨⟨rfl, rfl, rfl, rfl⟩, rfl, rfl⟩
  have hn : earlyOrders.checkNames = .ok () := rfl
  have hflat : (Query.table (totals.restrict early) "orders").execute ordersFetcher =
      .ok ⟨["region", "total"], [[.text "south", .int 30], [.text "north", .int 15]]⟩ := rfl
  exact ⟨ht, hw, hd, hf, hi, hn, hflat, Query.execute_nested ht hw hd hf hi hn hflat⟩

end TableQuery
