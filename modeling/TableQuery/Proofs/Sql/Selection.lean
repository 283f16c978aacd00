/-
The selections that a written query consists of. A planned query has one selection for each of them, in
the same order, and each is planned by itself: its items first, then the clauses that may refer to them.
A planned selection consists of items, of its filter, and of what the terms of the other clauses stand for.
-/
import TableQuery.Sql.Plan.Query
import TableQuery.Proofs.Query.Stages

namespace TableQuery

/-- The selections of all levels, from the outermost one inward. -/
def Query.selects : Query → List Select
  | .constant s | .table s _ => [s]
  | .nested s inner => s :: inner.selects

namespace Sql

/-! ## Written selections -/

mutual

/-- The selections of all levels with what stands around them, from the outermost one inward. -/
def QueryExpr.selections : QueryExpr → List (Frame × Selection)
  | .mk frame body => body.selections frame

def Body.selections (frame : Frame) : Body → List (Frame × Selection)
  | .select s source => (frame, s) :: source.selections
  | .parens q => q.selections
  | .setOperation _ _ | .other _ => []

def Source.selections : Source → List (Frame × Selection)
  | .query q _ => q.selections
  | _ => []

end

namespace Selection

/-- The written terms of the items. -/
def itemTerms (s : Selection) : List Term :=
  s.items.filterMap fun
    | .term t _ => some t
    | _ => none

def groupTerms (s : Selection) : List Term :=
  match s.grouping with
  | .by terms => terms
  | .all => []

/-- The terms that may refer to items: by position, or by the label of an item. -/
def referring (frame : Frame) (s : Selection) : List Term :=
  s.groupTerms ++ s.having.toList ++ frame.orderBy.map (·.term)

/-- The items under their labels. -/
def scope (s : Selection) : Except Error Scope := (s.items.mapM planItem).map Scope.mk

end Selection

/-! ## One selection -/

/-- What the clauses of a planned selection are. -/
theorem planSelection_ok {frame : Frame} {s : Selection} {sel : Select} (h : planSelection frame s = .ok sel) :
    ∃ scope groupBy having, s.scope = .ok scope ∧ sel.items = scope.exprs ∧
      s.filter.mapM Term.plan = .ok sel.filter ∧ planGrouping scope s.grouping = .ok groupBy ∧
      planDistinct scope groupBy s.distinct = .ok sel.groupBy ∧ s.having.mapM Term.plan = .ok having ∧
      sel.having = having.map scope.substitute ∧ frame.orderBy.mapM (planOrderItem scope) = .ok sel.orderBy := by
  unfold planSelection at h
  obtain ⟨items, hitems, h⟩ := bind_ok h
  obtain ⟨filter, hfilter, h⟩ := bind_ok h
  obtain ⟨groupBy, hgroup, h⟩ := bind_ok h
  obtain ⟨groupBy', hdistinct, h⟩ := bind_ok h
  obtain ⟨having, hhaving, h⟩ := bind_ok h
  obtain ⟨orderBy, horder, h⟩ := bind_ok h
  obtain ⟨limit, -, h⟩ := bind_ok h
  cases h
  refine ⟨⟨items⟩, groupBy, having, ?_, rfl, hfilter, hgroup, hdistinct, hhaving, rfl, horder⟩
  rw [Selection.scope, hitems]; rfl

theorem Selection.mem_scope {s : Selection} {scope : Scope} (h : s.scope = .ok scope) {e : Expr}
    (he : e ∈ scope.exprs) : e = .wildcard ∨ ∃ t ∈ s.itemTerms, t.plan = .ok e := by
  obtain ⟨items, hitems, rfl⟩ := map_eq_ok h
  obtain ⟨p, hp, rfl⟩ := List.mem_map.1 he
  obtain ⟨item, hm, hplan⟩ := mem_of_mapM_ok hitems p hp
  cases item with
  | star => cases hplan; exact .inl rfl
  | tableStar _ => cases hplan
  | term t label =>
    obtain ⟨e, ht, hplan⟩ := bind_ok hplan
    cases hplan
    exact .inr ⟨t, List.mem_filterMap.2 ⟨_, hm, rfl⟩, ht⟩

/-- Every group key is an item or a written key, and every written key is a group key. -/
theorem mem_groupBy {s : Selection} {scope : Scope} {groupBy keys : List Expr}
    (hg : planGrouping scope s.grouping = .ok groupBy) (hd : planDistinct scope groupBy s.distinct = .ok keys) :
    (∀ e ∈ keys, e ∈ scope.exprs ∨ ∃ t ∈ s.groupTerms, scope.resolve .groupBy t = .ok e) ∧
      ∀ t ∈ s.groupTerms, ∃ e ∈ keys, scope.resolve .groupBy t = .ok e := by
  have hby : (∀ e ∈ groupBy, e ∈ scope.exprs ∨ ∃ t ∈ s.groupTerms, scope.resolve .groupBy t = .ok e) ∧
      ∀ t ∈ s.groupTerms, ∃ e ∈ groupBy, scope.resolve .groupBy t = .ok e := by
    unfold Selection.groupTerms
    rcases hs : s.grouping with terms | _
    · rw [hs] at hg
      exact ⟨fun e he => .inr (mem_of_mapM_ok hg e he), exists_of_mapM_ok hg⟩
    · rw [hs, planGrouping] at hg
      split at hg
      · cases hg
      · cases hg
        exact ⟨fun e he => .inl (List.mem_filter.1 he).1, by simp⟩
  unfold planDistinct at hd
  cases hs : s.distinct with
  | no => rw [hs] at hd; cases hd; exact hby
  | on _ => rw [hs] at hd; cases hd
  | yes =>
    rw [hs] at hd
    simp only at hd
    split at hd
    · cases hd
    · rename_i hempty
      have hnil : groupBy = [] := by simpa using hempty
      have hnone : ∀ t ∈ s.groupTerms, False := by
        intro t ht
        obtain ⟨e, he, -⟩ := hby.2 t ht
        rw [hnil] at he
        cases he
      split at hd
      · cases hd
      · refine ⟨fun e he => ?_, fun t ht => (hnone t ht).elim⟩
        split at hd
        · cases hd; cases he
        · cases hd; exact .inl he

theorem resolve_of_planOrderItem {scope : Scope} {o : OrderItem} {k : OrderKey} (h : planOrderItem scope o = .ok k) :
    scope.resolve .orderBy o.term = .ok k.expr := by
  unfold planOrderItem at h
  split at h
  · cases h
  · obtain ⟨e, he, h⟩ := bind_ok h
    cases h
    exact he

/-! ## What terms stand for -/

/-- What a term that may refer to items stands for: the item at a position, or its plan, in which every
column that is the label of an item is replaced by this item. -/
inductive Scope.StandsFor (s : Scope) : Term → Expr → Prop
  | position {digits : String} {long : Bool} {e : Expr} : e ∈ s.exprs → s.StandsFor (.literal (.number digits long)) e
  | plan {t : Term} {e : Expr} : t.plan = .ok e → s.StandsFor t (s.substitute e)

theorem Scope.atPosition_mem {s : Scope} {clause : Clause} {digits : String} {e : Expr}
    (h : s.atPosition clause digits = .ok e) : e ∈ s.exprs := by
  unfold atPosition at h
  split at h
  · cases h
  · rename_i n _
    split at h
    · cases h
    · cases h
    · rename_i item label _ hitem
      cases h
      split at hitem
      · cases hitem
      · exact List.mem_map_of_mem (List.mem_of_getElem? hitem)

theorem Scope.standsFor_of_resolve {s : Scope} {clause : Clause} {t : Term} {e : Expr}
    (h : s.resolve clause t = .ok e) : s.StandsFor t e := by
  unfold resolve at h
  split at h
  · exact .position (atPosition_mem h)
  · obtain ⟨e', hplan, h⟩ := bind_ok h
    cases h
    exact .plan hplan

section

variable {frame : Frame} {s : Selection} {sel : Select} {scope : Scope}

/-- A planned selection consists of items, of its filter, and of what the terms of the other clauses
stand for. -/
theorem planSelection_exprs (h : planSelection frame s = .ok sel) (hscope : s.scope = .ok scope) {e : Expr}
    (he : e ∈ sel.exprs) : e ∈ scope.exprs ∨ (∃ t ∈ s.filter, t.plan = .ok e) ∨
      ∃ t ∈ s.referring frame, scope.StandsFor t e := by
  obtain ⟨scope', groupBy, having, hs, hitems, hfilter, hgroup, hdistinct, hhaving, hreplaced, horder⟩ :=
    planSelection_ok h
  cases hscope.symm.trans hs
  -- clause by clause, in the order of `Select.exprs`
  simp only [Select.exprs, List.mem_append, Option.mem_toList, List.mem_map] at he
  simp only [Selection.referring, List.mem_append, Option.mem_toList, List.mem_map]
  rcases he with (((he | he) | he) | he) | ⟨k, hk, rfl⟩
  · exact .inl (hitems ▸ he)
  · rcases optionMapM_ok hfilter with ⟨-, hnone⟩ | ⟨t, e', ht, he', hplan⟩
    · rw [hnone] at he
      cases he
    · rw [he'] at he
      cases he
      exact .inr (.inl ⟨t, ht, hplan⟩)
  · rcases (mem_groupBy hgroup hdistinct).1 e he with hm | ⟨t, ht, hr⟩
    · exact .inl hm
    · exact .inr (.inr ⟨t, .inl (.inl ht), Scope.standsFor_of_resolve hr⟩)
  · rcases optionMapM_ok hhaving with ⟨-, hnone⟩ | ⟨t, e', ht, he', hplan⟩
    · rw [hreplaced, hnone] at he
      cases he
    · rw [hreplaced, he'] at he
      cases he
      exact .inr (.inr ⟨t, .inl (.inr ht), .plan hplan⟩)
  · obtain ⟨o, ho, hok⟩ := mem_of_mapM_ok horder k hk
    exact .inr (.inr ⟨o.term, .inr ⟨o, ho, rfl⟩, Scope.standsFor_of_resolve (resolve_of_planOrderItem hok)⟩)

theorem mem_exprs_of_filter (h : planSelection frame s = .ok sel) {t : Term} (ht : t ∈ s.filter) {e : Expr}
    (hplan : t.plan = .ok e) : e ∈ sel.exprs := by
  obtain ⟨_, _, _, -, -, hfilter, -⟩ := planSelection_ok h
  rcases optionMapM_ok hfilter with ⟨hnone, -⟩ | ⟨t', e', ht', he', hplan'⟩
  · rw [hnone] at ht
    cases ht
  · cases ht'.symm.trans ht
    cases hplan'.symm.trans hplan
    exact Select.filter_subset_exprs (Option.mem_toList.2 he')

/-- Every term that may refer to items stands for an expression of the planned selection. -/
theorem exists_standsFor (h : planSelection frame s = .ok sel) (hscope : s.scope = .ok scope) {t : Term}
    (ht : t ∈ s.referring frame) : ∃ e ∈ sel.exprs, scope.StandsFor t e := by
  obtain ⟨scope', groupBy, having, hs, -, -, hgroup, hdistinct, hhaving, hreplaced, horder⟩ := planSelection_ok h
  cases hscope.symm.trans hs
  simp only [Selection.referring, List.mem_append, Option.mem_toList, List.mem_map] at ht
  rcases ht with (ht | ht) | ⟨o, ho, rfl⟩
  · obtain ⟨e, he, hr⟩ := (mem_groupBy hgroup hdistinct).2 t ht
    exact ⟨e, Select.groupBy_subset_exprs he, Scope.standsFor_of_resolve hr⟩
  · rcases optionMapM_ok hhaving with ⟨hnone, -⟩ | ⟨t', e, ht', he, hplan⟩
    · rw [hnone] at ht
      cases ht
    · cases ht'.symm.trans ht
      have hmem : scope.substitute e ∈ sel.having := by
        rw [hreplaced, he]
        rfl
      exact ⟨_, Select.having_subset_exprs (Option.mem_toList.2 hmem), .plan hplan⟩
  · obtain ⟨k, hk, hok⟩ := exists_of_mapM_ok horder o ho
    exact ⟨k.expr, Select.orderBy_subset_exprs (List.mem_map_of_mem hk),
      Scope.standsFor_of_resolve (resolve_of_planOrderItem hok)⟩

end

/-! ## One level -/

/-- A selection is planned apart from its source. -/
theorem QueryExpr.plan_select (frame : Frame) (s : Selection) (source : Source) :
    (QueryExpr.mk frame (.select s source)).plan =
      planFrame frame >>= fun _ => source.plan >>= fun ofSelect => (planSelection frame s).map ofSelect := by
  rw [QueryExpr.plan, Body.plan]
  refine bind_congr_ok fun _ _ => bind_congr_ok fun ofSelect _ => ?_
  cases planSelection frame s <;> rfl

theorem QueryExpr.plan_table_ok {frame : Frame} {s : Selection} {name : Name} {rest : String} {q : Query}
    (h : (QueryExpr.mk frame (.select s (.table name rest))).plan = .ok q) :
    ∃ sel, planSelection frame s = .ok sel ∧ q = .table sel (Name.text name) := by
  rw [plan_select] at h
  obtain ⟨_, -, h⟩ := bind_ok h
  obtain ⟨ofSelect, hsource, h⟩ := bind_ok h
  obtain ⟨sel, hsel, rfl⟩ := map_eq_ok h
  rw [Source.plan] at hsource
  cases hsource
  exact ⟨sel, hsel, rfl⟩

/-! ## All levels -/

mutual

/-- A planned query consists of the planned selections. -/
theorem QueryExpr.plan_selects : ∀ {w : QueryExpr} {q : Query}, w.plan = .ok q →
    List.Forall₂ (fun p s => planSelection p.1 p.2 = .ok s) w.selections q.selects
  | .mk frame body, q, h => by
    rw [QueryExpr.plan] at h
    obtain ⟨_, -, h⟩ := bind_ok h
    exact Body.plan_selects h

theorem Body.plan_selects {frame : Frame} : ∀ {b : Body} {q : Query}, b.plan frame = .ok q →
    List.Forall₂ (fun p s => planSelection p.1 p.2 = .ok s) (b.selections frame) q.selects
  | .select s source, q, h => by
    rw [Body.plan] at h
    obtain ⟨ofSelect, hsource, h⟩ := bind_ok h
    obtain ⟨sel, hsel, h⟩ := bind_ok h
    cases h
    obtain ⟨rest, hrest, hall⟩ := Source.plan_selects hsource
    rw [hrest sel]
    exact .cons hsel hall
  | .parens q', q, h => by
    rw [Body.plan] at h
    split at h
    · exact QueryExpr.plan_selects h
    · cases h
  | .setOperation _ _, _, h => by rw [Body.plan] at h; cases h
  | .other _, _, h => by rw [Body.plan] at h; cases h

/-- Below a selection stand the selections of its source. -/
theorem Source.plan_selects : ∀ {src : Source} {ofSelect : Select → Query}, src.plan = .ok ofSelect →
    ∃ rest, (∀ s, (ofSelect s).selects = s :: rest) ∧
      List.Forall₂ (fun p s => planSelection p.1 p.2 = .ok s) src.selections rest
  | .nothing, _, h => by
    rw [Source.plan] at h; cases h
    exact ⟨[], fun _ => rfl, .nil⟩
  | .table name _, _, h => by
    rw [Source.plan] at h; cases h
    exact ⟨[], fun _ => rfl, .nil⟩
  | .function name args _, _, h => by
    rw [Source.plan] at h
    obtain ⟨label, -, h⟩ := bind_ok h
    cases h
    exact ⟨[], fun _ => rfl, .nil⟩
  | .query q _, _, h => by
    rw [Source.plan] at h
    obtain ⟨inner, hinner, h⟩ := bind_ok h
    cases h
    exact ⟨inner.selects, fun _ => rfl, QueryExpr.plan_selects hinner⟩
  | .joined _, _, h => by rw [Source.plan] at h; cases h
  | .several _, _, h => by rw [Source.plan] at h; cases h
  | .other _, _, h => by rw [Source.plan] at h; cases h

end

end Sql

end TableQuery
