/-
References by alias and the nesting of aggregates. A column in the group keys, the group filter or the
order that is the label of an item is replaced by this item, wherever it stands. If the item contains an
aggregate and the column stands in the argument of another one, the planned query has an aggregate inside
an aggregate although none is written so; and this is the only way in which it gets one.
-/
import TableQuery.Proofs.Sql.Selection

namespace TableQuery

/-! ## Aggregates inside aggregates -/

namespace Expr

mutual

/-- Whether an aggregate call stands in an argument of another one. -/
def nestsAggregate : Expr → Bool
  | call name args => (Function.isAggregateName name && containsAggregates args) || nestAggregates args
  | _ => false

def nestAggregates : List Expr → Bool
  | [] => false
  | e :: r => nestsAggregate e || nestAggregates r

end

mutual

/-- The columns and stars in the arguments of aggregate calls. -/
def aggregatedLeaves : Expr → List Token
  | call name args => if Function.isAggregateName name then leavesOf args else aggregatedLeavesOf args
  | _ => []

def aggregatedLeavesOf : List Expr → List Token
  | [] => []
  | e :: r => aggregatedLeaves e ++ aggregatedLeavesOf r

end

mutual

theorem aggregatedLeaves_subset : ∀ e : Expr, aggregatedLeaves e ⊆ leaves e
  | lit _ => by simp [aggregatedLeaves]
  | column _ => by simp [aggregatedLeaves]
  | wildcard => by simp [aggregatedLeaves]
  | call name args => by
    rw [aggregatedLeaves, leaves]
    split
    · exact List.Subset.refl _
    · exact aggregatedLeavesOf_subset args

theorem aggregatedLeavesOf_subset : ∀ es : List Expr, aggregatedLeavesOf es ⊆ leavesOf es
  | [] => by simp [aggregatedLeavesOf]
  | e :: r => by
    rw [aggregatedLeavesOf, leavesOf]
    refine List.append_subset.2 ⟨?_, ?_⟩
    · exact List.Subset.trans (aggregatedLeaves_subset e) (List.subset_append_left ..)
    · exact List.Subset.trans (aggregatedLeavesOf_subset r) (List.subset_append_right ..)

end

end Expr

namespace Sql

open TableQuery.Expr

/-! ## Replacing aliases -/

namespace Scope

/-- Whether one of the columns is the label of an item that contains an aggregate. -/
def Aggregates (s : Scope) (ts : List Token) : Prop :=
  ∃ name item, .column name ∈ ts ∧ s.find? name = some item ∧ item.containsAggregate = true

variable {s : Scope}

theorem Aggregates.mono {ts ts' : List Token} (hs : ts ⊆ ts') : s.Aggregates ts → s.Aggregates ts' := by
  rintro ⟨name, item, hn, hitem⟩
  exact ⟨name, item, hs hn, hitem⟩

@[simp] theorem aggregates_nil : ¬ s.Aggregates [] := by
  rintro ⟨name, item, hn, -⟩
  cases hn

@[simp] theorem aggregates_append {ts us : List Token} :
    s.Aggregates (ts ++ us) ↔ s.Aggregates ts ∨ s.Aggregates us := by
  constructor
  · rintro ⟨name, item, hn, hitem⟩
    rcases List.mem_append.1 hn with hn | hn
    · exact .inl ⟨name, item, hn, hitem⟩
    · exact .inr ⟨name, item, hn, hitem⟩
  · rintro (h | h)
    · exact h.mono (List.subset_append_left ..)
    · exact h.mono (List.subset_append_right ..)

theorem aggregates_iff_any {ts : List Token} : s.Aggregates ts ↔ (ts.any fun
    | .column name => (s.find? name).any (·.containsAggregate)
    | .wildcard => false) = true := by
  rw [List.any_eq_true]
  constructor
  · rintro ⟨name, item, hn, hitem, ha⟩
    exact ⟨.column name, hn, (Option.any_eq_true _ _).2 ⟨item, hitem, ha⟩⟩
  · rintro ⟨t, ht, h⟩
    cases t with
    | column name =>
      obtain ⟨item, hitem, ha⟩ := (Option.any_eq_true _ _).1 h
      exact ⟨name, item, ht, hitem, ha⟩
    | wildcard => cases h

instance {ts : List Token} : Decidable (s.Aggregates ts) := decidable_of_iff _ aggregates_iff_any.symm

theorem find?_mem {name : String} {item : Expr} (h : s.find? name = some item) : item ∈ s.exprs := by
  obtain ⟨p, hp, rfl⟩ := Option.map_eq_some_iff.1 h
  exact List.mem_map_of_mem (List.mem_of_find?_eq_some hp)

/-- A column alone becomes the item that it names, if there is one. -/
theorem aggregates_column {name : String} :
    s.Aggregates [.column name] ↔ (s.substitute (.column name)).containsAggregate = true := by
  rw [substitute]
  constructor
  · rintro ⟨n, item, hn, hitem, ha⟩
    cases List.mem_singleton.1 hn
    rw [hitem]; exact ha
  · intro h
    rcases hf : s.find? name with _ | item
    · rw [hf] at h; cases h
    · rw [hf] at h
      exact ⟨name, item, List.mem_singleton_self _, hf, h⟩

mutual

/-- Replacing aliases brings in an aggregate exactly where a column is the label of an item with one. -/
theorem containsAggregate_substitute : ∀ e : Expr,
    (s.substitute e).containsAggregate = true ↔ e.containsAggregate = true ∨ s.Aggregates (leaves e)
  | .lit v => by simp [substitute, leaves]
  | .wildcard => by
    rw [substitute, leaves]
    constructor
    · exact .inl
    · rintro (h | ⟨name, item, hn, -⟩)
      · exact h
      · cases List.mem_singleton.1 hn
  | .column name => by
    rw [leaves, aggregates_column]
    simp [containsAggregate]
  | .call name args => by
    rw [substitute, containsAggregate, containsAggregate, leaves, Bool.or_eq_true, Bool.or_eq_true,
      containsAggregates_substitute args, or_assoc]

theorem containsAggregates_substitute : ∀ es : List Expr,
    containsAggregates (s.substituteAll es) = true ↔ containsAggregates es = true ∨ s.Aggregates (leavesOf es)
  | [] => by simp [substituteAll, leavesOf]
  | e :: r => by
    rw [substituteAll, containsAggregates, containsAggregates, leavesOf, Bool.or_eq_true, Bool.or_eq_true,
      containsAggregate_substitute e, containsAggregates_substitute r, aggregates_append]
    tauto

end

mutual

/-- Replacing aliases by items without nested aggregates nests one exactly where a column in the argument
of an aggregate is the label of an item with an aggregate. -/
theorem nestsAggregate_substitute (hs : ∀ item ∈ s.exprs, item.nestsAggregate = false) : ∀ e : Expr,
    (s.substitute e).nestsAggregate = true ↔ e.nestsAggregate = true ∨ s.Aggregates (aggregatedLeaves e)
  | .lit v => by simp [substitute, aggregatedLeaves]
  | .wildcard => by simp [substitute, aggregatedLeaves]
  | .column name => by
    have hitem : (s.substitute (.column name)).nestsAggregate = false := by
      rw [substitute]
      rcases hf : s.find? name with _ | item
      · rfl
      · exact hs item (find?_mem hf)
    simp [hitem, nestsAggregate, aggregatedLeaves]
  | .call name args => by
    rw [substitute, nestsAggregate, nestsAggregate, aggregatedLeaves]
    cases hf : Function.isAggregateName name with
    | true =>
      -- what is nested in the arguments counts as contained in them already
      have hsub := Aggregates.mono (s := s) (aggregatedLeavesOf_subset args)
      simp only [Bool.true_and, Bool.or_eq_true, if_true, containsAggregates_substitute args,
        nestAggregates_substitute hs args]
      tauto
    | false =>
      simp only [Bool.false_and, Bool.false_or, Bool.false_eq_true, if_false]
      exact nestAggregates_substitute hs args

theorem nestAggregates_substitute (hs : ∀ item ∈ s.exprs, item.nestsAggregate = false) : ∀ es : List Expr,
    nestAggregates (s.substituteAll es) = true ↔ nestAggregates es = true ∨ s.Aggregates (aggregatedLeavesOf es)
  | [] => by simp [substituteAll, aggregatedLeavesOf]
  | e :: r => by
    rw [substituteAll, nestAggregates, nestAggregates, aggregatedLeavesOf, Bool.or_eq_true, Bool.or_eq_true,
      nestsAggregate_substitute hs e, nestAggregates_substitute hs r, aggregates_append]
    tauto

end

end Scope

/-! ## Planned selections -/

/-- Whether an aggregate is written in the argument of another one. -/
def Term.Nests (t : Term) : Prop := ∃ e, t.plan = .ok e ∧ e.nestsAggregate = true

/-- Whether a column in the argument of an aggregate is the label of an item with an aggregate. -/
def Scope.Captures (s : Scope) (t : Term) : Prop := ∃ e, t.plan = .ok e ∧ s.Aggregates e.aggregatedLeaves

/-- The same for a term of a clause of a selection. -/
def Selection.Captures (s : Selection) (t : Term) : Prop := ∃ scope, s.scope = .ok scope ∧ scope.Captures t

instance (t : Term) : Decidable t.Nests := decidableExistsOk t.plan _

instance (s : Scope) (t : Term) : Decidable (s.Captures t) := decidableExistsOk t.plan _

instance (s : Selection) (t : Term) : Decidable (s.Captures t) := decidableExistsOk s.scope _

namespace Scope

variable {s : Scope}

/-- A term that may refer to items stands for an expression with a nested aggregate exactly where an
alias brings one in. -/
theorem nestsAggregate_standsFor (hs : ∀ item ∈ s.exprs, item.nestsAggregate = false) {t : Term} {e : Expr}
    (ht : ¬ t.Nests) (h : s.StandsFor t e) : e.nestsAggregate = true ↔ s.Captures t := by
  cases h with
  | position hitem =>
    -- a number is planned as a literal, which has no columns
    rw [hs e hitem]
    constructor
    · intro hn
      cases hn
    · rintro ⟨e', hplan, hcapture⟩
      rw [Term.plan] at hplan
      split at hplan
      · cases hplan
        exact absurd hcapture (by simp [aggregatedLeaves])
      · cases hplan
  | @plan _ e hplan =>
    have hnests : e.nestsAggregate = false := Bool.not_eq_true _ ▸ fun hn => ht ⟨e, hplan, hn⟩
    rw [nestsAggregate_substitute hs, hnests]
    constructor
    · rintro (hn | hcapture)
      · cases hn
      · exact ⟨e, hplan, hcapture⟩
    · rintro ⟨e', hplan', hcapture⟩
      rw [hplan] at hplan'
      cases hplan'
      exact .inr hcapture

end Scope

/-- A planned selection has no aggregate inside an aggregate exactly if none is written in its filter, and
no alias brings one in. -/
theorem planSelection_nests_iff {frame : Frame} {s : Selection} {sel : Select} {scope : Scope}
    (h : planSelection frame s = .ok sel) (hscope : s.scope = .ok scope)
    (hw : ∀ t ∈ s.itemTerms ++ s.referring frame, ¬ t.Nests) :
    (∀ e ∈ sel.exprs, e.nestsAggregate = false) ↔
      (∀ t ∈ s.filter, ¬ t.Nests) ∧ ∀ t ∈ s.referring frame, ¬ scope.Captures t := by
  have hitems : ∀ item ∈ scope.exprs, item.nestsAggregate = false := by
    intro item hm
    rcases Selection.mem_scope hscope hm with rfl | ⟨t, ht, hplan⟩
    · rfl
    · rw [← Bool.not_eq_true]
      exact fun hn => hw t (List.mem_append_left _ ht) ⟨item, hplan, hn⟩
  have hrefers : ∀ t ∈ s.referring frame, ∀ e, scope.StandsFor t e → (e.nestsAggregate = true ↔ scope.Captures t) :=
    fun t ht e he => Scope.nestsAggregate_standsFor hitems (hw t (List.mem_append_right _ ht)) he
  constructor
  · intro hno
    constructor
    · rintro t ht ⟨e, hplan, hn⟩
      rw [hno e (mem_exprs_of_filter h ht hplan)] at hn
      cases hn
    · intro t ht hcapture
      obtain ⟨e, he, hstands⟩ := exists_standsFor h hscope ht
      have hn := (hrefers t ht e hstands).2 hcapture
      rw [hno e he] at hn
      cases hn
  · rintro ⟨hfilter, hno⟩ e he
    rw [← Bool.not_eq_true]
    intro hn
    rcases planSelection_exprs h hscope he with hm | ⟨t, ht, hplan⟩ | ⟨t, ht, hstands⟩
    · rw [hitems e hm] at hn
      cases hn
    · exact hfilter t ht ⟨e, hplan, hn⟩
    · exact hno t ht ((hrefers t ht e hstands).1 hn)

/-- Where no aggregate is written inside an aggregate, a planned query has none in it, at any level, exactly
if no filter does, and no column in the argument of an aggregate is the label of an item that contains an
aggregate. -/
theorem plan_nests_iff {w : QueryExpr} {q : Query} (h : w.plan = .ok q)
    (hw : ∀ p ∈ w.selections, ∀ t ∈ p.2.itemTerms ++ p.2.referring p.1, ¬ t.Nests) :
    (∀ sel ∈ q.selects, ∀ e ∈ sel.exprs, e.nestsAggregate = false) ↔
      ∀ p ∈ w.selections, (∀ t ∈ p.2.filter, ¬ t.Nests) ∧ ∀ t ∈ p.2.referring p.1, ¬ p.2.Captures t := by
  have hall := QueryExpr.plan_selects h
  generalize w.selections = ps at hall hw ⊢
  generalize q.selects = sels at hall ⊢
  induction hall with
  | nil => simp
  | @cons p sel ps sels hp hps ih =>
    obtain ⟨scope, _, _, hscope, -⟩ := planSelection_ok hp
    have hone := planSelection_nests_iff hp hscope (hw p (List.mem_cons_self ..))
    have hrest := ih fun p' hm => hw p' (List.mem_cons_of_mem _ hm)
    rw [List.forall_mem_cons, List.forall_mem_cons]
    refine and_congr (hone.trans (and_congr_right fun _ => ?_)) hrest
    constructor
    · rintro hno t ht ⟨scope', hs, hcapture⟩
      rw [hscope] at hs
      cases hs
      exact hno t ht hcapture
    · exact fun hno t ht hcapture => hno t ht ⟨scope, hscope, hcapture⟩

/-! ## Sums under an alias -/

namespace Sample

def column (name : String) : Term := .column { text := name }

def sumOf (name : String) : Term := .call [{ text := "sum" }] {} [.term (column name)]

/-- `HAVING sum(x) > 3` and `ORDER BY sum(x)`. -/
def bySumOfX (items : List Item) : Frame × Selection :=
  ({ orderBy := [{ term := sumOf "x" }] },
    { items := items
      having := some (.binary (.relation .gt) (sumOf "x") (.literal (.number "3" false))) })

def fromT (s : Frame × Selection) : QueryExpr := .mk s.1 (.select s.2 (.table [{ text := "t" }] ""))

end Sample

open Sql.Sample in
/-- The alias is that of a column, so sums under this alias are sums of the column. -/
theorem plan_nests_column :
    let s := bySumOfX [.term (column "a") (some { text := "X" }), .term (sumOf "x") none]
    (∀ t ∈ s.2.itemTerms ++ s.2.referring s.1, ¬ t.Nests) ∧
      ∃ q, (fromT s).plan = .ok q ∧ q.select.having = some (.call ">" [.call "sum" [.column "a"], .lit (.int 3)]) ∧
        ∀ sel ∈ q.selects, ∀ e ∈ sel.exprs, e.nestsAggregate = false := by
  intro s
  have hw : ∀ t ∈ s.2.itemTerms ++ s.2.referring s.1, ¬ t.Nests := by decide
  have hcapture : ∀ t ∈ s.2.referring s.1, ¬ s.2.Captures t := by decide
  refine ⟨hw, _, rfl, rfl, ?_⟩
  refine (plan_nests_iff (w := fromT s) rfl ?_).2 ?_
  · rintro p hp
    cases List.mem_singleton.1 hp
    exact hw
  · rintro p hp
    cases List.mem_singleton.1 hp
    exact ⟨by simp [s, bySumOfX], hcapture⟩

open Sql.Sample in
/-- `SELECT sum(x) AS x FROM t HAVING sum(x) > 3 ORDER BY sum(x)` is planned with sums of sums. -/
theorem not_plan_keeps_unnested :
    ¬ ∀ (w : QueryExpr) (q : Query), w.plan = .ok q →
      (∀ p ∈ w.selections, ∀ t ∈ p.2.itemTerms ++ p.2.filter.toList ++ p.2.referring p.1, ¬ t.Nests) →
      ∀ sel ∈ q.selects, ∀ e ∈ sel.exprs, e.nestsAggregate = false := by
  intro h
  let s := bySumOfX [.term (sumOf "x") (some { text := "x" })]
  have hw : ∀ t ∈ s.2.itemTerms ++ s.2.filter.toList ++ s.2.referring s.1, ¬ t.Nests := by decide
  have hno := h (fromT s) _ rfl (by
    rintro p hp
    cases List.mem_singleton.1 hp
    exact hw) _ (List.mem_singleton_self _)
  exact absurd (hno (.call "sum" [.call "sum" [.column "x"]]) (by decide)) (by decide)

end Sql

end TableQuery
