/-
Two queries that differ only in the letter case of column names. All stages of a run look columns
up by name, so on a table whose names are pairwise different up to letter case they give the same
results. Only the test whether a group gives one row compares whole expressions: an item that is a
group key in another letter case is no group key for it.
-/
import TableQuery.Proofs.Query.Pruning
import TableQuery.Proofs.Query.Spelling.Columns
import TableQuery.Proofs.Query.Spelling.Stages

namespace TableQuery

namespace Select

variable {s s' : Select} {t : Table} {gs : List Table}

/-! ## Runs -/

/-- With names that are given, items in another letter case have the same names. -/
theorem expand_alike (h : s.Alike s') (hn : s.names.isSome) (fields : List String) :
    List.Forall₂ (fun p p' => p.1.Alike p'.1 ∧ p.2 = p'.2) (s.expand fields) (s'.expand fields) := by
  obtain ⟨names, hnames⟩ := Option.isSome_iff_exists.1 hn
  have hnames' : s'.names = some names := h.names ▸ hnames
  unfold expand
  rw [hnames, hnames', Option.getD_some, Option.getD_some]
  have hitems := h.items
  generalize s.items = es at hitems
  generalize s'.items = es' at hitems
  clear hnames hnames'
  induction hitems generalizing names with
  | nil => exact .nil
  | @cons e e' es es' he _ ih =>
    cases names with
    | nil => exact .nil
    | cons name names =>
      rw [List.zip_cons_cons, List.zip_cons_cons, List.flatMap_cons, List.flatMap_cons]
      refine List.rel_append ?_ (ih names)
      have hw : e = .wildcard ↔ e' = .wildcard := by
        rw [← Expr.lowerColumns_eq_wildcard, he, Expr.lowerColumns_eq_wildcard]
      simp only [hw]
      split
      · exact List.forall₂_same.2 fun _ _ => ⟨rfl, rfl⟩
      · exact .cons ⟨he, rfl⟩ .nil

theorem itemsOn_alike (h : s.Alike s') (hn : s.names.isSome) (fields : List String) :
    List.Forall₂ Expr.Alike (s.itemsOn fields) (s'.itemsOn fields) := by
  unfold itemsOn
  rw [List.forall₂_map_left_iff, List.forall₂_map_right_iff]
  exact (expand_alike h hn fields).imp fun _ _ hp => hp.1

theorem namesOn_alike (h : s.Alike s') (hn : s.names.isSome) (fields : List String) :
    s.namesOn fields = s'.namesOn fields := by
  unfold namesOn
  rw [← List.forall₂_eq_eq_eq, List.forall₂_map_left_iff, List.forall₂_map_right_iff]
  exact (expand_alike h hn fields).imp fun _ _ hp => hp.2

theorem answer_alike {items items' : List Expr} {names fields : List String} {keep : Nat} (h : s.Alike s')
    (hi : List.Forall₂ Expr.Alike items items') (hc : s.collapses items = s'.collapses items')
    (hd : Table.Distinct fields) (hf : ∀ g ∈ gs, g.fields = fields) (hw : ∀ g ∈ gs, g.WellFormed) :
    (s.answer items names keep gs).toOption = (s'.answer items' names keep gs).toOption := by
  have hlimited : s.limited = s'.limited := by
    funext u
    unfold limited
    rw [h.limit]
  rw [answer_eq hw, answer_eq hw, hlimited]
  refine toOption_bind_congr (keepGroups_alike h keep fun g hg => hf g hg ▸ hd) fun kept hk => ?_
  -- what is kept of the groups are their first columns
  have hkf : ∀ k ∈ kept, k.fields = fields.take keep := by
    intro k hm
    obtain ⟨g, hg, rfl⟩ := mem_keepGroups hk k hm
    rw [← hf g hg]
    rfl
  have hkd : Table.Distinct (fields.take keep) := hd.sublist (List.take_sublist keep fields)
  refine toOption_bind_congr (ordered_alike h fun k hm => hkf k hm ▸ hkd) fun sorted hs => ?_
  have hsf := fields_ordered hkf hs
  exact toOption_bind_congr (toOption_mapM_congr (List.forall₂_same.2 fun g hg =>
    rowsOn_alike (hsf g hg ▸ hkd) hi hc)) fun _ _ => rfl

theorem run_alike {source : Option Table} (hd : Table.Distinct (source.getD dummy).fields) (h : s.Alike s')
    (hn : s.names.isSome)
    (hc : s.collapses (s.itemsOn (source.getD dummy).fields) = s'.collapses (s'.itemsOn (source.getD dummy).fields)) :
    (s.run source).toOption = (s'.run source).toOption := by
  have hi := itemsOn_alike h hn (source.getD dummy).fields
  rw [run_eq, run_eq]
  simp only [namesOn_alike h hn]
  split
  · rfl
  refine toOption_bind_congr (kept_alike hd h) fun k hk => ?_
  cases he : k.isEmpty with
  | true => rfl
  | false =>
    have hf : k.fields = (source.getD dummy).fields := fields_kept hk
    have hdk : Table.Distinct k.fields := hf ▸ hd
    have hlen := length_namesOn s' (source.getD dummy).fields
    simp only [Bool.false_eq_true, if_false]
    rw [finish_workingTable he (hlen.trans hi.length_eq.symm), finish_workingTable he hlen]
    refine toOption_bind_congr (Table.choose_alike hdk hi []) fun first h1 => ?_
    refine toOption_bind_congr (Table.choose_alike hdk h.orderExprs first) fun chosen h2 => ?_
    refine toOption_bind_congr (Table.choose_alike hdk (toList_alike h.having) chosen) fun all h3 => ?_
    refine toOption_bind_congr (groups_alike hdk h) fun gs hgs => ?_
    have hgf := fields_groups hgs
    have hda : Table.Distinct (k.select all).fields := by
      obtain ⟨is, rfl, l1, -⟩ := Table.choose_ok h1
      obtain ⟨js, rfl, l2, -⟩ := Table.choose_ok h2
      obtain ⟨ks, rfl, l3, -⟩ := Table.choose_ok h3
      refine Table.distinct_select hdk (nodup_foldl_addOnce (nodup_foldl_addOnce (nodup_foldl_addOnce List.nodup_nil)))
        fun i hm => ?_
      simp only [mem_foldl_addOnce, List.not_mem_nil, false_or] at hm
      rcases hm with (hm | hm) | hm
      · exact l1 i hm
      · exact l2 i hm
      · exact l3 i hm
    refine answer_alike h hi hc hda ?_ ?_
    · intro g hg
      obtain ⟨g', hg', rfl⟩ := List.mem_map.1 hg
      show all.map g'.fieldAt = all.map k.fieldAt
      unfold Table.fieldAt
      rw [hgf g' hg']
    · intro g hg
      obtain ⟨g', hg', rfl⟩ := List.mem_map.1 hg
      exact g'.wellFormed_select all

end Select

/-! ## Queries -/

namespace Query

/-- A fetcher that gives only the columns asked for gives the same ones in every spelling. -/
theorem source_alike {tables : String → Except Error Table} {s s' : Select} {label : String}
    (hd : ∀ t, tables label = .ok t → Table.Distinct t.fields) (h : s.Alike s') :
    ((Query.table s label).source fun r => tables r.label >>= (·.project r.tokens)).toOption =
      ((Query.table s' label).source fun r => tables r.label >>= (·.project r.tokens)).toOption := by
  refine toOption_map_congr some (toOption_bind_congr rfl fun t ht => ?_)
  exact Table.project_alike (hd t ht) h.exprs

theorem source_constant {fetch : Fetcher} {q : Query} (h : q.hasSource = false) : q.source fetch = .ok none := by
  cases q with
  | constant s => rfl
  | table s label => cases h
  | nested s inner => cases h

theorem isSome_of_source {fetch : Fetcher} {q : Query} {src : Option Table} (h : q.source fetch = .ok src) :
    src.isSome = q.hasSource := by
  cases q with
  | constant s =>
    cases h
    rfl
  | table s label =>
    obtain ⟨t, -, rfl⟩ := map_eq_ok h
    rfl
  | nested s inner =>
    obtain ⟨t, -, rfl⟩ := map_eq_ok h
    rfl

/-- Queries that read the same, or both fail to, either both read a table or both do not. -/
theorem hasSource_eq {fetch fetch' : Fetcher} {q q' : Query}
    (h : (q.source fetch).toOption = (q'.source fetch').toOption) : q.hasSource = q'.hasSource := by
  rcases hs : q.source fetch with e | src
  · rcases hs' : q'.source fetch' with e' | src'
    · have hsource : ∀ {fetch : Fetcher} {q : Query} {e : Error}, q.source fetch = .error e → q.hasSource = true := by
        intro fetch q e he
        by_contra hq
        rw [source_constant (Bool.eq_false_iff.2 hq)] at he
        cases he
      rw [hsource hs, hsource hs']
    · rw [hs, hs'] at h
      cases h
  · rw [← isSome_of_source hs, ← isSome_of_source (eq_ok_of_toOption h hs)]

end Query

/-- The letter case of column names has no influence but on the test whether groups give one row.
Two queries that differ only in it, whose items have names, and that read the same table, with names
that are pairwise different up to letter case, give the same result or both an error, if either both
or none of them gives one row for each group. -/
theorem execute_alike {fetch fetch' : Fetcher} {q q' : Query} (h : q.select.Alike q'.select)
    (hn : q.select.names.isSome) (hs : (q.source fetch).toOption = (q'.source fetch').toOption)
    (hd : ∀ src, q.source fetch = .ok src → Table.Distinct (src.getD Select.dummy).fields)
    (hc : ∀ src, q.source fetch = .ok src →
      q.select.collapses (q.select.itemsOn (src.getD Select.dummy).fields) =
        q'.select.collapses (q'.select.itemsOn (src.getD Select.dummy).fields)) :
    (q.execute fetch).toOption = (q'.execute fetch').toOption := by
  rw [Query.execute_eq, Query.execute_eq, Query.hasSource_eq hs]
  refine toOption_bind_congr (Select.check_alike h _) fun _ _ => toOption_bind_congr hs fun src hsrc => ?_
  exact Select.run_alike (hd src hsrc) h hn (hc src hsrc)

namespace Sample

/-- The selection of the sums by region, in another spelling. -/
def shoutedTotals : Select where
  items := [.column "region", .call "sum" [.column "AMOUNT"]]
  names := some ["region", "total"]
  filter := some (.call ">" [.column "Amount", .lit (.int 0)])
  groupBy := [.column "REGION"]
  having := some (.call "not" [.call "is_null" [.column "NOTE"]])
  orderBy := [⟨.call "sum" [.column "aMOUNT"], .desc⟩]
  limit := some 5

def twice : Table := ⟨["a"], [[.int 1], [.int 1]]⟩

/-- One column, grouped by `a`. -/
def groupedByA (item : String) : Query :=
  .table { items := [.column item], names := some ["a"], groupBy := [.column "a"] } "twice"

end Sample

open Sample in
/-- The item is no group key up to its spelling, but there is an aggregate beside it. -/
theorem execute_alike_totals :
    let fetch : Fetcher := fun r => (.ok orders : Except Error Table) >>= (·.project r.tokens)
    let part : Table := orders.select [1, 2, 3]
    totals.Alike shoutedTotals ∧ totals.names.isSome ∧ (Query.table totals "orders").source fetch = .ok (some part) ∧
      Table.Distinct part.fields ∧
      totals.collapses (totals.itemsOn part.fields) = shoutedTotals.collapses (shoutedTotals.itemsOn part.fields) ∧
      ((Query.table totals "orders").execute fetch).toOption =
        ((Query.table shoutedTotals "orders").execute fetch).toOption ∧
      (Query.table totals "orders").execute fetch =
        .ok ⟨["region", "total"], [[.text "south", .int 30], [.text "north", .int 15]]⟩ := by
  intro fetch part
  have h : totals.Alike shoutedTotals := by
    simp [Select.Alike, Select.lowerColumns, Expr.lowerColumns, Expr.lowerColumnsOf, totals, shoutedTotals,
      Text.lowerAscii]
  have hs : (Query.table totals "orders").source fetch = .ok (some part) := rfl
  have hd : Table.Distinct part.fields := by decide
  have hc : totals.collapses (totals.itemsOn part.fields) =
      shoutedTotals.collapses (shoutedTotals.itemsOn part.fields) := rfl
  have hsource : ((Query.table totals "orders").source fetch).toOption =
      ((Query.table shoutedTotals "orders").source fetch).toOption := by
    refine @Query.source_alike (fun _ => .ok orders) totals shoutedTotals "orders" ?_ h
    rintro t ⟨⟩
    decide
  refine ⟨h, rfl, hs, hd, hc, execute_alike h rfl hsource ?_ ?_, rfl⟩
  · intro src hsrc
    cases hs.symm.trans hsrc
    exact hd
  · intro src hsrc
    cases hs.symm.trans hsrc
    exact hc

open Sample in
/-- `SELECT A AS a FROM twice GROUP BY a` gives a row for each row of the group. -/
theorem not_execute_alike :
    ¬ ∀ (fetch : Fetcher) (q q' : Query) (t : Table), q.source fetch = .ok (some t) → q'.source fetch = .ok (some t) →
      Table.Distinct t.fields → q.select.Alike q'.select → q.select.names.isSome →
        (q.execute fetch).toOption.map (·.rows) = (q'.execute fetch).toOption.map (·.rows) := by
  intro h
  have heq := h (fun _ => .ok twice) (groupedByA "A") (groupedByA "a") twice rfl rfl (by decide) (by decide) rfl
  have hcased : ((groupedByA "A").execute fun _ => .ok twice) = .ok ⟨["a"], [[.int 1], [.int 1]]⟩ := rfl
  have hplain : ((groupedByA "a").execute fun _ => .ok twice) = .ok ⟨["a"], [[.int 1]]⟩ := rfl
  rw [hcased, hplain] at heq
  exact absurd heq (by decide)

end TableQuery
