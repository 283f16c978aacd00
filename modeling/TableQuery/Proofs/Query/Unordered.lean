/-
What an order changes. The rows of each group are put in another order, then the groups, and no row of a
group gets lost or appears twice; the group filter has been applied before. So a selection without a limit gives
as many rows with its order as without it, and if all rows of the groups are shown, the same ones. Where a group
gives one row only, the order decides which one.
-/
import TableQuery.Proofs.Expr.Rowwise
import TableQuery.Proofs.Expr.Wildcard
import TableQuery.Proofs.Query.Pruning
import TableQuery.Proofs.Query.Pushdown
import Mathlib.Data.List.Perm.Basic

namespace TableQuery

/-! ## Tables in another order -/

/-- The same fields, and the same rows in another order. -/
structure Table.Reordered (t u : Table) : Prop where
  fields : u.fields = t.fields
  rows : u.rows.Perm t.rows

namespace Table

variable {t u g : Table}

theorem Reordered.refl (t : Table) : t.Reordered t := ⟨rfl, List.Perm.refl _⟩

theorem Reordered.isEmpty (h : t.Reordered u) : u.isEmpty = t.isEmpty := h.rows.isEmpty_eq

theorem Reordered.size (h : t.Reordered u) : u.size = t.size := h.rows.length_eq

/-- Ordering the rows of a table changes nothing but their order. -/
theorem reordered_of_orderedBy {keys : List OrderKey} (h : t.orderedBy keys = .ok u) : t.Reordered u := by
  refine ⟨fields_orderedBy h, ?_⟩
  unfold orderedBy at h
  obtain ⟨columns, -, h⟩ := bind_ok h
  obtain ⟨_, -, h⟩ := bind_ok h
  cases h
  have hlen : t.rows.length ≤ (rowsOfColumns t.size columns).length := by
    rw [length_rowsOfColumns]
    exact Nat.le_refl _
  have hrows : ((rowsOfColumns t.size columns).zip t.rows).map (·.2) = t.rows := List.map_snd_zip hlen
  have hsort := (Order.stableSort_perm (fun a b => Order.keyLess keys a.1 b.1)
    ((rowsOfColumns t.size columns).zip t.rows)).map (·.2)
  rwa [hrows] at hsort

/-- Under every key there is a row. -/
theorem isEmpty_of_mem_groupsBy {keys : List (List Value)} (hk : keys.length = t.size) (h : g ∈ t.groupsBy keys) :
    g.isEmpty = false := by
  obtain ⟨key, hkey, rfl⟩ := List.mem_map.1 h
  have hfst : (keys.zip t.rows).map (·.1) = keys := List.map_fst_zip (Nat.le_of_eq hk)
  rw [List.mem_eraseDups, ← hfst] at hkey
  obtain ⟨p, hp, rfl⟩ := List.mem_map.1 hkey
  have hrow : p.2 ∈ ((keys.zip t.rows).filter (·.1 == p.1)).map (·.2) :=
    List.mem_map_of_mem (List.mem_filter.2 ⟨hp, beq_self_eq_true p.1⟩)
  exact List.isEmpty_eq_false_iff.2 (List.ne_nil_of_mem hrow)

end Table

namespace Select

variable {s : Select} {k g : Table} {gs sorted : List Table} {items : List Expr}

/-! ## Groups -/

/-- No group is without rows. -/
theorem isEmpty_of_mem_groups (hk : k.isEmpty = false) (h : s.groups k = .ok gs) : ∀ g ∈ gs, g.isEmpty = false := by
  unfold groups at h
  split at h
  · cases h
    intro g hg
    rw [List.mem_singleton.1 hg]
    exact hk
  · obtain ⟨keys, hkeys, h⟩ := bind_ok h
    cases h
    obtain ⟨columns, -, hkeys⟩ := bind_ok hkeys
    cases hkeys
    exact fun g hg => Table.isEmpty_of_mem_groupsBy (by rw [List.length_map, length_rowsOfColumns]) hg

/-- The order changes the order of the rows of each group and the order of the groups. -/
theorem reordered_of_ordered (h : s.ordered gs = .ok sorted) :
    ∃ mid, List.Forall₂ Table.Reordered gs mid ∧ sorted.Perm mid := by
  unfold ordered at h
  split at h
  · cases h
    exact ⟨gs, List.forall₂_same.2 fun g _ => .refl g, List.Perm.refl _⟩
  · obtain ⟨mid, hmid, h⟩ := bind_ok h
    exact ⟨mid, (mapM_ok_forall₂ hmid).imp fun _ _ hg => Table.reordered_of_orderedBy hg, Order.sortTables_perm h⟩

/-! ## Rows of groups -/

/-- How many rows a group gives. -/
def shownRows (s : Select) (items : List Expr) (g : Table) : Nat := if s.collapses items then 1 else g.size

theorem length_rowsOn {rows : List Row} (hg : g.isEmpty = false) (h : s.rowsOn items g = .ok rows) :
    rows.length = s.shownRows items g := by
  rw [rowsOn, Expr.evalTable_eq hg] at h
  obtain ⟨out, hout, h⟩ := bind_ok h
  obtain ⟨columns, -, rfl⟩ := map_eq_ok hout
  cases h
  have hlen : (rowsOfColumns g.size columns).length = g.size := length_rowsOfColumns ..
  have hpos : 0 < g.size := List.length_pos_iff.2 (List.isEmpty_eq_false_iff.1 hg)
  unfold shownRows
  split
  · rw [List.length_take, hlen]
    omega
  · exact hlen

theorem containsAggregates_of_not_collapses (h : s.collapses items = false) :
    Expr.containsAggregates items = false := by
  rw [collapses, Bool.or_eq_false_iff] at h
  rw [Expr.containsAggregates_eq_any]
  exact h.2

/-- A group that does not collapse shows the values on each of its rows, which depend on the fields only. -/
theorem rowsOn_eq_map {fields : List String} {rows : List Row} (hc : s.collapses items = false) (hg : g.isEmpty = false)
    (hf : g.fields = fields) (h : s.rowsOn items g = .ok rows) :
    rows = g.rows.map (Expr.rowOf (.empty fields) items) := by
  have ha := containsAggregates_of_not_collapses hc
  have hne : g.rows ≠ [] := List.isEmpty_eq_false_iff.1 hg
  obtain ⟨out, hout, h⟩ := bind_ok h
  have hall := Expr.evalTable_part ha hne hout rfl hne (List.Subset.refl _)
  cases hout.symm.trans hall
  rw [hc, if_neg Bool.false_ne_true] at h
  cases h
  rw [Expr.rowOf_congr (t := .empty fields) ha hf]

/-! ## Results of groups -/

/-- Each group gives the rows that it shows, in whatever order the groups are. -/
theorem lengths_of_sorted {rows : List (List Row)} (hne : ∀ g ∈ gs, g.isEmpty = false)
    (ho : s.ordered gs = .ok sorted) (h : sorted.mapM (s.rowsOn items) = .ok rows) :
    (rows.map List.length).Perm (gs.map (s.shownRows items)) := by
  obtain ⟨mid, hmid, hperm⟩ := reordered_of_ordered ho
  have hsorted : ∀ g ∈ sorted, g.isEmpty = false := by
    intro g hg
    obtain ⟨g', hg', hr⟩ := exists_left_of_forall₂ hmid g (hperm.subset hg)
    exact hr.isEmpty.trans (hne g' hg')
  have hshown : mid.map (s.shownRows items) = gs.map (s.shownRows items) := by
    rw [← List.forall₂_eq_eq_eq, List.forall₂_map_left_iff, List.forall₂_map_right_iff]
    refine hmid.flip.imp fun u t hr => ?_
    have hr' : t.Reordered u := hr
    unfold shownRows
    rw [hr'.size]
  rw [map_eq_of_mapM_ok h fun g hg _ hrows => length_rowsOn (hsorted g hg) hrows, ← hshown]
  exact hperm.map _

/-- As many rows are made of the groups in any order. -/
theorem length_flatten_of_ordered {rows rows' : List (List Row)} (hne : ∀ g ∈ gs, g.isEmpty = false)
    (ho : s.ordered gs = .ok sorted) (h : sorted.mapM (s.rowsOn items) = .ok rows)
    (h' : gs.mapM (s.rowsOn items) = .ok rows') : rows.flatten.length = rows'.flatten.length := by
  rw [List.length_flatten, List.length_flatten,
    map_eq_of_mapM_ok h' fun g hg _ hrows => length_rowsOn (hne g hg) hrows]
  exact (lengths_of_sorted hne ho h).sum_nat

/-- If no group collapses, the same rows are made of the groups in any order. -/
theorem perm_flatten_of_ordered {fields : List String} {rows rows' : List (List Row)} (hc : s.collapses items = false)
    (hne : ∀ g ∈ gs, g.isEmpty = false) (hf : ∀ g ∈ gs, g.fields = fields) (ho : s.ordered gs = .ok sorted)
    (h : sorted.mapM (s.rowsOn items) = .ok rows) (h' : gs.mapM (s.rowsOn items) = .ok rows') :
    rows.flatten.Perm rows'.flatten := by
  obtain ⟨mid, hmid, hperm⟩ := reordered_of_ordered ho
  have hsorted : ∀ g ∈ sorted, g.isEmpty = false ∧ g.fields = fields := by
    intro g hg
    obtain ⟨g', hg', hr⟩ := exists_left_of_forall₂ hmid g (hperm.subset hg)
    exact ⟨hr.isEmpty.trans (hne g' hg'), hr.fields.trans (hf g' hg')⟩
  let shown (g : Table) : List Row := g.rows.map (Expr.rowOf (.empty fields) items)
  have hrows : rows.map id = sorted.map shown :=
    map_eq_of_mapM_ok h fun g hg _ hrows => rowsOn_eq_map hc (hsorted g hg).1 (hsorted g hg).2 hrows
  have hrows' : rows'.map id = gs.map shown :=
    map_eq_of_mapM_ok h' fun g hg _ hrows => rowsOn_eq_map hc (hne g hg) (hf g hg) hrows
  rw [List.map_id] at hrows hrows'
  rw [hrows, hrows', ← List.flatMap_def, ← List.flatMap_def]
  -- first the groups change places, then the rows inside them
  refine (hperm.flatMap_right shown).trans ?_
  clear hperm hrows hrows' hsorted h h' ho hne hf
  induction hmid with
  | nil => exact List.Perm.refl _
  | cons hr _ ih =>
    rw [List.flatMap_cons, List.flatMap_cons]
    exact (hr.rows.map _).append ih

/-! ## Runs -/

/-- The selection without its order. -/
def unordered (s : Select) : Select := { s with orderBy := [] }

theorem groupsWhere_unordered (s : Select) : ∀ gs : List Table, s.unordered.groupsWhere gs = s.groupsWhere gs
  | [] => rfl
  | g :: gs => by
    rw [groupsWhere, groupsWhere, groupsWhere_unordered s gs]
    rfl

/-- Without a limit, the rows of a run with its order are as many as those of the run without it, and the same if
no group collapses. -/
theorem run_unordered {source : Option Table} {r r' : Table} (hd : Table.Distinct (source.getD dummy).fields)
    (hl : s.limit = none) (h : s.run source = .ok r) (h' : s.unordered.run source = .ok r') :
    r.fields = r'.fields ∧ r.size = r'.size ∧
      (s.collapses (s.itemsOn (source.getD dummy).fields) = false → r.rows.Perm r'.rows) := by
  have hmeaning := meaning_of_run hd h
  have hmeaning' := meaning_of_run hd h'
  unfold meaning at hmeaning hmeaning'
  simp only at hmeaning hmeaning'
  have hsame : (.ok r : Except Error Table) = .ok r' → r.fields = r'.fields ∧ r.size = r'.size ∧
      (s.collapses (s.itemsOn (source.getD dummy).fields) = false → r.rows.Perm r'.rows) := fun he => by
    cases he
    exact ⟨rfl, rfl, fun _ => List.Perm.refl _⟩
  split at hmeaning
  · rename_i hempty
    rw [if_pos hempty] at hmeaning'
    exact hsame (hmeaning.symm.trans hmeaning')
  · rename_i hempty
    rw [if_neg hempty] at hmeaning'
    obtain ⟨k, hk, hmeaning⟩ := bind_ok hmeaning
    have hk' : s.unordered.kept (source.getD dummy) = .ok k := hk
    rw [hk', ok_bind] at hmeaning'
    cases he : k.isEmpty with
    | true =>
      rw [he] at hmeaning hmeaning'
      exact hsame (hmeaning.symm.trans hmeaning')
    | false =>
      rw [he, if_neg Bool.false_ne_true] at hmeaning hmeaning'
      obtain ⟨gs, hgs, hmeaning⟩ := bind_ok hmeaning
      obtain ⟨kept, hkept, hmeaning⟩ := bind_ok hmeaning
      obtain ⟨sorted, hsorted, hmeaning⟩ := bind_ok hmeaning
      obtain ⟨rows, hrows, hmeaning⟩ := bind_ok hmeaning
      -- up to the order both runs are the same
      have hgs' : s.unordered.groups k = .ok gs := hgs
      have hkept' : s.unordered.groupsWhere gs = .ok kept := (groupsWhere_unordered s gs).trans hkept
      have hsorted' : s.unordered.ordered kept = .ok kept := rfl
      rw [hgs', ok_bind, hkept', ok_bind, hsorted', ok_bind] at hmeaning'
      obtain ⟨rows', hrows', hmeaning'⟩ := bind_ok hmeaning'
      have hlimited : ∀ t, s.limited t = t := fun t => by rw [limited, hl]
      have hlimited' : ∀ t, s.unordered.limited t = t := hlimited
      rw [hlimited] at hmeaning
      rw [hlimited'] at hmeaning'
      cases hmeaning
      cases hmeaning'
      have hsub : kept ⊆ gs := groupsWhere_subset hkept
      have hne : ∀ g ∈ kept, g.isEmpty = false := fun g hg => isEmpty_of_mem_groups he hgs g (hsub hg)
      have hf : ∀ g ∈ kept, g.fields = k.fields := fun g hg => fields_groups hgs g (hsub hg)
      exact ⟨rfl, length_flatten_of_ordered hne hsorted hrows hrows', fun hc =>
        perm_flatten_of_ordered hc hne hf hsorted hrows hrows'⟩

end Select

/-! ## Queries -/

namespace Query

/-- The query without the order of its outermost selection. -/
def unordered : Query → Query
  | constant s => constant s.unordered
  | table s label => table s.unordered label
  | nested s inner => nested s.unordered inner

/-- What the outermost selection reads: the one row of a selection without a source, the table served under the
label, or the result of the query below. -/
def Reads (fetch : Fetcher) (t : Table) : Query → Prop
  | constant _ => t = Select.dummy
  | table _ label => fetch.Serves label t
  | nested _ inner => inner.execute fetch = .ok t

variable {fetch : Fetcher} {q : Query} {t r r' : Table}

theorem run_of_reads (ht : t.WellFormed) (h : q.Reads fetch t) (hr : q.execute fetch = .ok r) :
    q.select.run (if q.hasSource then some t else none) = .ok r := by
  cases q with
  | constant s =>
    rw [execute_eq] at hr
    obtain ⟨_, -, hr⟩ := bind_ok hr
    exact hr
  | table s label => exact (run_of_serves ht h hr).2
  | nested s inner =>
    have hinner : inner.execute fetch = .ok t := h
    rw [execute_eq] at hr
    obtain ⟨_, -, hr⟩ := bind_ok hr
    rw [source, hinner] at hr
    exact hr

/-- An order loses no row and repeats none. Let a query without a limit read a table with names that are pairwise
different up to letter case. If it succeeds with its order and without it, both results have the same fields and
as many rows; and they have the same rows if no group gives one row only, which implies that no item has an
aggregate. -/
theorem execute_unordered (ht : t.WellFormed) (hd : Table.Distinct t.fields) (hq : q.Reads fetch t)
    (hl : q.select.limit = none) (h : q.execute fetch = .ok r) (h' : q.unordered.execute fetch = .ok r') :
    r.fields = r'.fields ∧ r.size = r'.size ∧
      (q.select.collapses (q.select.itemsOn t.fields) = false →
        (∀ e ∈ q.select.itemsOn t.fields, e.containsAggregate = false) ∧ r.rows.Perm r'.rows) := by
  have hq' : q.unordered.Reads fetch t := by cases q <;> exact hq
  have hselect : q.unordered.select = q.select.unordered := by cases q <;> rfl
  have hsource : q.unordered.hasSource = q.hasSource := by cases q <;> rfl
  have ht' : (if q.hasSource then some t else none).getD Select.dummy = t := by
    cases q with
    | constant s => exact hq.symm
    | table s label => rfl
    | nested s inner => rfl
  have hrun := run_of_reads ht hq h
  have hrun' := run_of_reads ht hq' h'
  rw [hselect, hsource] at hrun'
  obtain ⟨hfields, hsize, hrows⟩ := Select.run_unordered (ht'.symm ▸ hd) hl hrun hrun'
  rw [ht'] at hrows
  refine ⟨hfields, hsize, fun hc => ⟨?_, hrows hc⟩⟩
  have ha := Select.containsAggregates_of_not_collapses hc
  rw [Expr.containsAggregates_eq_any, List.any_eq_false] at ha
  exact fun e he => Bool.not_eq_true _ ▸ ha e he

end Query

/-! ## An example -/

namespace Sample

/-- Orders by region, the largest ones first. -/
def ranked : Select where
  items := [.column "region", .column "id"]
  groupBy := [.column "region"]
  having := some (.call ">" [.column "id", .lit (.int 0)])
  orderBy := [⟨.column "Amount", .desc⟩]

/-- The rows of each region are ordered, then the regions by their first rows. -/
def rankedRows : List Row :=
  [[.text "east", .int 4], [.text "south", .int 2], [.text "south", .int 5], [.text "north", .int 1],
    [.text "north", .int 3]]

def unrankedRows : List Row :=
  [[.text "north", .int 1], [.text "north", .int 3], [.text "south", .int 2], [.text "south", .int 5],
    [.text "east", .int 4]]

end Sample

open Sample in
/-- Two columns are shown of each order, the third decides where. -/
theorem Query.execute_unordered_ranked :
    let q : Query := .table ranked "orders"
    let fetch : Fetcher := fun _ => .ok orders
    orders.WellFormed ∧ Table.Distinct orders.fields ∧ q.Reads fetch orders ∧ q.select.limit = none ∧
      q.execute fetch = .ok ⟨["region", "id"], rankedRows⟩ ∧
      q.unordered.execute fetch = .ok ⟨["region", "id"], unrankedRows⟩ ∧
      q.select.collapses (q.select.itemsOn orders.fields) = false ∧ rankedRows.Perm unrankedRows := by
  intro q fetch
  have ht : orders.WellFormed := by decide
  have hd : Table.Distinct orders.fields := by decide
  have hq : q.Reads fetch orders := fun _ => .inl rfl
  have h : q.execute fetch = .ok ⟨["region", "id"], rankedRows⟩ := rfl
  have h' : q.unordered.execute fetch = .ok ⟨["region", "id"], unrankedRows⟩ := rfl
  have hc : q.select.collapses (q.select.itemsOn orders.fields) = false := rfl
  obtain ⟨-, -, hperm⟩ := Query.execute_unordered ht hd hq rfl h h'
  exact ⟨ht, hd, hq, rfl, h, h', hc, (hperm hc).2⟩

end TableQuery
