/-
Column pruning is invisible. A run cuts the rows down to the columns that its clauses name and
carries keys in further columns; its meaning keeps every row whole. If no two names of the source
are equal up to letter case, both give the same result or the same error.

Every table of the run consists of chosen columns of the table that the meaning has in its place,
and the chosen columns hold all that the clauses to come refer to. So each stage of the run is the
stage of the meaning, followed by the choice of columns.
-/
import TableQuery.Proofs.Query.Answer

namespace TableQuery

namespace Table

/-! ## Chosen columns -/

variable {t g : Table} {cols : List Nat} {ts : List Token}

/-- With distinct names, chosen columns agree with the table on the names whose columns they keep. -/
theorem agree_of_distinct (hd : Distinct t.fields) (hc : ∀ i ∈ cols, i < t.width) (h : t.Keeps cols ts)
    (hg : g.fields = t.fields) : (g.select cols).Agree ts g := by
  have hdg : Distinct g.fields := hg ▸ hd
  have hcg : ∀ i ∈ cols, i < g.width := by unfold width; rwa [hg]
  refine ⟨by simp [size, select], fun name hn => ?_⟩
  rw [valuesOf?_select, valuesOf?]
  refine congrArg (Option.map g.column) ?_
  rcases hi : g.columnIndex? name with _ | i
  · -- what the part finds is a column of the table that is called so
    rcases ha : g.among? cols name with _ | i
    · rfl
    · obtain ⟨hmem, hs⟩ := sameLetters_of_among? ha
      cases hi.symm.trans ((columnIndex?_eq_some_iff hdg).2 ⟨hcg i hmem, hs⟩)
  · exact among?_of_distinct hdg hcg hi (h name hn i (columnIndex?_congr hg name ▸ hi))

theorem sliceColumns_select (t : Table) {chosen all : List Nat} (h : chosen <+: all) :
    (t.select all).sliceColumns 0 chosen.length = t.select chosen := by
  obtain ⟨rest, rfl⟩ := h
  unfold sliceColumns select
  simp [List.take_left']

theorem orderedBy_select {keys : List OrderKey}
    (h : (t.select cols).Agree (Expr.leavesOf (keys.map (·.expr))) t) :
    (t.select cols).orderedBy keys = (t.orderedBy keys).map (·.select cols) := by
  have hk : ∀ k ∈ keys, Expr.evalRows (t.select cols) k.expr = Expr.evalRows t k.expr := fun k hk =>
    Expr.evalRows_agree (h.mono (Expr.leaves_subset_leavesOf (List.mem_map_of_mem hk)))
  unfold orderedBy
  rw [mapM_congr_ok hk, h.size, bind_map_eq]
  refine bind_congr_ok fun columns _ => ?_
  rw [bind_map_eq]
  refine bind_congr_ok fun _ _ => ?_
  have hsort : Order.stableSort (fun a b => Order.keyLess keys a.1 b.1)
      ((rowsOfColumns t.size columns).zip (t.select cols).rows) =
      (Order.stableSort (fun a b => Order.keyLess keys a.1 b.1) ((rowsOfColumns t.size columns).zip t.rows)).map
        (Prod.map id fun r => cols.map (r.getD · .null)) := by
    rw [show (t.select cols).rows = t.rows.map fun r => cols.map (r.getD · .null) from rfl, List.zip_map_right]
    exact Order.stableSort_map fun _ _ _ _ => rfl
  simp only [hsort, pure_eq_ok, map_ok, List.map_map]
  unfold select
  simp only [List.map_map]
  rfl

end Table

namespace Select

/-! ## The columns of a working table -/

/-- The chosen columns of a working table: the first are for items and order, all of them also for
the group filter. -/
structure Working (s : Select) (items : List Expr) (t : Table) (chosen all : List Nat) : Prop where
  pre : chosen <+: all
  lt : ∀ i ∈ all, i < t.width
  items : t.Keeps chosen (Expr.leavesOf items)
  order : t.Keeps chosen (Expr.leavesOf (s.orderBy.map (·.expr)))
  having : t.Keeps all (Expr.leavesOf s.having.toList)

variable {s : Select} {items : List Expr} {t : Table} {gs : List Table} {chosen all : List Nat}

theorem Working.lt_chosen (h : s.Working items t chosen all) : ∀ i ∈ chosen, i < t.width :=
  fun i hi => h.lt i (h.pre.subset hi)

theorem working_of_choose {first : List Nat} (h1 : t.choose [] items = .ok first)
    (h2 : t.choose first (s.orderBy.map (·.expr)) = .ok chosen) (h3 : t.choose chosen s.having.toList = .ok all) :
    s.Working items t chosen all := by
  obtain ⟨is, rfl, l1, k1⟩ := Table.choose_ok h1
  obtain ⟨js, rfl, l2, k2⟩ := Table.choose_ok h2
  obtain ⟨ks, rfl, l3, k3⟩ := Table.choose_ok h3
  refine ⟨prefix_foldl_addOnce _ _, fun i hm => ?_, ?_, k2.mono (subset_foldl_addOnce _ _),
    k3.mono (subset_foldl_addOnce _ _)⟩
  · simp only [mem_foldl_addOnce, List.not_mem_nil, false_or] at hm
    rcases hm with (hm | hm) | hm
    · exact l1 i hm
    · exact l2 i hm
    · exact l3 i hm
  · exact k1.mono (List.Subset.trans (subset_foldl_addOnce _ _) (prefix_foldl_addOnce _ _).subset)

/-! ## Stages on chosen columns -/

theorem holdsOn_select (hd : Table.Distinct t.fields) (h : s.Working items t chosen all) {g : Table}
    (hg : g.fields = t.fields) :
    s.holdsOn (g.select all) = s.holdsOn g := by
  unfold holdsOn
  cases hs : s.having with
  | none => rfl
  | some condition =>
    have hsub : Expr.leaves condition ⊆ Expr.leavesOf s.having.toList :=
      Expr.leaves_subset_leavesOf (by rw [hs]; exact List.mem_singleton_self _)
    simp only [Expr.evalRows_agree ((Table.agree_of_distinct hd h.lt h.having hg).mono hsub)]

theorem keepGroups_select (hd : Table.Distinct t.fields) (h : s.Working items t chosen all)
    (hg : ∀ g ∈ gs, g.fields = t.fields) :
    s.keepGroups chosen.length (gs.map (·.select all)) = (s.groupsWhere gs).map (List.map (·.select chosen)) := by
  induction gs with
  | nil => rfl
  | cons g gs ih =>
    rw [List.map_cons, keepGroups_cons, groupsWhere, holdsOn_select hd h (hg g (List.mem_cons_self ..)), bind_map_eq]
    refine bind_congr_ok fun holds _ => ?_
    rw [ih fun g hm => hg g (List.mem_cons_of_mem _ hm), map_bind_eq, bind_map_eq]
    refine bind_congr_ok fun rest _ => ?_
    rw [Table.sliceColumns_select g h.pre]
    cases holds <;> rfl

theorem ordered_select (hd : Table.Distinct t.fields) (h : s.Working items t chosen all)
    (hg : ∀ g ∈ gs, g.fields = t.fields) :
    s.ordered (gs.map (·.select chosen)) = (s.ordered gs).map (List.map (·.select chosen)) := by
  unfold ordered
  cases ho : s.orderBy.isEmpty with
  | true => rfl
  | false =>
    have hrows : (gs.map (·.select chosen)).mapM (fun g : Table => g.orderedBy s.orderBy) =
        (gs.mapM fun g : Table => g.orderedBy s.orderBy).map (List.map (·.select chosen)) := mapM_map_eq fun g hm =>
      Table.orderedBy_select (Table.agree_of_distinct hd h.lt_chosen h.order (hg g hm))
    simp only [Bool.false_eq_true, if_false, hrows, map_bind_eq, bind_map_eq]
    refine bind_congr_ok fun gs' hgs => Order.sortTables_map fun g hm k hk => ?_
    obtain ⟨g', hm', hgo⟩ := mem_of_mapM_ok hgs g hm
    have hf : g.fields = t.fields := (Table.fields_orderedBy hgo).trans (hg g' hm')
    have ha := Table.agree_of_distinct hd h.lt_chosen h.order hf
    exact Expr.evalWhole_agree (ha.mono (Expr.leaves_subset_leavesOf (List.mem_map_of_mem hk)))

theorem rowsOn_select (hd : Table.Distinct t.fields) (h : s.Working items t chosen all) {g : Table}
    (hg : g.fields = t.fields) : s.rowsOn items (g.select chosen) = s.rowsOn items g := by
  unfold rowsOn
  rw [Expr.evalTable_agree (Table.agree_of_distinct hd h.lt_chosen h.items hg)]

/-- What is made of groups that are cut to the chosen columns is what is made of the whole groups. -/
theorem answer_select {names : List String} (hd : Table.Distinct t.fields) (h : s.Working items t chosen all)
    (hg : ∀ g ∈ gs, g.fields = t.fields) :
    s.answer items names chosen.length (gs.map (·.select all)) =
      s.groupsWhere gs >>= fun kept => s.ordered kept >>= fun sorted =>
        sorted.mapM (s.rowsOn items) >>= fun rows => .ok (s.limited ⟨names, rows.flatten⟩) := by
  have hw : ∀ g ∈ gs.map (·.select all), g.WellFormed := fun g hm => by
    obtain ⟨g', -, rfl⟩ := List.mem_map.1 hm
    exact g'.wellFormed_select all
  rw [answer_eq hw, keepGroups_select hd h hg, map_bind_eq]
  refine bind_congr_ok fun kept hk => ?_
  have hkept : ∀ g ∈ kept, g.fields = t.fields := fun g hm => hg g (groupsWhere_subset hk hm)
  rw [ordered_select hd h hkept, map_bind_eq]
  refine bind_congr_ok fun sorted hs => ?_
  rw [List.mapM_map]
  refine congrArg (· >>= _) (mapM_congr_ok fun g hm => ?_)
  exact rowsOn_select hd h (fields_ordered hkept hs g hm)

/-! ## Runs -/

/-- What the selection means on the rows that the filter keeps. -/
theorem finish_of_choose {names : List String} {first : List Nat} (ht : t.isEmpty = false)
    (hd : Table.Distinct t.fields) (hn : names.length = items.length) (h1 : t.choose [] items = .ok first)
    (h2 : t.choose first (s.orderBy.map (·.expr)) = .ok chosen) (h3 : t.choose chosen s.having.toList = .ok all) :
    (s.workingTable items t >>= fun w => s.finish items names w.1 w.2) =
      s.groups t >>= fun gs => s.groupsWhere gs >>= fun kept => s.ordered kept >>= fun sorted =>
        sorted.mapM (s.rowsOn items) >>= fun rows => .ok (s.limited ⟨names, rows.flatten⟩) := by
  rw [finish_workingTable ht hn, h1, ok_bind, h2, ok_bind, h3, ok_bind]
  -- every table of the run is a choice of columns of one of the meaning, and all tables of the meaning have
  -- the fields of the source
  exact bind_congr_ok fun gs hgs => answer_select hd (working_of_choose h1 h2 h3) (fields_groups hgs)

/-- A run gives what the selection means on whole rows, the result as well as the error. -/
theorem run_eq_meaning {source : Option Table} (hd : Table.Distinct (source.getD dummy).fields)
    (hr : (source.getD dummy).Resolves (Expr.leavesOf s.exprs)) : s.run source = s.meaning source := by
  rw [run_eq]
  unfold meaning
  simp only
  split
  · rfl
  refine bind_congr_ok fun k hk => ?_
  have hf : k.fields = (source.getD dummy).fields := fields_kept hk
  cases he : k.isEmpty with
  | true => rfl
  | false =>
    have hrk : k.Resolves (Expr.leavesOf s.exprs) := hr.congr hf.symm
    have hitems : k.Resolves (Expr.leavesOf (s.itemsOn k.fields)) :=
      resolves_itemsOn (hrk.mono (Expr.leavesOf_subset items_subset_exprs))
    rw [← hf] at hd ⊢
    obtain ⟨first, h1⟩ := Table.exists_choose hitems []
    obtain ⟨chosen, h2⟩ := Table.exists_choose (hrk.mono (Expr.leavesOf_subset orderBy_subset_exprs)) first
    obtain ⟨all, h3⟩ := Table.exists_choose (hrk.mono (Expr.leavesOf_subset having_subset_exprs)) chosen
    simp only [Bool.false_eq_true, if_false]
    exact finish_of_choose he hd (length_namesOn s k.fields) h1 h2 h3

/-- A run that succeeds gives what the selection means, also where a name that is not found is not looked up. -/
theorem meaning_of_run {source : Option Table} {r : Table} (hd : Table.Distinct (source.getD dummy).fields)
    (h : s.run source = .ok r) : s.meaning source = .ok r := by
  rw [run_eq] at h
  unfold meaning
  simp only at h ⊢
  split at h
  · rename_i hempty
    rw [if_pos hempty]
    exact h
  · rename_i hempty
    rw [if_neg hempty]
    obtain ⟨k, hk, h⟩ := bind_ok h
    have hf : k.fields = (source.getD dummy).fields := fields_kept hk
    rw [hk, ok_bind]
    cases he : k.isEmpty with
    | true =>
      rw [he] at h
      exact h
    | false =>
      have hn := length_namesOn s (source.getD dummy).fields
      rw [he, if_neg Bool.false_ne_true] at h
      have hchoose := h
      rw [finish_workingTable he hn] at hchoose
      obtain ⟨first, h1, hchoose⟩ := bind_ok hchoose
      obtain ⟨chosen, h2, hchoose⟩ := bind_ok hchoose
      obtain ⟨all, h3, -⟩ := bind_ok hchoose
      rw [finish_of_choose he (hf ▸ hd) hn h1 h2 h3] at h
      exact h

end Select

/-- Column pruning is invisible. A checked query that reads a table with names that are pairwise
different up to letter case, in which all columns that it names are found, gives what its selection
means on the rows of this table: the result where the meaning has one, and an error otherwise. -/
theorem execute_eq_meaning {fetch : Fetcher} {q : Query} {source : Option Table}
    (hc : q.select.check q.hasSource = .ok ()) (hs : q.source fetch = .ok source)
    (hd : Table.Distinct (source.getD Select.dummy).fields)
    (hr : (source.getD Select.dummy).Resolves (Expr.leavesOf q.select.exprs)) :
    q.execute fetch = q.select.meaning source := by
  rw [Query.execute_of_source hc hs, Select.run_eq_meaning hd hr]

/-! ## An example -/

namespace Sample

def orders : Table := ⟨["id", "region", "amount", "note"],
  [[.int 1, .text "north", .int 10, .text "a"], [.int 2, .text "south", .int 30, .text "b"],
    [.int 3, .text "north", .int 5, .text "c"], [.int 4, .text "east", .int 99, .null],
    [.int 5, .text "south", .int (-1), .null]]⟩

/-- Sums by region, largest first, of the regions of which all kept orders have a note. -/
def totals : Select where
  items := [.column "Region", .call "sum" [.column "amount"]]
  names := some ["region", "total"]
  filter := some (.call ">" [.column "amount", .lit (.int 0)])
  groupBy := [.column "Region"]
  having := some (.call "not" [.call "is_null" [.column "note"]])
  orderBy := [⟨.call "sum" [.column "amount"], .desc⟩]
  limit := some 5

end Sample

open Sample in
/-- The filter and the order refer to the same column, the group filter to one that no item shows. -/
theorem execute_eq_meaning_totals :
    totals.check true = .ok () ∧ Table.Distinct orders.fields ∧ orders.Resolves (Expr.leavesOf totals.exprs) ∧
      (Query.table totals "orders").execute (fun _ => .ok orders) = totals.meaning (some orders) ∧
      totals.meaning (some orders) =
        .ok ⟨["region", "total"], [[.text "south", .int 30], [.text "north", .int 15]]⟩ := by
  have hc : totals.check true = .ok () := rfl
  have hd : Table.Distinct orders.fields := by decide
  have hr : orders.Resolves (Expr.leavesOf totals.exprs) := by decide
  exact ⟨hc, hd, hr, execute_eq_meaning hc rfl hd hr, rfl⟩

end TableQuery
