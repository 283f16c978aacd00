/-
How many rows a query gives. Without group keys, group filter, limit and aggregates all rows that the filter
keeps form one group, which the order puts in another order, and every row of it is shown; but only if some column
stands in the items. Items without a column have the same values on all rows, and one row is shown of them.
-/
import TableQuery.Proofs.Query.Nested
import TableQuery.Proofs.Query.Spelling
import TableQuery.Proofs.Query.Unordered

namespace TableQuery

/-! ## Rows cut to some columns -/

namespace Table

/-- The rows with some columns only, of which the first ones are kept. -/
def cut (t : Table) (columns : List Nat) (keep : Nat) : Table := (t.select columns).sliceColumns 0 keep

theorem size_cut (t : Table) (columns : List Nat) (keep : Nat) : (t.cut columns keep).size = t.size := by
  simp [cut, size, sliceColumns, select]

theorem isEmpty_cut (t : Table) (columns : List Nat) (keep : Nat) : (t.cut columns keep).isEmpty = t.isEmpty := by
  simp [cut, isEmpty, sliceColumns, select]

end Table

namespace Select

variable {s : Select} {t k r : Table}

/-! ## Filtered rows -/

/-- The rows on which the filter is true; without a filter all rows. -/
def trueRows (s : Select) (t : Table) : List Row :=
  match s.filter with
  | some condition => (t.whereTrue condition).rows
  | none => t.rows

theorem rows_kept (hne : t.rows ≠ []) (h : s.kept t = .ok k) : k.rows = s.trueRows t := by
  unfold kept at h
  unfold trueRows
  cases hf : s.filter with
  | none =>
    rw [hf] at h
    cases h
    rfl
  | some condition =>
    rw [hf] at h
    rw [(Table.filterBy_ok hne h).2]

theorem trueRows_of_isEmpty (h : t.isEmpty = true) : s.trueRows t = [] := by
  have hrows : t.rows = [] := List.isEmpty_iff.1 h
  unfold trueRows Table.whereTrue
  cases s.filter <;> simp [hrows]

/-- Replacing stars by columns adds no aggregate. -/
theorem containsAggregates_itemsOn (h : Expr.containsAggregates s.items = false) (fields : List String) :
    Expr.containsAggregates (s.itemsOn fields) = false := by
  rw [Expr.containsAggregates_eq_any, List.any_eq_false] at h ⊢
  intro e he
  obtain he | ⟨f, -, rfl⟩ := mem_itemsOn he
  · exact h e he
  · exact Bool.false_ne_true

/-! ## One group -/

theorem keepGroups_of_none (h : s.having = none) (keep : Nat) (g : Table) :
    s.keepGroups keep [g] = .ok [g.sliceColumns 0 keep] := by
  have hholds : s.holdsOn g = .ok true := by rw [holdsOn, h]
  rw [keepGroups_cons, hholds]
  rfl

/-- Without group keys, group filter and limit all rows form one group, which is cut to the chosen columns. -/
theorem finish_ungrouped {items : List Expr} {names : List String} {first chosen all : List Nat}
    (hn : names.length = items.length) (hg : s.groupBy = []) (hh : s.having = none) (hl : s.limit = none)
    (hk : k.isEmpty = false) (hfirst : k.choose [] items = .ok first)
    (hchosen : k.choose first (s.orderBy.map (·.expr)) = .ok chosen)
    (hall : k.choose chosen s.having.toList = .ok all) :
    (s.workingTable items k >>= fun w => s.finish items names w.1 w.2) =
      s.ordered [k.cut all chosen.length] >>= fun sorted =>
        (sorted.mapM (s.rowsOn items)).map fun rows => ⟨names, rows.flatten⟩ := by
  have hgroups : s.groups k = .ok [k] := by rw [groups, hg]; rfl
  have hw : ∀ g ∈ [k].map (·.select all), g.WellFormed := by
    intro g hm
    obtain ⟨u, -, rfl⟩ := List.mem_map.1 hm
    exact Table.wellFormed_select u all
  have hlimited : ∀ u, s.limited u = u := fun u => by rw [limited, hl]
  rw [finish_workingTable hk hn, hfirst, ok_bind, hchosen, ok_bind, hall, ok_bind, hgroups, ok_bind, answer_eq hw,
    List.map_singleton, keepGroups_of_none hh, ok_bind]
  refine bind_congr_ok fun sorted _ => ?_
  cases sorted.mapM (s.rowsOn items) with
  | error e => rfl
  | ok rows => exact congrArg Except.ok (hlimited _)

/-- What is made of all rows as one group has as many rows as the group shows. -/
theorem size_finish_of_ungrouped {items : List Expr} {names : List String} (hn : names.length = items.length)
    (hg : s.groupBy = []) (hh : s.having = none) (hl : s.limit = none) (hk : k.isEmpty = false)
    (h : (s.workingTable items k >>= fun w => s.finish items names w.1 w.2) = .ok r) :
    r.size = s.shownRows items k := by
  have hchoices := (finish_workingTable hk hn).symm.trans h
  obtain ⟨first, hfirst, hchoices⟩ := bind_ok hchoices
  obtain ⟨chosen, hchosen, hchoices⟩ := bind_ok hchoices
  obtain ⟨all, hall, -⟩ := bind_ok hchoices
  rw [finish_ungrouped hn hg hh hl hk hfirst hchosen hall] at h
  obtain ⟨sorted, hsorted, h⟩ := bind_ok h
  obtain ⟨rows, hrows, rfl⟩ := map_eq_ok h
  have hempty : ∀ u ∈ [k.cut all chosen.length], u.isEmpty = false := by
    intro u hu
    rw [List.mem_singleton.1 hu, Table.isEmpty_cut, hk]
  have hlen : rows.map List.length = [s.shownRows items (k.cut all chosen.length)] :=
    List.perm_singleton.1 (lengths_of_sorted hempty hsorted hrows)
  rw [Table.size, List.length_flatten, hlen, List.sum_singleton]
  unfold shownRows
  rw [Table.size_cut]

/-- All rows are shown if a column stands in the items, else one. -/
theorem shownRows_of_ungrouped {items : List Expr} (hg : s.groupBy = []) (ha : Expr.containsAggregates items = false)
    (hk : k.isEmpty = false) :
    s.shownRows items k = if Expr.leavesOf items = [] then min 1 k.size else k.size := by
  have hpos : 0 < k.size := List.length_pos_iff.2 (List.isEmpty_eq_false_iff.1 hk)
  unfold shownRows
  rw [collapses_of_ungrouped hg ha]
  by_cases hb : Expr.leavesOf items = []
  · rw [if_pos hb, (Expr.haveBareToken_eq_false_iff ha).2 hb, Bool.not_false, if_pos rfl]
    omega
  · have hbare : Expr.haveBareToken items = true :=
      Bool.not_eq_false _ ▸ fun hf => hb ((Expr.haveBareToken_eq_false_iff ha).1 hf)
    rw [if_neg hb, hbare, Bool.not_true, if_neg Bool.false_ne_true]

/-- As many rows as there are on which the filter is true, or one of them if no column stands in the items. -/
theorem size_run_of_rowwise (hg : s.groupBy = []) (hh : s.having = none) (hl : s.limit = none)
    (ha : Expr.containsAggregates s.items = false) (h : s.run (some t) = .ok r) :
    r.size = if Expr.leavesOf (s.itemsOn t.fields) = [] then min 1 (s.trueRows t).length
      else (s.trueRows t).length := by
  rw [run_eq] at h
  simp only [Option.getD_some, Option.isSome_some, Bool.true_and] at h
  split at h
  · rename_i hempty
    cases h
    rw [trueRows_of_isEmpty hempty]
    simp [Table.empty, Table.size]
  · rename_i hne
    obtain ⟨k, hk, h⟩ := bind_ok h
    have hrows := rows_kept (by simpa [Table.isEmpty] using hne) hk
    cases hempty : k.isEmpty with
    | true =>
      rw [hempty, if_pos rfl] at h
      cases h
      rw [← hrows, List.isEmpty_iff.1 hempty]
      simp [Table.empty, Table.size]
    | false =>
      rw [hempty, if_neg Bool.false_ne_true] at h
      rw [size_finish_of_ungrouped (length_namesOn s t.fields) hg hh hl hempty h,
        shownRows_of_ungrouped hg (containsAggregates_itemsOn ha t.fields) hempty, ← hrows]
      rfl

/-! ## Counting rows -/

/-- The number of rows, under the name `count(*)`. -/
def counting : Select := { items := [.call "count" [.wildcard]] }

theorem rowsOn_counting (hg : k.isEmpty = false) :
    counting.rowsOn counting.items k = .ok [[.int (Int64.ofNat k.size)]] := by
  have heval : Expr.evalRows k (.call "count" [.wildcard]) =
      .ok (List.replicate k.size (.int (Int64.ofNat k.size))) := rfl
  have hall : counting.collapses counting.items = true := by decide
  obtain ⟨n, hn⟩ : ∃ n, k.size = n + 1 :=
    Nat.exists_eq_succ_of_ne_zero (List.length_pos_iff.2 (List.isEmpty_eq_false_iff.1 hg)).ne'
  have htable : Expr.evalTable k counting.items = .ok ⟨["count(*)"],
      rowsOfColumns k.size [List.replicate k.size (.int (Int64.ofNat k.size))]⟩ := by
    rw [Expr.evalTable_eq hg, counting]
    simp only [List.mapM_cons, List.mapM_nil, heval]
    rfl
  rw [rowsOn, htable, ok_bind, hall, if_pos rfl, hn]
  rfl

/-- The number of rows is one row, but of a table without rows there is no number. -/
theorem run_counting (t : Table) :
    counting.run (some t) = .ok ⟨["count(*)"], if t.isEmpty then [] else [[.int (Int64.ofNat t.size)]]⟩ := by
  have hitems : counting.itemsOn t.fields = counting.items := rfl
  have hnames : counting.namesOn t.fields = ["count(*)"] := rfl
  rw [run_eq]
  simp only [Option.getD_some, Option.isSome_some, Bool.true_and]
  cases he : t.isEmpty with
  | true =>
    rw [if_pos rfl, hnames]
    rfl
  | false =>
    have hkept : counting.kept t = .ok t := rfl
    obtain ⟨chosen, hchosen⟩ : ∃ chosen, t.choose [] counting.items = .ok chosen := ⟨_, rfl⟩
    have hordered : ∀ gs, counting.ordered gs = .ok gs := fun _ => rfl
    have hcut : (t.cut chosen chosen.length).isEmpty = false := (t.isEmpty_cut ..).trans he
    rw [if_neg Bool.false_ne_true, hkept, ok_bind, he, if_neg Bool.false_ne_true,
      finish_ungrouped (length_namesOn counting t.fields) rfl rfl rfl he hchosen rfl rfl, hordered, ok_bind, hitems,
      hnames, List.mapM_cons, rowsOn_counting hcut, Table.size_cut]
    rfl

end Select

/-! ## Queries -/

/-- How many rows a query gives that has a source, but no group keys, no group filter, no limit and no
aggregates: one for each row of the source on which its filter is true if a column stands in the items, and else
one in all if there is such a row. Counting the rows of its result gives this number where there are rows. -/
theorem Query.execute_rowwise {fetch : Fetcher} {q : Query} {r : Table} (hs : q.hasSource = true)
    (hg : q.select.groupBy = []) (hh : q.select.having = none) (hl : q.select.limit = none)
    (ha : Expr.containsAggregates q.select.items = false) (h : q.execute fetch = .ok r) :
    ∃ t, q.source fetch = .ok (some t) ∧
      r.size = (if Expr.leavesOf (q.select.itemsOn t.fields) = [] then min 1 (q.select.trueRows t).length
        else (q.select.trueRows t).length) ∧
      (Query.nested .counting q).execute fetch =
        .ok ⟨["count(*)"], if r.isEmpty then [] else [[.int (Int64.ofNat r.size)]]⟩ := by
  have hnested : (Query.nested .counting q).execute fetch = Select.counting.run (some r) :=
    execute_of_source (q := .nested .counting q) rfl (by rw [source, h]; rfl)
  rw [execute_eq] at h
  obtain ⟨_, -, h⟩ := bind_ok h
  obtain ⟨source, hsource, h⟩ := bind_ok h
  obtain ⟨t, rfl⟩ := Option.isSome_iff_exists.1 ((isSome_of_source hsource).trans hs)
  refine ⟨t, hsource, Select.size_run_of_rowwise hg hh hl ha h, ?_⟩
  rw [hnested, Select.run_counting]

/-! ## An example -/

namespace Sample

/-- The notes of the early orders, the dearest first. -/
def notes : Select where
  items := [.column "note"]
  filter := some early
  orderBy := [⟨.column "amount", .desc⟩]

/-- The same number for each early order. -/
def ones : Select := { notes with items := [.lit (.int 1)] }

/-- No orders at all. -/
def nothing : Select := { notes with filter := some (.lit (.bool false)) }

end Sample

open Sample in
/-- All four early orders are shown by their notes, but a number that is the same for all of them only once. -/
theorem Query.execute_rowwise_notes :
    let fetch : Fetcher := fun _ => .ok orders
    (Query.table notes "orders").execute fetch =
        .ok ⟨["note"], [[.null], [.text "b"], [.text "a"], [.text "c"]]⟩ ∧
      (Query.nested .counting (.table notes "orders")).execute fetch = .ok ⟨["count(*)"], [[.int 4]]⟩ ∧
      (Query.nested .counting (.table ones "orders")).execute fetch = .ok ⟨["count(*)"], [[.int 1]]⟩ := by
  intro fetch
  have hnotes : (Query.table notes "orders").execute fetch =
      .ok ⟨["note"], [[.null], [.text "b"], [.text "a"], [.text "c"]]⟩ := rfl
  have hones : (Query.table ones "orders").execute fetch = .ok ⟨["1"], [[.int 1]]⟩ := rfl
  refine ⟨hnotes, ?_, ?_⟩
  · obtain ⟨t, -, -, hcount⟩ := Query.execute_rowwise rfl rfl rfl rfl (by decide) hnotes
    exact hcount
  · obtain ⟨t, -, -, hcount⟩ := Query.execute_rowwise rfl rfl rfl rfl (by decide) hones
    exact hcount

open Sample in
/-- A number alone gives one row for all rows, and counting the rows of an empty result gives no number. -/
theorem Query.not_execute_rowwise :
    (¬∀ (fetch : Fetcher) (q : Query) (t r : Table), q.hasSource = true → q.select.groupBy = [] →
      q.select.having = none → q.select.limit = none → Expr.containsAggregates q.select.exprs = false →
      q.source fetch = .ok (some t) → q.execute fetch = .ok r → r.size = (q.select.trueRows t).length) ∧
    (Query.table nothing "orders").execute (fun _ => .ok orders) = .ok ⟨["note"], []⟩ ∧
      (Query.nested .counting (.table nothing "orders")).execute (fun _ => .ok orders) = .ok ⟨["count(*)"], []⟩ := by
  refine ⟨fun h => ?_, rfl, rfl⟩
  have hsize := h (fun _ => .ok orders) (.table ones "orders") orders ⟨["1"], [[.int 1]]⟩
    rfl rfl rfl rfl (by decide) rfl rfl
  revert hsize
  decide

end TableQuery
