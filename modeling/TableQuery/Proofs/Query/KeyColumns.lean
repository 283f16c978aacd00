/-
Keys as columns. A run appends the values of the group keys and of the order keys to the rows,
partitions and sorts by the last columns, and takes them off again. The groups and the order are
those of keys that stand beside the rows.
-/
import TableQuery.Proofs.Group
import TableQuery.Proofs.Query.Meaning

namespace TableQuery

/-! ## Appended keys -/

theorem map_fst_zip_eq {α β γ : Type} (f : α → γ) {l : List α} {m : List β} (h : l.length = m.length) :
    (l.zip m).map (fun p => f p.1) = l.map f := by
  have : (l.zip m).map (fun p => f p.1) = ((l.zip m).map (·.1)).map f := by rw [List.map_map]; rfl
  rw [this, List.map_fst_zip (Nat.le_of_eq h)]

/-- Keys that stand beside elements are checked column by column, as they were read off. -/
theorem Order.forM_checkComparable_zip {α : Type} {columns : List (List Value)} {xs : List α}
    (h : ∀ c ∈ columns, c.length = xs.length) :
    ((List.range columns.length).forM fun j =>
      checkComparable (((rowsOfColumns xs.length columns).zip xs).map fun p => p.1.getD j .null)) =
      columns.forM checkComparable := by
  have hcolumns : (List.range columns.length).map
      (fun j => ((rowsOfColumns xs.length columns).zip xs).map fun p => p.1.getD j .null) = columns := by
    refine List.ext_getElem (by simp) fun j h1 h2 => ?_
    rw [List.getElem_map, List.getElem_range,
      map_fst_zip_eq (List.getD · j .null) (length_rowsOfColumns xs.length columns)]
    exact column_rowsOfColumns (List.getElem?_eq_getElem h2) (h _ (List.getElem_mem h2))
  conv_rhs => rw [← hcolumns, List.forM_eq_forM, List.forM_map]
  rfl

/-- Appending keys to the rows of a table, one for each row. -/
theorem Table.chain_keys {t : Table} {labels : List String} {keys : List Row} (hk : keys.length = t.size) :
    t.chain ⟨labels, keys⟩ = .ok ⟨t.fields ++ labels, (keys.zip t.rows).map fun p => p.2 ++ p.1⟩ := by
  have hrows : t.rows.zipWith (· ++ ·) keys = (keys.zip t.rows).map fun p => p.2 ++ p.1 := by
    rw [List.zip_eq_zipWith, List.map_zipWith, List.zipWith_comm]
  rw [← hrows]
  exact if_pos hk.symm

/-- Partition by appended key columns is partition by the keys themselves. -/
theorem Group.partition_keys {t : Table} (ht : t.WellFormed) {labels : List String} {keys : List Row}
    (hk : keys.length = t.size) (hl : labels.length ≠ 0) :
    partition ⟨t.fields ++ labels, (keys.zip t.rows).map fun p => p.2 ++ p.1⟩ labels.length =
      .ok (t.groupsBy (keys.map (·.map Value.groupKey))) := by
  have hw : (Table.mk (t.fields ++ labels) ((keys.zip t.rows).map fun p => p.2 ++ p.1)).width =
      t.fields.length + labels.length := List.length_append
  -- a row of `t` ends where the key begins, so `take` and `drop` part them again
  have hkeyed : ((keys.zip t.rows).map fun p => p.2 ++ p.1).map
      (fun r => (keyOf t.fields.length r, r.take t.fields.length)) =
      (keys.map (·.map Value.groupKey)).zip t.rows := by
    rw [List.map_map, List.zip_map_left]
    refine List.map_congr_left fun p hp => ?_
    have hp2 := ht p.2 (List.of_mem_zip hp).2
    simp only [Function.comp, keyOf, Prod.map, id]
    rw [← hp2, List.drop_left, List.take_left]
  have hfst : ((keys.map (·.map Value.groupKey)).zip t.rows).map (·.1) = keys.map (·.map Value.groupKey) :=
    List.map_fst_zip (by rw [List.length_map]; exact Nat.le_of_eq hk)
  have hgroups : ∀ key ∈ (keys.map (·.map Value.groupKey)).eraseDups,
      Table.ofRows t.fields ((((keys.map (·.map Value.groupKey)).zip t.rows).filter (·.1 == key)).map (·.2)) =
        .ok { t with rows := (((keys.map (·.map Value.groupKey)).zip t.rows).filter (·.1 == key)).map (·.2) } := by
    refine fun key _ => Table.ofRows_eq fun row hrow => ?_
    obtain ⟨p, hp, rfl⟩ := List.mem_map.1 hrow
    exact ht p.2 (List.of_mem_zip (List.mem_filter.1 hp).1).2
  rw [partition_eq hl (by omega), hw, Nat.add_sub_cancel]
  simp only [keysOf, rowsOf, hkeyed, hfst, List.take_left]
  exact mapM_eq_ok hgroups

/-- Sorting by appended key columns is sorting by the keys themselves. -/
theorem Order.sortRows_eq {t : Table} (ht : t.WellFormed) {keys : List OrderKey} (hk : keys.isEmpty = false) :
    sortRows keys t = t.orderedBy keys := by
  unfold sortRows Table.orderedBy
  rw [hk, if_neg Bool.false_ne_true]
  refine bind_congr_ok fun columns hc => ?_
  have hlen : keys.length = columns.length := (mapM_ok_forall₂ hc).length_eq
  -- the columns that are checked are those of the keys
  have hcheck : ((List.range keys.length).forM fun j =>
      checkComparable (((rowsOfColumns t.size columns).zip t.rows).map fun p => p.1.getD j .null)) =
      columns.forM checkComparable := by
    rw [hlen]
    refine forM_checkComparable_zip fun c hm => ?_
    obtain ⟨k, -, hv⟩ := mem_of_mapM_ok hc c hm
    exact Expr.length_evalRows hv
  have hlabels : columns.length = (keys.map (·.expr.label)).length := by rw [List.length_map, hlen]
  rw [ofRows_rowsOfColumns _ hlabels, ok_bind, Table.chain_keys (length_rowsOfColumns ..), ok_bind]
  have hwidth : ∀ p ∈ (rowsOfColumns t.size columns).zip t.rows, p.2.length = t.fields.length :=
    fun p hp => ht p.2 (List.of_mem_zip hp).2
  have hkeywidth : ∀ p ∈ (rowsOfColumns t.size columns).zip t.rows, p.1.length = (keys.map (·.expr.label)).length :=
    fun p hp => (length_of_mem_rowsOfColumns (List.of_mem_zip hp).1).trans hlabels
  refine (sortTrailing_append (List.length_map _) hkeywidth hwidth).trans ?_
  rw [hcheck]

end TableQuery
