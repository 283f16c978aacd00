/-
Sorting: the result is a permutation of the list, and a map that keeps the order of the elements
may be applied before or after. So neither the place of the keys nor other columns of a row, nor
other columns of a table in a list of tables, have an influence on the order.
-/
import TableQuery.Proofs.Expr.Rows

namespace TableQuery.Order

variable {α β : Type}

/-! ## Stable sorting -/

theorem insertDescending_perm (less : α → α → Bool) (x : α) : ∀ ys, (insertDescending less x ys).Perm (x :: ys)
  | [] => List.Perm.refl _
  | y :: ys => by
    rw [insertDescending]
    split
    · exact ((insertDescending_perm less x ys).cons y).trans (List.Perm.swap x y ys)
    · exact List.Perm.refl _

theorem foldl_insertDescending_perm (less : α → α → Bool) : ∀ xs acc : List α,
    (xs.foldl (fun acc x => insertDescending less x acc) acc).Perm (xs ++ acc)
  | [], acc => List.Perm.refl _
  | x :: xs, acc => by
    rw [List.foldl_cons]
    refine (foldl_insertDescending_perm less xs _).trans ?_
    exact ((insertDescending_perm less x acc).append_left xs).trans List.perm_middle

theorem stableSort_perm (less : α → α → Bool) (xs : List α) : (stableSort less xs).Perm xs := by
  unfold stableSort
  split
  · refine (List.reverse_perm _).trans ?_
    simpa using foldl_insertDescending_perm less xs []
  · exact List.mergeSort_perm xs _

theorem insertDescending_map {less : α → α → Bool} {less' : β → β → Bool} {f : α → β} {x : α} :
    ∀ {ys : List α}, (∀ y ∈ ys, less' (f x) (f y) = less x y) →
      insertDescending less' (f x) (ys.map f) = (insertDescending less x ys).map f
  | [], _ => rfl
  | y :: ys, h => by
    rw [List.map_cons, insertDescending, insertDescending, h y (List.mem_cons_self ..),
      insertDescending_map fun z hz => h z (List.mem_cons_of_mem _ hz)]
    split <;> rfl

theorem foldl_insertDescending_map {less : α → α → Bool} {less' : β → β → Bool} {f : α → β} :
    ∀ {xs acc : List α}, (∀ x ∈ xs ++ acc, ∀ y ∈ xs ++ acc, less' (f x) (f y) = less x y) →
      (xs.map f).foldl (fun acc x => insertDescending less' x acc) (acc.map f) =
        (xs.foldl (fun acc x => insertDescending less x acc) acc).map f
  | [], acc, _ => rfl
  | x :: xs, acc, h => by
    rw [List.map_cons, List.foldl_cons, List.foldl_cons,
      insertDescending_map fun y hy => h x (by simp) y (by simp [hy])]
    have hperm : (xs ++ insertDescending less x acc).Perm (x :: xs ++ acc) :=
      ((insertDescending_perm less x acc).append_left xs).trans List.perm_middle
    exact foldl_insertDescending_map fun y hy z hz => h y (hperm.mem_iff.1 hy) z (hperm.mem_iff.1 hz)

/-- A map that keeps the order of the elements may be applied before sorting or after. -/
theorem stableSort_map {less : α → α → Bool} {less' : β → β → Bool} {f : α → β} {xs : List α}
    (h : ∀ x ∈ xs, ∀ y ∈ xs, less' (f x) (f y) = less x y) :
    stableSort less' (xs.map f) = (stableSort less xs).map f := by
  unfold stableSort
  rw [List.length_map]
  split
  · rw [← List.append_nil xs] at h
    have hfold : (xs.map f).foldl (fun acc x => insertDescending less' x acc) [] =
        (xs.foldl (fun acc x => insertDescending less x acc) []).map f :=
      foldl_insertDescending_map h
    rw [hfold, List.map_reverse]
  · rw [List.map_mergeSort fun a ha b hb => ?_]
    rw [h b hb a ha]

/-! ## Tables -/

/-- Tables are ordered by the values of their keys alone. -/
theorem sortTables_map {keys : List OrderKey} {f : Table → Table} {ts : List Table}
    (h : ∀ t ∈ ts, ∀ k ∈ keys, Expr.evalWhole (f t) k.expr = Expr.evalWhole t k.expr) :
    sortTables keys (ts.map f) = (sortTables keys ts).map (List.map f) := by
  have hkeyed : (ts.map f).mapM (fun t => return (← keys.mapM fun k => Expr.evalWhole t k.expr, t)) =
      (ts.mapM fun t => do return (← keys.mapM fun k => Expr.evalWhole t k.expr, t) : Except Error _).map
        (List.map (Prod.map id f)) := by
    refine mapM_map_eq fun t ht => ?_
    rw [mapM_congr_ok fun k hk => h t ht k hk]
    cases keys.mapM fun k => Expr.evalWhole t k.expr <;> rfl
  unfold sortTables
  rw [List.length_map, hkeyed, map_bind_eq]
  split
  · rfl
  · rw [bind_map_eq]
    refine bind_congr_ok fun keyed _ => ?_
    have hc : ∀ i, (keyed.map (Prod.map id f)).map (fun p => p.1.getD i Value.null) =
        keyed.map fun p => p.1.getD i .null := fun i => by rw [List.map_map]; rfl
    simp only [hc]
    rw [bind_map_eq]
    refine bind_congr_ok fun _ _ => ?_
    have hsort : stableSort (fun a b => keyLess keys a.1 b.1) (keyed.map (Prod.map id f)) =
        (stableSort (fun a b => keyLess keys a.1 b.1) keyed).map (Prod.map id f) :=
      stableSort_map fun _ _ _ _ => rfl
    rw [hsort]
    simp only [pure_eq_ok, map_ok, List.map_map]
    rfl

/-- Sorting tables changes nothing but their order. -/
theorem sortTables_perm {keys : List OrderKey} {ts us : List Table} (h : sortTables keys ts = .ok us) : us.Perm ts := by
  unfold sortTables at h
  split at h
  · cases h; exact List.Perm.refl _
  · obtain ⟨keyed, hk, h⟩ := bind_ok h
    obtain ⟨_, -, h⟩ := bind_ok h
    cases h
    -- beside each key stands the table that it was evaluated on
    have hkeyed : keyed.map (·.2) = ts.map id := map_eq_of_mapM_ok hk fun t _ p hp => by
      obtain ⟨_, -, hp⟩ := bind_ok hp
      cases hp; rfl
    rw [List.map_id] at hkeyed
    exact hkeyed ▸ (stableSort_perm _ keyed).map _

/-! ## Rows -/

/-- Sorting by trailing key columns is sorting by keys that stand beside the rows. -/
theorem sortTrailing_append {keys : List OrderKey} {fields labels : List String} {keyed : List (Row × Row)}
    (hl : labels.length = keys.length) (hk : ∀ p ∈ keyed, p.1.length = labels.length)
    (hr : ∀ p ∈ keyed, p.2.length = fields.length) :
    sortTrailing keys ⟨fields ++ labels, keyed.map fun p => p.2 ++ p.1⟩ fields.length = do
      (List.range keys.length).forM fun j => checkComparable (keyed.map fun p => p.1.getD j .null)
      return ⟨fields, (stableSort (fun a b => keyLess keys a.1 b.1) keyed).map (·.2)⟩ := by
  have hw : (Table.mk (fields ++ labels) (keyed.map fun p => p.2 ++ p.1)).width = fields.length + keys.length := by
    simp [Table.width, hl]
  have hcol : ∀ j, (Table.mk (fields ++ labels) (keyed.map fun p => p.2 ++ p.1)).column (fields.length + j) =
      keyed.map fun p => p.1.getD j .null := by
    intro j
    unfold Table.column
    rw [List.map_map]
    refine List.map_congr_left fun p hp => ?_
    simp [← hr p hp, List.getD_eq_getElem?_getD, List.getElem?_append_right]
  -- the rows are compared by their last columns, which are the keys beside them
  have hsort : stableSort (fun a b => keyLess keys (a.drop fields.length) (b.drop fields.length))
      (keyed.map fun p => p.2 ++ p.1) =
      (stableSort (fun a b => keyLess keys a.1 b.1) keyed).map fun p => p.2 ++ p.1 := by
    refine stableSort_map fun p hp q hq => ?_
    simp only [← hr p hp, List.drop_left]
    rw [hr p hp, ← hr q hq, List.drop_left]
  unfold sortTrailing
  rw [hw, if_neg (by omega), Nat.add_sub_cancel]
  have hrows : Table.ofRows (fields ++ labels)
      ((stableSort (fun a b => keyLess keys a.1 b.1) keyed).map fun p => p.2 ++ p.1) =
      .ok ⟨fields ++ labels, (stableSort (fun a b => keyLess keys a.1 b.1) keyed).map fun p => p.2 ++ p.1⟩ := by
    refine Table.ofRows_eq fun row hrow => ?_
    obtain ⟨p, hp, rfl⟩ := List.mem_map.1 hrow
    have hp' := (stableSort_perm _ _).mem_iff.1 hp
    rw [List.length_append, List.length_append, hr p hp', hk p hp']
  simp only [List.range'_eq_map_range, List.forM_eq_forM, List.forM_map, hcol, hsort, hrows]
  refine bind_congr_ok fun _ _ => ?_
  refine congrArg Except.ok ?_
  unfold Table.sliceColumns
  rw [List.drop_zero, List.take_left, List.map_map]
  refine congrArg (Table.mk fields) (List.map_congr_left fun p hp => ?_)
  rw [Function.comp, ← hr p ((stableSort_perm _ _).mem_iff.1 hp), List.take_left, List.drop_zero]

end TableQuery.Order
