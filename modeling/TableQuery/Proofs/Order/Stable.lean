/-
Stable sorting. Each element is followed together with its place in the list. If any two elements compare, also by
way of a third one, the result has the elements in order and equal ones in the order of their places: an element
that is inserted goes behind those that it is not less than, all of which have been before it, and merging looks at
the places itself.
-/
import TableQuery.Proofs.Order.Sort
import Mathlib.Data.List.Nodup

namespace TableQuery.Order

variable {α : Type} {less : α → α → Bool}

/-- A strict order in which any two elements compare, so that what is not less than an element is the same as or
greater than it. Elements of which none is less need not be the same. -/
structure IsStrict (less : α → α → Bool) : Prop where
  asymm : ∀ {a b}, less a b = true → less b a = false
  trans : ∀ {a b c}, less b a = false → less c b = false → less c a = false

/-- Elements with their places, of which the first one is less, or is no greater and has the lower place. -/
def Earlier (less : α → α → Bool) (a b : α × Nat) : Prop :=
  less a.1 b.1 = true ∨ (less b.1 a.1 = false ∧ a.2 < b.2)

theorem IsStrict.not_less (h : IsStrict less) {a b : α × Nat} (he : Earlier less a b) : less b.1 a.1 = false := by
  obtain hl | ⟨hn, -⟩ := he
  · exact h.asymm hl
  · exact hn

/-! ## Insertion -/

theorem insertDescending_earlier (h : IsStrict less) {x : α × Nat} : ∀ {ys : List (α × Nat)},
    ys.Pairwise (fun a b => Earlier less b a) → (∀ y ∈ ys, y.2 < x.2) →
      (insertDescending (fun a b => less a.1 b.1) x ys).Pairwise fun a b => Earlier less b a
  | [], _, _ => by simp [insertDescending]
  | y :: ys, hys, hx => by
    obtain ⟨hy, hrest⟩ := List.pairwise_cons.1 hys
    have hxy := hx y (List.mem_cons_self ..)
    rw [insertDescending]
    split
    · rename_i hless
      refine List.pairwise_cons.2 ⟨fun z hz => ?_, ?_⟩
      · obtain rfl | hz := List.mem_cons.1 ((insertDescending_perm _ x ys).subset hz)
        · exact .inl hless
        · exact hy z hz
      · exact insertDescending_earlier h hrest fun z hz => hx z (List.mem_cons_of_mem _ hz)
    · rename_i hless
      have hnot : less x.1 y.1 = false := by simpa using hless
      refine List.pairwise_cons.2 ⟨fun z hz => .inr ⟨?_, hx z hz⟩, hys⟩
      obtain rfl | hz := List.mem_cons.1 hz
      · exact hnot
      · exact h.trans (h.not_less (hy z hz)) hnot

/-- Inserting elements in the order of their places keeps those inserted before in order. -/
theorem foldl_insertDescending_earlier (h : IsStrict less) : ∀ {xs acc : List (α × Nat)},
    xs.Pairwise (fun a b => a.2 < b.2) → acc.Pairwise (fun a b => Earlier less b a) →
      (∀ x ∈ xs, ∀ y ∈ acc, y.2 < x.2) →
        (xs.foldl (fun acc x => insertDescending (fun a b => less a.1 b.1) x acc) acc).Pairwise
          fun a b => Earlier less b a
  | [], _, _, hacc, _ => hacc
  | x :: xs, acc, hxs, hacc, hlt => by
    obtain ⟨hx, hrest⟩ := List.pairwise_cons.1 hxs
    rw [List.foldl_cons]
    refine foldl_insertDescending_earlier h hrest
      (insertDescending_earlier h hacc (hlt x (List.mem_cons_self ..))) fun z hz y hy => ?_
    obtain rfl | hy := List.mem_cons.1 ((insertDescending_perm _ x acc).subset hy)
    · exact hx z hz
    · exact hlt z (List.mem_cons_of_mem _ hz) y hy

/-! ## Merging -/

theorem mergeSort_earlier (h : IsStrict less) (xs : List α) :
    (xs.zipIdx.mergeSort (List.zipIdxLE fun a b => !less b a)).Pairwise (Earlier less) := by
  have htrans : ∀ a b c : α, (!less b a) = true → (!less c b) = true → (!less c a) = true := by
    simpa using fun a b c => h.trans
  have htotal : ∀ a b : α, (!less b a || !less a b) = true := by
    intro a b
    cases hba : less b a with
    | false => rfl
    | true => rw [h.asymm hba]; rfl
  have hle := List.pairwise_mergeSort (List.zipIdxLE_trans htrans) (List.zipIdxLE_total htotal) xs.zipIdx
  -- no place occurs twice
  have hplaces : ((xs.zipIdx.mergeSort (List.zipIdxLE fun a b => !less b a)).map (·.2)).Nodup := by
    refine (((List.mergeSort_perm xs.zipIdx _).map (·.2)).nodup_iff).2 ?_
    rw [List.zipIdx_map_snd]
    exact List.nodup_range'
  refine (hle.and (List.pairwise_map.1 hplaces)).imp fun {a b} hab => ?_
  obtain ⟨hle, hne⟩ := hab
  unfold List.zipIdxLE at hle
  cases hba : less b.1 a.1 with
  | true => simp [hba] at hle
  | false =>
    cases hless : less a.1 b.1 with
    | true => exact .inl hless
    | false =>
      simp [hba, hless] at hle
      exact .inr ⟨hba, by omega⟩

/-! ## Both -/

/-- Sorting gives the elements in order, equal ones in the order of their places. -/
theorem exists_stableSort (h : IsStrict less) (xs : List α) :
    ∃ sorted : List (α × Nat), sorted.Perm xs.zipIdx ∧ sorted.Pairwise (Earlier less) ∧
      stableSort less xs = sorted.map (·.1) := by
  unfold stableSort
  split
  · have hplaces : xs.zipIdx.Pairwise fun a b => a.2 < b.2 := by
      have hrange := List.pairwise_lt_range' (s := 0) (n := xs.length)
      rwa [← List.zipIdx_map_snd 0 xs, List.pairwise_map] at hrange
    have hsort := foldl_insertDescending_earlier h hplaces .nil fun _ _ _ hy => by cases hy
    have hmap : (xs.zipIdx.map (·.1)).foldl (fun acc x => insertDescending less x acc) [] =
        (xs.zipIdx.foldl (fun acc x => insertDescending (fun a b => less a.1 b.1) x acc) []).map (·.1) :=
      foldl_insertDescending_map fun a (_ : a ∈ xs.zipIdx ++ []) _ _ => rfl
    refine ⟨_, ?_, List.pairwise_reverse.2 hsort, ?_⟩
    · refine (List.reverse_perm _).trans ?_
      simpa using foldl_insertDescending_perm (fun a b : α × Nat => less a.1 b.1) xs.zipIdx []
    · rw [List.map_reverse, ← hmap, List.zipIdx_map_fst]
  · exact ⟨_, List.mergeSort_perm _ _, mergeSort_earlier h xs, List.mergeSort_zipIdx.symm⟩

/-- If no element is less than another one, sorting changes nothing. -/
theorem stableSort_of_not_less (h : ∀ a b, less a b = false) (xs : List α) : stableSort less xs = xs := by
  have hinsert : ∀ (x : α) (acc : List α), insertDescending less x acc = x :: acc := by
    intro x acc
    cases acc with
    | nil => rfl
    | cons y acc => rw [insertDescending, h, if_neg Bool.false_ne_true]
  unfold stableSort
  split
  · have hfold : ∀ xs acc : List α, xs.foldl (fun acc x => insertDescending less x acc) acc = xs.reverse ++ acc := by
      intro xs
      induction xs with
      | nil => exact fun _ => rfl
      | cons x xs ih =>
        intro acc
        rw [List.foldl_cons, hinsert, ih, List.reverse_cons, List.append_assoc, List.singleton_append]
    rw [hfold, List.append_nil, List.reverse_reverse]
  · exact List.mergeSort_of_pairwise (List.pairwise_of_forall fun a b => by rw [h b a]; rfl)

/-- It is enough that the elements of the list compare. -/
theorem exists_stableSort_of_mem (less : α → α → Bool) {xs : List α}
    (h : IsStrict fun a b : {a // a ∈ xs} => less a b) :
    ∃ sorted : List (α × Nat), sorted.Perm xs.zipIdx ∧ sorted.Pairwise (Earlier less) ∧
      stableSort less xs = sorted.map (·.1) := by
  obtain ⟨sorted, hperm, hpairs, hsort⟩ := exists_stableSort h xs.attach
  have hmap : stableSort less (xs.attach.map Subtype.val) =
      (stableSort (fun a b : {a // a ∈ xs} => less a b) xs.attach).map Subtype.val :=
    stableSort_map fun _ _ _ _ => rfl
  rw [List.attach_map_subtype_val, hsort] at hmap
  refine ⟨sorted.map (Prod.map Subtype.val id), ?_, ?_, ?_⟩
  · have hplaces := hperm.map (Prod.map Subtype.val id)
    rwa [List.map_zipIdx, List.attach_map_subtype_val] at hplaces
  · exact List.pairwise_map.2 hpairs
  · rw [hmap, List.map_map, List.map_map]
    rfl

end TableQuery.Order
