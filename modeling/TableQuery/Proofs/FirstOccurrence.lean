/-
Lists without their repetitions. Each element stands at the place of its first occurrence. The list is made by adding the
elements one after the other where they are not yet there.
-/
import Mathlib.Data.List.Induction
import Mathlib.Data.List.Nodup

namespace TableQuery

variable {α : Type} [BEq α] [LawfulBEq α]

/-! ## Adding what is not yet there -/

/-- Adds what is not yet there. -/
def addOnce (l : List α) (a : α) : List α := if l.contains a then l else l ++ [a]

theorem mem_addOnce {l : List α} {a b : α} : b ∈ addOnce l a ↔ b ∈ l ∨ b = a := by
  unfold addOnce
  split
  · rename_i h
    constructor
    · exact .inl
    · rintro (h' | rfl); exact h'; exact List.contains_iff_mem.1 h
  · simp

theorem mem_foldl_addOnce {b : α} : ∀ {as l : List α}, b ∈ as.foldl addOnce l ↔ b ∈ l ∨ b ∈ as
  | [], l => by simp
  | a :: as, l => by rw [List.foldl_cons, mem_foldl_addOnce, mem_addOnce, List.mem_cons, or_assoc]

theorem subset_foldl_addOnce (as l : List α) : as ⊆ as.foldl addOnce l := fun _ h => mem_foldl_addOnce.2 (.inr h)

theorem foldl_addOnce_of_subset : ∀ {as l : List α}, as ⊆ l → as.foldl addOnce l = l
  | [], _, _ => rfl
  | a :: as, l, h => by
    have ha : addOnce l a = l := if_pos (List.contains_iff_mem.2 (h (List.mem_cons_self ..)))
    rw [List.foldl_cons, ha, foldl_addOnce_of_subset fun b hb => h (List.mem_cons_of_mem _ hb)]

omit [LawfulBEq α] in
theorem prefix_foldl_addOnce : ∀ (as l : List α), l <+: as.foldl addOnce l
  | [], l => List.prefix_refl l
  | a :: as, l => by
    refine List.IsPrefix.trans ?_ (prefix_foldl_addOnce as (addOnce l a))
    unfold addOnce
    split
    · exact List.prefix_refl l
    · exact List.prefix_append l [a]

/-- What is found first is not changed by leaving out repetitions. -/
theorem find?_foldl_addOnce (p : α → Bool) : ∀ (as l : List α), (as.foldl addOnce l).find? p = (l ++ as).find? p
  | [], l => by rw [List.foldl_nil, List.append_nil]
  | a :: as, l => by
    rw [List.foldl_cons, find?_foldl_addOnce p as, addOnce]
    split
    · rename_i h
      rw [List.find?_append, List.find?_append, List.find?_cons]
      -- the repeated element has the property, so one with it stands in `l` already
      split
      · rename_i hp
        rcases hl : l.find? p with _ | b
        · exact absurd hp (List.find?_eq_none.1 hl a (List.contains_iff_mem.1 h))
        · rfl
      · rfl
    · rw [List.append_assoc, List.singleton_append]

/-- A map that keeps the elements apart keeps what is not repeated. -/
theorem foldl_addOnce_map {β : Type} [BEq β] [LawfulBEq β] (f : α → β) :
    ∀ (as l : List α), (∀ a ∈ l ++ as, ∀ b ∈ l ++ as, f a = f b → a = b) →
      (as.map f).foldl addOnce (l.map f) = (as.foldl addOnce l).map f
  | [], l, _ => rfl
  | a :: as, l, h => by
    have hc : (l.map f).contains (f a) = l.contains a := by
      rw [Bool.eq_iff_iff, List.contains_iff_mem, List.contains_iff_mem, List.mem_map]
      constructor
      · rintro ⟨b, hb, hba⟩
        rwa [← h b (by simp [hb]) a (by simp) hba]
      · exact fun ha => ⟨a, ha, rfl⟩
    have ho : addOnce (l.map f) (f a) = (addOnce l a).map f := by
      unfold addOnce
      rw [hc]
      split
      · rfl
      · rw [List.map_append, List.map_singleton]
    rw [List.map_cons, List.foldl_cons, List.foldl_cons, ho]
    have hs : addOnce l a ++ as ⊆ l ++ a :: as := by
      intro b hb
      rw [List.mem_append, mem_addOnce] at hb
      rw [List.mem_append, List.mem_cons, ← or_assoc]; exact hb
    exact foldl_addOnce_map f as _ fun x hx y hy => h x (hs hx) y (hs hy)

/-! ## First occurrences -/

theorem eraseDups_append_singleton (xs : List α) (x : α) :
    (xs ++ [x]).eraseDups = if x ∈ xs then xs.eraseDups else xs.eraseDups ++ [x] := by
  rw [List.eraseDups_append]
  by_cases h : x ∈ xs <;> simp [List.removeAll, List.eraseDups_cons, h]

/-- Elements without their repetitions are in the order of their first places. -/
theorem pairwise_idxOf_eraseDups (xs : List α) : xs.eraseDups.Pairwise fun a b => xs.idxOf a < xs.idxOf b := by
  induction xs using List.reverseRecOn with
  | nil => simp
  | append_singleton xs x ih =>
    have hold : ∀ a ∈ xs.eraseDups, (xs ++ [x]).idxOf a = xs.idxOf a := by
      intro a ha
      rw [List.idxOf_append, if_pos (List.mem_eraseDups.1 ha)]
    have hrest : xs.eraseDups.Pairwise fun a b => (xs ++ [x]).idxOf a < (xs ++ [x]).idxOf b := by
      refine ih.imp_of_mem fun {a b} ha hb h => ?_
      rwa [hold a ha, hold b hb]
    rw [eraseDups_append_singleton]
    split
    · exact hrest
    · rename_i hx
      refine List.pairwise_append.2 ⟨hrest, List.pairwise_singleton .., fun a ha b hb => ?_⟩
      rw [List.mem_singleton.1 hb, hold a ha, List.idxOf_append, if_neg hx]
      exact Nat.lt_of_lt_of_le (List.idxOf_lt_length_of_mem (List.mem_eraseDups.1 ha)) (Nat.le_add_left ..)

theorem nodup_eraseDups (xs : List α) : xs.eraseDups.Nodup := by
  refine (pairwise_idxOf_eraseDups xs).imp ?_
  rintro a b h rfl
  exact Nat.lt_irrefl _ h

/-- Elements that are added one after the other are those of the list, each where it first occurs. -/
theorem foldl_addOnce_nil (xs : List α) : xs.foldl addOnce [] = xs.eraseDups := by
  induction xs using List.reverseRecOn with
  | nil => rfl
  | append_singleton xs x ih =>
    rw [List.foldl_append, ih, eraseDups_append_singleton, List.foldl_cons, List.foldl_nil, addOnce]
    simp only [List.contains_iff_mem, List.mem_eraseDups]

end TableQuery
