/-
Stored tables: what is found under a name after a table was stored there. Where all names are in lower
case and no name occurs twice, a name finds at most one table in any spelling, and it finds one exactly if
its lower case is stored and differs from it in ASCII letters only.
-/
import TableQuery.Database
import TableQuery.Proofs.Text.Case
import Mathlib.Data.List.Nodup

namespace TableQuery.Catalog

theorem mem_of_entry? {c : Catalog} {name : String} {p : String × Table} (h : c.entry? name = some p) :
    p ∈ c.tables := by
  unfold entry? at h
  rcases Option.or_eq_some_iff.1 h with h | ⟨-, h⟩ <;> exact List.mem_of_find?_eq_some h

theorem mem_of_erase {c : Catalog} {name : String} {p : String × Table} (h : p ∈ (c.erase name).tables) :
    p ∈ c.tables := by
  unfold erase at h
  split at h
  · exact (List.mem_filter.1 h).1
  · exact h

theorem get?_insert (c : Catalog) (name : String) (t : Table) : (c.insert name t).get? name = some t := by
  have hnone : (c.tables.filter (·.1 != name)).find? (·.1 == name) = none := by
    refine List.find?_eq_none.2 fun p hp he => ?_
    have := (List.mem_filter.1 hp).2
    rw [beq_iff_eq.1 he, bne_self_eq_false] at this; cases this
  have hone : [(name, t)].find? (·.1 == name) = some (name, t) := List.find?_cons_of_pos (beq_self_eq_true name)
  have hentry : entry? (c.insert name t) name = some (name, t) := by
    unfold entry? insert
    rw [List.find?_append, hnone, Option.none_or, hone, Option.some_or]
  rw [get?, hentry]; rfl

theorem get?_replace (c : Catalog) (name : String) (t : Table) : (c.replace name t).get? name = some t :=
  get?_insert (c.erase name) name t

/-! ## Names in lower case -/

/-- Every name is in lower case, and no name occurs twice. -/
structure WellNamed (c : Catalog) : Prop where
  lower : ∀ p ∈ c.tables, Text.lower p.1 = p.1
  nodup : (c.tables.map (·.1)).Nodup

namespace WellNamed

variable {c c' : Catalog} {name : String} {t : Table} {p p' : String × Table}

theorem eq_of_name (h : c.WellNamed) (hp : p ∈ c.tables) (hp' : p' ∈ c.tables) (he : p.1 = p'.1) : p = p' :=
  List.inj_on_of_nodup_map h.nodup hp hp' he

/-- No two names are equal up to letter case. -/
theorem eq_of_sameLetters (h : c.WellNamed) (hp : p ∈ c.tables) (hp' : p' ∈ c.tables)
    (hs : Text.sameLetters p.1 p'.1 = true) : p = p' := by
  refine h.eq_of_name hp hp' ?_
  rw [← h.lower p hp, ← h.lower p' hp', Text.lower_of_sameLetters hs]

theorem pairwise_names (h : c.WellNamed) : c.tables.Pairwise fun p p' => Text.sameLetters p.1 p'.1 = false := by
  have hne : c.tables.Pairwise fun p p' => p.1 ≠ p'.1 := List.pairwise_map.1 h.nodup
  refine List.Pairwise.imp_of_mem (fun {p p'} hp hp' he => ?_) hne
  refine Bool.eq_false_iff.2 fun hs => he ?_
  rw [h.eq_of_sameLetters hp hp' hs]

theorem entry?_eq_some_iff (h : c.WellNamed) :
    c.entry? name = some p ↔ p ∈ c.tables ∧ Text.sameLetters p.1 name = true := by
  unfold entry?
  constructor
  · intro hf
    rcases Option.or_eq_some_iff.1 hf with hf | ⟨-, hf⟩
    · have he := List.find?_some hf
      refine ⟨List.mem_of_find?_eq_some hf, ?_⟩
      rw [beq_iff_eq.1 he]
      exact Text.sameLetters_refl name
    · have hs := List.find?_some hf
      exact ⟨List.mem_of_find?_eq_some hf, hs⟩
  · rintro ⟨hp, hs⟩
    have hsame : ∀ q ∈ c.tables, Text.sameLetters q.1 name = true → q = p := fun q hq hqs =>
      h.eq_of_sameLetters hq hp (Text.sameLetters_trans hqs (Text.sameLetters_symm hs))
    rcases hf : c.tables.find? (·.1 == name) with _ | q
    · rw [hf, Option.none_or]
      exact find?_eq_of_unique hp hs hsame
    · have he := List.find?_some hf
      have hq : q = p := by
        refine hsame q (List.mem_of_find?_eq_some hf) ?_
        rw [beq_iff_eq.1 he]
        exact Text.sameLetters_refl name
      rw [hf, Option.some_or, hq]

/-- What a name finds is stored under its lower case, and only ASCII letters differ. -/
theorem get?_eq_some_iff (h : c.WellNamed) : c.get? name = some t ↔
    (Text.lower name, t) ∈ c.tables ∧ Text.sameLetters (Text.lower name) name = true := by
  unfold get?
  rw [Option.map_eq_some_iff]
  constructor
  · rintro ⟨⟨key, u⟩, hentry, rfl⟩
    obtain ⟨hm, hs⟩ := h.entry?_eq_some_iff.1 hentry
    have hkey : Text.lower name = key := by rw [← Text.lower_of_sameLetters hs, h.lower _ hm]
    rw [hkey]
    exact ⟨hm, hs⟩
  · rintro ⟨hm, hs⟩
    exact ⟨(Text.lower name, t), h.entry?_eq_some_iff.2 ⟨hm, hs⟩, rfl⟩

/-- The order in which tables are stored has no influence on what a name finds. -/
theorem entry?_of_perm (h : c.WellNamed) (hp : c'.tables.Perm c.tables) (name : String) :
    c'.entry? name = c.entry? name := by
  have h' : c'.WellNamed := ⟨fun p hm => h.lower p (hp.mem_iff.1 hm), (hp.map _).nodup_iff.2 h.nodup⟩
  refine Option.ext fun p => ?_
  rw [h'.entry?_eq_some_iff, h.entry?_eq_some_iff, hp.mem_iff]

/-! ## Changes -/

theorem filter (h : c.WellNamed) (q : String × Table → Bool) : WellNamed { c with tables := c.tables.filter q } where
  lower p hp := h.lower p (List.mem_filter.1 hp).1
  nodup := h.nodup.sublist (List.filter_sublist.map _)

protected theorem erase (h : c.WellNamed) (name : String) : (c.erase name).WellNamed := by
  unfold Catalog.erase
  split
  · exact h.filter _
  · exact h

/-- A name in lower case erases its own entry only. -/
theorem mem_erase_iff (h : c.WellNamed) (hn : Text.lower name = name) :
    p ∈ (c.erase name).tables ↔ p ∈ c.tables ∧ p.1 ≠ name := by
  unfold Catalog.erase
  split
  · rename_i key u hentry
    obtain ⟨hm, hs⟩ := h.entry?_eq_some_iff.1 hentry
    have hkey : key = name := (h.lower _ hm).symm.trans ((Text.lower_of_sameLetters hs).trans hn)
    simp [hkey]
  · rename_i hnone
    refine ⟨fun hp => ⟨hp, fun he => ?_⟩, fun hp => hp.1⟩
    have hs : Text.sameLetters p.1 name = true := by rw [he]; exact Text.sameLetters_refl name
    rw [h.entry?_eq_some_iff.2 ⟨hp, hs⟩] at hnone
    cases hnone

theorem mem_replace_iff (h : c.WellNamed) (hn : Text.lower name = name) :
    p ∈ (c.replace name t).tables ↔ p ∈ c.tables ∧ p.1 ≠ name ∨ p = (name, t) := by
  rw [Catalog.replace, Catalog.insert, List.mem_append, List.mem_filter, List.mem_singleton, h.mem_erase_iff hn,
    bne_iff_ne, and_assoc, and_self]

protected theorem replace (h : c.WellNamed) (hn : Text.lower name = name) (t : Table) :
    (c.replace name t).WellNamed where
  lower p hp := by
    rcases (h.mem_replace_iff hn).1 hp with ⟨hp, -⟩ | rfl
    · exact h.lower p hp
    · exact hn
  nodup := by
    rw [Catalog.replace, Catalog.insert, List.map_append, List.nodup_append]
    refine ⟨((h.erase name).filter _).nodup, List.nodup_singleton _, ?_⟩
    rintro a ha b hb rfl
    obtain ⟨p, hp, rfl⟩ := List.mem_map.1 ha
    have hne : p.1 ≠ name := by simpa using (List.mem_filter.1 hp).2
    exact hne (List.mem_singleton.1 hb)

end WellNamed

end TableQuery.Catalog
