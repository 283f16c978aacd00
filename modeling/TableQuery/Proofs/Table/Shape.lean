/-
Well-formed tables. The rows of a table are checked when it is made; the check succeeds exactly if all of
them have one value for each field, and then the table is well formed. Chosen columns, slices and the first
rows of a well-formed table are well formed, and so are two tables side by side, and a table with one row more
or with other names.
-/
import TableQuery.Table
import TableQuery.Proofs.Except
import Mathlib.Data.List.GetD

namespace TableQuery.Table

/-! ## Checked rows -/

theorem checkRows_eq_ok_iff {width : Nat} {rows : List Row} :
    checkRows width rows = .ok () ↔ ∀ r ∈ rows, r.length = width := by
  have hnone : rows.find? (·.length != width) = none ↔ ∀ r ∈ rows, r.length = width := by simp
  rw [checkRows, ← hnone]
  cases rows.find? (·.length != width) <;> simp

variable {t u : Table} {fields : List String} {rows : List Row}

theorem ofRows_eq (h : ∀ r ∈ rows, r.length = fields.length) : ofRows fields rows = .ok ⟨fields, rows⟩ := by
  rw [ofRows, checkRows_eq_ok_iff.2 h]
  rfl

theorem ofRows_ok (h : ofRows fields rows = .ok t) : t = ⟨fields, rows⟩ ∧ t.WellFormed := by
  obtain ⟨_, hrows, h⟩ := bind_ok h
  cases h
  exact ⟨rfl, checkRows_eq_ok_iff.1 hrows⟩

/-! ## Parts and combinations -/

/-- What is read place by place from a list is the list. -/
theorem map_getD_range {α : Type} (l : List α) (d : α) : (List.range l.length).map (l.getD · d) = l := by
  refine List.ext_getElem (by simp) fun i h1 h2 => ?_
  rw [List.getElem_map, List.getElem_range, List.getD_eq_getElem _ _ h2]

theorem wellFormed_empty (fields : List String) : (empty fields).WellFormed := fun _ hr => by cases hr

/-- Some of the rows of a well-formed table. -/
theorem WellFormed.of_subset (ht : t.WellFormed) (hs : rows ⊆ t.rows) : (Table.mk t.fields rows).WellFormed :=
  fun r hr => ht r (hs hr)

theorem wellFormed_select (t : Table) (cols : List Nat) : (t.select cols).WellFormed := by
  intro r hr
  obtain ⟨r', -, rfl⟩ := List.mem_map.1 hr
  simp [select]

theorem wellFormed_sliceColumns (ht : t.WellFormed) (start stop : Nat) : (t.sliceColumns start stop).WellFormed := by
  intro r hr
  obtain ⟨r', hr', rfl⟩ := List.mem_map.1 hr
  unfold sliceColumns
  rw [List.length_drop, List.length_drop, List.length_take, List.length_take, ht r' hr']

theorem wellFormed_append (ht : t.WellFormed) {row : Row} (h : t.append row = .ok u) : u.WellFormed := by
  unfold append at h
  split at h
  · rename_i hlen
    cases h
    intro r hr
    rcases List.mem_append.1 hr with hr | hr
    · exact ht r hr
    · rw [List.mem_singleton.1 hr]
      exact hlen
  · cases h

theorem wellFormed_renameFields (ht : t.WellFormed) {names : List String} (h : t.renameFields names = .ok u) :
    u.WellFormed := by
  unfold renameFields at h
  split at h
  · rename_i hlen
    cases h
    exact fun r hr => (ht r hr).trans hlen.symm
  · cases h

theorem wellFormed_sliceRows (ht : t.WellFormed) (start stop : Bound) : (t.sliceRows start stop).WellFormed :=
  ht.of_subset (List.Subset.trans (List.drop_subset _ _) (List.take_subset _ _))

theorem wellFormed_chain (ht : t.WellFormed) (hu : u.WellFormed) {v : Table} (h : t.chain u = .ok v) :
    v.WellFormed := by
  unfold chain at h
  split at h
  · cases h
    intro r hr
    simp only [← List.map_uncurry_zip_eq_zipWith] at hr
    obtain ⟨⟨a, b⟩, hab, rfl⟩ := List.mem_map.1 hr
    obtain ⟨ha, hb⟩ := List.of_mem_zip hab
    rw [Function.uncurry_apply_pair, List.length_append, List.length_append, ht a ha, hu b hb]
  · cases h

theorem wellFormed_truncate (ht : t.WellFormed) (n : Nat) : (t.truncate n).WellFormed :=
  ht.of_subset (List.take_subset n t.rows)

end TableQuery.Table
