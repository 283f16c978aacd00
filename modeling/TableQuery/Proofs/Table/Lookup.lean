/-
The column that a name refers to. A table that holds some columns of another one, in any order,
finds for a name the first of them that is called so, else the first that is called so in another
letter case. So a name finds the same column in a part of the table

- if the part keeps the order of the columns and holds the one that the name refers to, or
- if no two columns have names that are equal up to letter case.
-/
import TableQuery.Query.Execute
import Mathlib.Data.List.GetD

namespace TableQuery

/-! ## Letter case -/

namespace Text

theorem sameLetters_iff {a b : String} :
    sameLetters a b = true ↔ a.toList.map Char.toLower = b.toList.map Char.toLower := by
  unfold sameLetters; exact beq_iff_eq

theorem sameLetters_refl (a : String) : sameLetters a a = true := sameLetters_iff.2 rfl

theorem sameLetters_symm {a b : String} (h : sameLetters a b = true) : sameLetters b a = true :=
  sameLetters_iff.2 (sameLetters_iff.1 h).symm

theorem sameLetters_trans {a b c : String} (h1 : sameLetters a b = true) (h2 : sameLetters b c = true) :
    sameLetters a c = true :=
  sameLetters_iff.2 ((sameLetters_iff.1 h1).trans (sameLetters_iff.1 h2))

theorem toLower_toLower (c : Char) : c.toLower.toLower = c.toLower := by
  by_cases h : c.val ≥ 'A'.val ∧ c.val ≤ 'Z'.val
  · -- a capital letter goes beyond the capital letters
    have hlow : ¬ (c.toLower.val ≥ 'A'.val ∧ c.toLower.val ≤ 'Z'.val) := by
      have hval : c.toLower.val = c.val + 32 := by
        unfold Char.toLower
        rw [dif_pos h]
        rfl
      have hleast : 65 ≤ c.val.toNat := UInt32.le_iff_toNat_le.1 h.1
      have hmost : c.val.toNat ≤ 90 := UInt32.le_iff_toNat_le.1 h.2
      rintro ⟨-, hle⟩
      have hcap : c.toLower.val.toNat ≤ 90 := UInt32.le_iff_toNat_le.1 hle
      rw [hval, UInt32.toNat_add] at hcap
      have hshift : (32 : UInt32).toNat = 32 := rfl
      omega
    exact dif_neg hlow
  · have hc : c.toLower = c := dif_neg h
    rw [hc, hc]

theorem sameLetters_lowerAscii (a : String) : sameLetters (lowerAscii a) a = true := by
  rw [sameLetters_iff, lowerAscii, String.toList_ofList, List.map_map]
  exact List.map_congr_left fun c _ => toLower_toLower c

end Text

/-! ## Searching a list -/

theorem find?_eq_of_sublist {α : Type} {p : α → Bool} {l m : List α} (hs : l.Sublist m) (hm : m.Nodup)
    {a : α} (hf : m.find? p = some a) (ha : a ∈ l) : l.find? p = some a := by
  induction hs with
  | slnil => cases ha
  | @cons l m b hs ih =>
    obtain ⟨hb, hm⟩ := List.nodup_cons.1 hm
    rw [List.find?_cons] at hf
    split at hf
    · cases hf; exact absurd (hs.subset ha) hb
    · exact ih hm hf ha
  | @cons_cons l m b hs ih =>
    obtain ⟨hb, hm⟩ := List.nodup_cons.1 hm
    rw [List.find?_cons] at hf ⊢
    split at hf
    · exact hf
    · rename_i hpb
      rcases List.mem_cons.1 ha with rfl | ha
      · have := List.find?_some hf
        rw [hpb] at this; cases this
      · exact ih hm hf ha

/-- Where all elements with the property are equal, any of them is the one found. -/
theorem find?_eq_of_unique {α : Type} {p : α → Bool} {l : List α} {a : α} (ha : a ∈ l) (hp : p a = true)
    (hu : ∀ b ∈ l, p b = true → b = a) : l.find? p = some a := by
  rcases hf : l.find? p with _ | b
  · exact absurd hp (List.find?_eq_none.1 hf a ha)
  · rw [hu b (List.mem_of_find?_eq_some hf) (List.find?_some hf)]

theorem findIdx?_eq_find?_range {α : Type} (p : α → Bool) (l : List α) (d : α) :
    l.findIdx? p = (List.range l.length).find? fun i => p (l.getD i d) := by
  rcases h : l.findIdx? p with _ | i
  · rw [eq_comm, List.find?_range_eq_none]
    intro i hi
    rw [List.findIdx?_eq_none_iff] at h
    rw [List.getD_eq_getElem _ _ hi, h _ (List.getElem_mem hi)]; rfl
  · obtain ⟨hi, hp, hj⟩ := List.findIdx?_eq_some_iff_getElem.1 h
    rw [eq_comm, List.find?_range_eq_some]
    refine ⟨by rwa [List.getD_eq_getElem _ _ hi], List.mem_range.2 hi, fun j hji => ?_⟩
    rw [List.getD_eq_getElem _ _ (by omega)]
    simpa using hj j hji

theorem map_findIdx?_eq {α β : Type} {p : α → Bool} {f : Nat → β} {g : α → β} :
    ∀ {l : List α}, (∀ i (h : i < l.length), f i = g l[i]) → (l.findIdx? p).map f = (l.find? p).map g := by
  intro l h
  rw [List.find?_eq_bind_findIdx?_getElem?, Option.map_bind]
  rcases hi : l.findIdx? p with _ | i
  · rfl
  · obtain ⟨hl, -, -⟩ := List.findIdx?_eq_some_iff_getElem.1 hi
    simp [List.getElem?_eq_getElem hl, h i hl]

namespace Table

/-! ## Names in a part of a table -/

/-- The column of `t` that a name finds in the table of its columns at `cols`. -/
def among? (t : Table) (cols : List Nat) (name : String) : Option Nat :=
  (cols.find? fun i => t.fieldAt i == name).or (cols.find? fun i => Text.sameLetters (t.fieldAt i) name)

/-- The values under a name. -/
def valuesOf? (t : Table) (name : String) : Option (List Value) := (t.columnIndex? name).map t.column

theorem columnIndex?_eq_among? (t : Table) (name : String) :
    t.columnIndex? name = t.among? (List.range t.width) name := by
  unfold columnIndex? among?
  rw [findIdx?_eq_find?_range _ _ "", findIdx?_eq_find?_range _ _ ""]
  rfl

theorem columnIndex?_lt {t : Table} {name : String} {i : Nat} (h : t.columnIndex? name = some i) :
    i < t.width := by
  rw [columnIndex?_eq_among?] at h
  unfold among? at h
  rcases Option.or_eq_some_iff.1 h with h | ⟨-, h⟩
  all_goals exact List.mem_range.1 (List.mem_of_find?_eq_some h)

/-- A name refers to a column that is called so, in some letter case. -/
theorem sameLetters_of_among? {t : Table} {cols : List Nat} {name : String} {i : Nat}
    (h : t.among? cols name = some i) : i ∈ cols ∧ Text.sameLetters (t.fieldAt i) name = true := by
  unfold among? at h
  rcases Option.or_eq_some_iff.1 h with h | ⟨-, h⟩
  · refine ⟨List.mem_of_find?_eq_some h, ?_⟩
    have := List.find?_some h
    rw [beq_iff_eq.1 this]; exact Text.sameLetters_refl name
  · have := List.find?_some h
    exact ⟨List.mem_of_find?_eq_some h, this⟩

theorem columnIndex?_sameLetters {t : Table} {name : String} {i : Nat} (h : t.columnIndex? name = some i) :
    i < t.width ∧ Text.sameLetters (t.fieldAt i) name = true :=
  ⟨columnIndex?_lt h, (sameLetters_of_among? ((columnIndex?_eq_among? t name).symm.trans h)).2⟩

theorem column_select (t : Table) {cols : List Nat} {k : Nat} (hk : k < cols.length) :
    (t.select cols).column k = t.column cols[k] := by
  unfold column select
  simp only [List.map_map]
  refine List.map_congr_left fun r _ => ?_
  simp [List.getD_eq_getElem?_getD, hk]

theorem fieldAt_select (t : Table) {cols : List Nat} {k : Nat} (hk : k < cols.length) :
    (t.select cols).fieldAt k = t.fieldAt cols[k] := by
  simp [fieldAt, select, List.getD_eq_getElem?_getD, hk]

/-- The values under a name in a part of a table. -/
theorem valuesOf?_select (t : Table) (cols : List Nat) (name : String) :
    (t.select cols).valuesOf? name = (t.among? cols name).map t.column := by
  have hf : (t.select cols).fields = cols.map t.fieldAt := rfl
  unfold valuesOf? columnIndex? among?
  rw [hf, List.findIdx?_map, List.findIdx?_map, Option.map_or, Option.map_or]
  congr 1 <;> exact map_findIdx?_eq fun i hi => column_select t hi

/-- A part in the order of the table, with the column that a name refers to. -/
theorem among?_of_sublist {t : Table} {cols : List Nat} {name : String} {i : Nat}
    (hc : cols.Sublist (List.range t.width)) (h : t.columnIndex? name = some i) (hi : i ∈ cols) :
    t.among? cols name = some i := by
  rw [columnIndex?_eq_among?] at h
  unfold among? at h ⊢
  rcases Option.or_eq_some_iff.1 h with h | ⟨hn, h⟩
  · rw [find?_eq_of_sublist hc List.nodup_range h hi]; rfl
  · rw [hc.find?_eq_none hn, find?_eq_of_sublist hc List.nodup_range h hi]; rfl

/-! ## Names that differ by more than letter case -/

/-- No two names are equal up to letter case. -/
def Distinct (names : List String) : Prop := names.Pairwise fun a b => Text.sameLetters a b = false

instance (names : List String) : Decidable (Distinct names) := inferInstanceAs (Decidable (names.Pairwise _))

theorem Distinct.index_eq {t : Table} (hd : Distinct t.fields) {i j : Nat} (hi : i < t.width) (hj : j < t.width)
    (h : Text.sameLetters (t.fieldAt i) (t.fieldAt j) = true) : i = j := by
  have hne : ∀ a b, a < b → (hb : b < t.width) → Text.sameLetters (t.fieldAt a) (t.fieldAt b) = false := by
    intro a b hab hb
    have ha : a < t.fields.length := Nat.lt_trans hab hb
    rw [fieldAt, fieldAt, List.getD_eq_getElem _ _ ha, List.getD_eq_getElem _ _ hb]
    exact List.pairwise_iff_getElem.1 hd a b ha hb hab
  rcases Nat.lt_trichotomy i j with hij | hij | hij
  · rw [hne i j hij hj] at h; cases h
  · exact hij
  · have := Text.sameLetters_symm h
    rw [hne j i hij hi] at this; cases this

/-- A name refers to the one column that is called so in some letter case. -/
theorem columnIndex?_eq_some_iff {t : Table} (hd : Distinct t.fields) {name : String} {i : Nat} :
    t.columnIndex? name = some i ↔ i < t.width ∧ Text.sameLetters (t.fieldAt i) name = true := by
  refine ⟨columnIndex?_sameLetters, ?_⟩
  rintro ⟨hi, hn⟩
  rcases hf : t.columnIndex? name with _ | j
  · rw [columnIndex?_eq_among?] at hf
    unfold among? at hf
    rw [Option.or_eq_none_iff, List.find?_eq_none, List.find?_eq_none] at hf
    exact absurd hn (hf.2 i (List.mem_range.2 hi))
  · obtain ⟨hj, hjn⟩ := columnIndex?_sameLetters hf
    rw [hd.index_eq hi hj (Text.sameLetters_trans hn (Text.sameLetters_symm hjn))]

theorem columnIndex?_of_sameLetters {t : Table} (hd : Distinct t.fields) {name other : String}
    (h : Text.sameLetters name other = true) : t.columnIndex? name = t.columnIndex? other := by
  refine Option.ext fun i => ?_
  rw [columnIndex?_eq_some_iff hd, columnIndex?_eq_some_iff hd]
  constructor
  · rintro ⟨hi, hn⟩
    exact ⟨hi, Text.sameLetters_trans hn h⟩
  · rintro ⟨hi, hn⟩
    exact ⟨hi, Text.sameLetters_trans hn (Text.sameLetters_symm h)⟩

/-- A part in any order, with the column that a name refers to. -/
theorem among?_of_distinct {t : Table} (hd : Distinct t.fields) {cols : List Nat} (hc : ∀ k ∈ cols, k < t.width)
    {name : String} {i : Nat} (h : t.columnIndex? name = some i) (hi : i ∈ cols) : t.among? cols name = some i := by
  rw [columnIndex?_eq_among?] at h
  have hn := (sameLetters_of_among? h).2
  -- only the column itself is called so, in whatever letter case
  have hu : ∀ k ∈ cols, Text.sameLetters (t.fieldAt k) name = true → k = i := fun k hk hkn =>
    hd.index_eq (hc k hk) (hc i hi) (Text.sameLetters_trans hkn (Text.sameLetters_symm hn))
  unfold among?
  rcases hf : cols.find? (fun i => t.fieldAt i == name) with _ | k
  · rw [Option.none_or]
    exact find?_eq_of_unique hi hn hu
  · rw [Option.some_or]
    refine congrArg some (hu k (List.mem_of_find?_eq_some hf) ?_)
    have := List.find?_some hf
    rw [beq_iff_eq.1 this]; exact Text.sameLetters_refl name

end Table

end TableQuery
