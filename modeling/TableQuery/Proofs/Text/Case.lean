/-
Lower case of whole texts. The characters of a text in lower case have no other lower case, so it
stays as it is when it is lowered again, and no capital letter of ASCII stands in it. Texts that are
equal up to the case of ASCII letters have the same lower case.
-/
import TableQuery.Text.Case
import TableQuery.Proofs.Table.Lookup

namespace TableQuery.Text

/-! ## Runs -/

/-- What the first run maps to lies before the second one, behind it, or between its characters where
both have every other character only. -/
def CaseRun.avoids (r r' : CaseRun) : Bool :=
  let lo := (r.first + r.shift).toNat
  let hi := (r.last + r.shift).toNat
  Nat.blt hi r'.first || Nat.blt r'.last lo ||
    (lo != 0 && (r.step == 2 || r.first == r.last) && (r'.step == 2 || r'.first == r'.last) &&
      (lo + r'.first) % 2 == 1)

theorem CaseRun.covers_iff {r : CaseRun} {n : Nat} :
    r.covers n = true ↔ r.first ≤ n ∧ n ≤ r.last ∧ (n - r.first) % r.step = 0 := by
  simp [covers, and_assoc]

theorem CaseRun.not_covers_of_avoids {r r' : CaseRun} (h : r.avoids r' = true) {n : Nat} (hn : r.covers n = true) :
    r'.covers (n + r.shift).toNat = false := by
  refine Bool.eq_false_iff.2 fun hm => ?_
  obtain ⟨hfirst, hlast, hstep⟩ := covers_iff.1 hn
  obtain ⟨hfirst', hlast', hstep'⟩ := covers_iff.1 hm
  simp only [avoids, Bool.and_eq_true, Bool.or_eq_true, beq_iff_eq, bne_iff_ne, Nat.blt_eq] at h
  obtain (hbefore | hbehind) | ⟨⟨⟨hpos, hr⟩, hr'⟩, hodd⟩ := h
  · omega
  · omega
  · -- both characters are an even number of steps away from the first ones of their runs
    have heven : (n - r.first) % 2 = 0 := by
      rcases hr with hr | hr
      · rwa [hr] at hstep
      · omega
    have heven' : ((n + r.shift).toNat - r'.first) % 2 = 0 := by
      rcases hr' with hr' | hr'
      · rwa [hr'] at hstep'
      · omega
    omega

/-! ## Characters in lower case -/

/-- Neither a run nor a long form changes the character. -/
def isLowered (c : Char) : Bool :=
  !lowerRuns.any (·.covers c.toNat) && !lowerMany.any (·.1 == c.toNat)

theorem isLowered_iff {c : Char} : isLowered c = true ↔
    (∀ r ∈ lowerRuns, r.covers c.toNat = false) ∧ ∀ p ∈ lowerMany, p.1 ≠ c.toNat := by
  simp [isLowered]

theorem lowerRuns_avoid :
    (lowerRuns.all fun r => (lowerRuns ++ lowerMany.map fun p => CaseRun.mk p.1 p.1 1 0).all r.avoids) = true := by
  decide +kernel

theorem isLowered_lowerMany : (lowerMany.all fun p => p.2.all fun n => isLowered (Char.ofNat n)) = true :=
  rfl

theorem lowerChar_of_isLowered {c : Char} (h : isLowered c = true) : lowerChar c = [c] := by
  obtain ⟨hruns, hmany⟩ := isLowered_iff.1 h
  have hr : lowerRuns.find? (·.covers c.toNat) = none := List.find?_eq_none.2 fun r hr => by simp [hruns r hr]
  have hm : lowerMany.find? (·.1 == c.toNat) = none := List.find?_eq_none.2 fun p hp => by simp [hmany p hp]
  rw [lowerChar, mapChar, hr, hm]

theorem isLowered_ofNat {n : Nat} (hruns : ∀ r ∈ lowerRuns, r.covers n = false)
    (hmany : ∀ p ∈ lowerMany, p.1 ≠ n) : isLowered (Char.ofNat n) = true := by
  by_cases hv : n.isValidChar
  · have hn : (Char.ofNat n).toNat = n := by rw [Char.ofNat, dif_pos hv]; rfl
    rw [isLowered_iff, hn]
    exact ⟨hruns, hmany⟩
  · have hn : Char.ofNat n = Char.ofNat 0 := by rw [Char.ofNat, dif_neg hv]; rfl
    rw [hn]
    rfl

theorem isLowered_of_mem_lowerChar {c d : Char} (h : d ∈ lowerChar c) : isLowered d = true := by
  unfold lowerChar mapChar at h
  split at h
  · rename_i r hr
    have havoid := List.all_eq_true.1 (List.all_eq_true.1 lowerRuns_avoid r (List.mem_of_find?_eq_some hr))
    have hc := List.find?_some hr
    rw [List.mem_singleton.1 h]
    refine isLowered_ofNat (fun r' hr' => ?_) fun p hp he => ?_
    · exact CaseRun.not_covers_of_avoids (havoid r' (List.mem_append_left _ hr')) hc
    · have hp := CaseRun.not_covers_of_avoids (havoid _ (List.mem_append_right _ (List.mem_map_of_mem hp))) hc
      rw [← he] at hp
      simp [CaseRun.covers] at hp
  · rename_i hruns
    split at h
    · rename_i k cs hk
      obtain ⟨n, hn, rfl⟩ := List.mem_map.1 h
      exact List.all_eq_true.1 (List.all_eq_true.1 isLowered_lowerMany (k, cs) (List.mem_of_find?_eq_some hk)) n hn
    · rename_i hmany
      rw [List.mem_singleton.1 h, isLowered_iff]
      exact ⟨fun r hr => by simpa using List.find?_eq_none.1 hruns r hr,
        fun p hp => by simpa using List.find?_eq_none.1 hmany p hp⟩

theorem isUpper_iff {c : Char} : c.isUpper = true ↔ 65 ≤ c.toNat ∧ c.toNat ≤ 90 := by
  show decide ('A'.val ≤ c.val ∧ c.val ≤ 'Z'.val) = true ↔ _
  rw [decide_eq_true_iff, UInt32.le_iff_toNat_le, UInt32.le_iff_toNat_le]
  rfl

theorem not_isUpper_of_isLowered {c : Char} (h : isLowered c = true) : c.isUpper = false := by
  refine Bool.eq_false_iff.2 fun hu => ?_
  obtain ⟨hlo, hhi⟩ := isUpper_iff.1 hu
  have hc : CaseRun.covers ⟨0x41, 0x5A, 1, 32⟩ c.toNat = true := CaseRun.covers_iff.2 ⟨hlo, hhi, Nat.mod_one _⟩
  rw [(isLowered_iff.1 h).1 _ (List.mem_cons_self ..)] at hc
  cases hc

/-! ## Texts in lower case -/

theorem isLowered_of_mem_lowerFrom : ∀ {cs before : List Char} {d : Char}, d ∈ lowerFrom before cs →
    isLowered d = true
  | [], _, _, h => by cases h
  | c :: r, before, d, h => by
    rw [lowerFrom, List.mem_append] at h
    rcases h with h | h
    · split at h
      · split at h
        · rw [List.mem_singleton.1 h]; rfl
        · rw [List.mem_singleton.1 h]; rfl
      · exact isLowered_of_mem_lowerChar h
    · exact isLowered_of_mem_lowerFrom h

theorem lowerFrom_of_isLowered : ∀ {cs before : List Char}, (∀ c ∈ cs, isLowered c = true) → lowerFrom before cs = cs
  | [], _, _ => rfl
  | c :: r, before, h => by
    have hc := h c (List.mem_cons_self ..)
    have hne : c ≠ 'Σ' := by
      rintro rfl
      exact absurd hc (by decide)
    rw [lowerFrom, if_neg hne, lowerChar_of_isLowered hc,
      lowerFrom_of_isLowered fun d hd => h d (List.mem_cons_of_mem _ hd)]
    rfl

/-- A text in lower case stays as it is. -/
theorem lower_lower (s : String) : lower (lower s) = lower s := by
  have hfixed : lowerFrom [] (lowerFrom [] s.toList) = lowerFrom [] s.toList :=
    lowerFrom_of_isLowered fun c hc => isLowered_of_mem_lowerFrom hc
  rw [lower, lower, String.toList_ofList, lowerChars, lowerChars, hfixed]

/-- No capital letter of ASCII stands in a text in lower case. -/
theorem not_isUpper_of_mem_lower {s : String} {c : Char} (h : c ∈ (lower s).toList) : c.isUpper = false := by
  rw [lower, String.toList_ofList] at h
  exact not_isUpper_of_isLowered (isLowered_of_mem_lowerFrom h)

/-! ## The case of ASCII letters -/

/-- What holds of every character with itself, and of each capital letter of ASCII with its small
letter, holds of every character with the one in lower case. -/
theorem forall_toLower {p : Char → Char → Prop} (hsame : ∀ c, p c c)
    (hupper : ∀ n ∈ List.range' 65 26, p (Char.ofNat n) (Char.ofNat n).toLower) (c : Char) : p c c.toLower := by
  by_cases h : c.val ≥ 'A'.val ∧ c.val ≤ 'Z'.val
  · have hc : 65 ≤ c.toNat ∧ c.toNat ≤ 90 := by simpa [UInt32.le_iff_toNat_le] using h
    have hp := hupper c.toNat (by rw [List.mem_range'_1]; omega)
    rwa [Char.ofNat_toNat] at hp
  · have hc : c.toLower = c := dif_neg h
    rw [hc]
    exact hsame c

/-- A capital letter of ASCII and its small letter have the same lower case and the same case, and neither is a
sigma. -/
theorem upper_all : ∀ n ∈ List.range' 65 26, lowerChar (Char.ofNat n).toLower = lowerChar (Char.ofNat n) ∧
    isCased (Char.ofNat n).toLower = isCased (Char.ofNat n) ∧
    isCaseIgnorable (Char.ofNat n).toLower = isCaseIgnorable (Char.ofNat n) ∧
    ((Char.ofNat n).toLower = 'Σ' ↔ Char.ofNat n = 'Σ') := by
  decide +kernel

theorem lowerChar_toLower (c : Char) : lowerChar c.toLower = lowerChar c :=
  forall_toLower (p := fun c d => lowerChar d = lowerChar c) (fun _ => rfl) (fun n hn => (upper_all n hn).1) c

theorem isCased_toLower (c : Char) : isCased c.toLower = isCased c :=
  forall_toLower (p := fun c d => isCased d = isCased c) (fun _ => rfl) (fun n hn => (upper_all n hn).2.1) c

theorem isCaseIgnorable_toLower (c : Char) : isCaseIgnorable c.toLower = isCaseIgnorable c :=
  forall_toLower (p := fun c d => isCaseIgnorable d = isCaseIgnorable c) (fun _ => rfl)
    (fun n hn => (upper_all n hn).2.2.1) c

theorem toLower_eq_sigma (c : Char) : c.toLower = 'Σ' ↔ c = 'Σ' :=
  forall_toLower (p := fun c d => d = 'Σ' ↔ c = 'Σ') (fun _ => Iff.rfl) (fun n hn => (upper_all n hn).2.2.2) c

theorem startsCased_toLower (cs : List Char) : startsCased (cs.map Char.toLower) = startsCased cs := by
  have hignored : isCaseIgnorable ∘ Char.toLower = isCaseIgnorable := funext isCaseIgnorable_toLower
  unfold startsCased
  rw [List.dropWhile_map, hignored]
  cases cs.dropWhile isCaseIgnorable with
  | nil => rfl
  | cons c r => exact isCased_toLower c

theorem lowerFrom_toLower : ∀ cs before : List Char,
    lowerFrom (before.map Char.toLower) (cs.map Char.toLower) = lowerFrom before cs
  | [], _ => rfl
  | c :: r, before => by
    rw [List.map_cons, lowerFrom, lowerFrom, ← List.map_cons, lowerFrom_toLower r (c :: before)]
    simp only [toLower_eq_sigma, startsCased_toLower, lowerChar_toLower]

/-- Texts that are equal up to the case of ASCII letters have the same lower case. -/
theorem lower_of_sameLetters {a b : String} (h : sameLetters a b = true) : lower a = lower b := by
  have hlower : ∀ s : String, lower s = String.ofList (lowerFrom [] (s.toList.map Char.toLower)) := fun s =>
    congrArg String.ofList (lowerFrom_toLower s.toList []).symm
  rw [hlower, hlower, sameLetters_iff.1 h]

end TableQuery.Text
