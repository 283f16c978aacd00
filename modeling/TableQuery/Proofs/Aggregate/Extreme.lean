/-
Extremes. The least or the greatest value of a column is found by keeping the best value so far. It is replaced
only by a value that comes strictly before it, and such comparisons are transitive also where equality of integers
and floats is not; so no value that was passed over comes before the last one that was kept.
-/
import TableQuery.Aggregate
import TableQuery.Proofs.Order.Keys

namespace TableQuery.Aggregate

variable {wanted : Ordering} {column vs : List Value} {b r v : Value}

/-- An extreme of a column: there is none where values of different classes would have to be compared, it is null
where there are only nulls, and else it is a value of the column to which no other one is in the wanted order. -/
structure IsExtreme (wanted : Ordering) (column : List Value) (result : Except Error Value) : Prop where
  fails : (∃ e, result = .error e) ↔ ¬Order.Comparable column
  null : result = .ok .null ↔ ∀ v ∈ column, v = .null
  best : ∀ r, result = .ok r → r ≠ .null →
    r ∈ column ∧ ∀ v ∈ column, v ≠ .null → ∃ o, v.compare r = .ok o ∧ o ≠ wanted

/-! ## The best value so far -/

theorem compare_self_ne (hw : wanted ≠ .eq) (v : Value) : v.compare v ≠ .ok wanted := by
  rw [Value.compare_self]
  intro h
  cases h
  exact hw rfl

theorem compare_asymm (hw : wanted ≠ .eq) (h : v.compare b = .ok wanted) : b.compare v ≠ .ok wanted := by
  intro h'
  exact compare_self_ne hw v (Value.compare_trans hw h h')

/-- What did not replace the best value would not replace a later best value. -/
theorem compare_ne_of_later (hw : wanted ≠ .eq) (hr : r = b ∨ r.compare b = .ok wanted)
    (hv : v.compare b ≠ .ok wanted) : v.compare r ≠ .ok wanted := by
  rcases hr with rfl | hr
  · exact hv
  · intro hvr
    exact hv (Value.compare_trans hw hvr hr)

theorem extreme_cons {o : Ordering} (h : v.compare b = .ok o) :
    extreme wanted (some b) (v :: vs) = extreme wanted (some (if o = wanted then v else b)) vs := by
  rw [extreme, h]
  rfl

/-- Among values of one class a last best value is found, and no value would replace it. -/
theorem extreme_ok (hw : wanted ≠ .eq) (h : ∀ v ∈ vs, Order.sameClass b v = true) :
    ∃ r ∈ b :: vs, extreme wanted (some b) vs = .ok (some r) ∧ (r = b ∨ r.compare b = .ok wanted) ∧
      ∀ v ∈ b :: vs, v.compare r ≠ .ok wanted := by
  induction vs generalizing b with
  | nil =>
    refine ⟨b, List.mem_singleton_self b, rfl, .inl rfl, ?_⟩
    intro v hv
    rw [List.mem_singleton.1 hv]
    exact compare_self_ne hw b
  | cons v vs ih =>
    obtain ⟨hv, hvs⟩ := List.forall_mem_cons.1 h
    obtain ⟨o, ho⟩ := Value.exists_compare_iff.2 (.inr (.inr (Order.sameClass_comm b v ▸ hv)))
    rw [extreme_cons ho]
    by_cases hbeat : o = wanted
    · subst hbeat
      rw [if_pos rfl]
      obtain ⟨r, hr, hext, hfirst, hbound⟩ := ih fun w hmem => Order.sameClass_of_first hv (hvs w hmem)
      have hrb : r.compare b = .ok o := by
        rcases hfirst with rfl | hrv
        · exact ho
        · exact Value.compare_trans hw hrv ho
      refine ⟨r, List.mem_cons_of_mem b hr, hext, .inr hrb, ?_⟩
      rintro w (_ | ⟨_, hmem⟩)
      · exact compare_asymm hw hrb
      · exact hbound w hmem
    · rw [if_neg hbeat]
      have hnot : v.compare b ≠ .ok wanted := by
        rw [ho]
        simpa using hbeat
      obtain ⟨r, hr, hext, hfirst, hbound⟩ := ih hvs
      refine ⟨r, ?_, hext, hfirst, ?_⟩
      · rcases List.mem_cons.1 hr with rfl | hr
        · simp
        · simp [hr]
      · rintro w (_ | ⟨_, _ | ⟨_, hmem⟩⟩)
        · exact hbound b (List.mem_cons_self ..)
        · exact compare_ne_of_later hw hfirst hnot
        · exact hbound w (List.mem_cons_of_mem b hmem)

/-- A value of another class than the best one ends the search, wherever it stands: before it only values of the
class of the best one can replace it. -/
theorem extreme_error (hb : b ≠ .null) (hn : ∀ v ∈ vs, v ≠ .null) (h : ∃ v ∈ vs, Order.sameClass b v = false) :
    ∃ e, extreme wanted (some b) vs = .error e := by
  induction vs generalizing b with
  | nil => simp at h
  | cons v vs ih =>
    obtain ⟨hv, hvs⟩ := List.forall_mem_cons.1 hn
    by_cases hclass : Order.sameClass b v = true
    · obtain ⟨o, ho⟩ := Value.exists_compare_iff.2 (.inr (.inr (Order.sameClass_comm b v ▸ hclass)))
      have hrest : ∃ w ∈ vs, Order.sameClass b w = false := by
        simpa [hclass] using h
      rw [extreme_cons ho]
      split
      · refine ih hv hvs ?_
        obtain ⟨w, hw, hother⟩ := hrest
        refine ⟨w, hw, ?_⟩
        rw [← Bool.not_eq_true] at hother ⊢
        intro hsame
        exact hother (Order.sameClass_of_first (Order.sameClass_comm b v ▸ hclass) hsame)
      · exact ih hb hvs hrest
    · cases hc : v.compare b with
      | error e => exact ⟨e, by rw [extreme, hc]; rfl⟩
      | ok o =>
        rcases Value.exists_compare_iff.1 ⟨o, hc⟩ with hnull | hnull | hsame
        · exact absurd hnull hv
        · exact absurd hnull hb
        · exact absurd (Order.sameClass_comm b v ▸ hsame) hclass

/-! ## The whole column -/

theorem isExtreme_of_absent (h : column.filter (!·.isNull) = []) : IsExtreme wanted column (.ok .null) where
  fails := iff_of_false (by simp) (not_not_intro (Order.comparable_of_absent h))
  null := by
    refine iff_of_true rfl ?_
    intro v hv
    by_contra hn
    have := Order.mem_present_iff.2 ⟨hv, hn⟩
    simp [h] at this
  best := by
    rintro r hr hn
    cases hr
    exact absurd rfl hn

theorem isExtreme_of_present {first : Value} {rest : List Value} (hw : wanted ≠ .eq)
    (h : column.filter (!·.isNull) = first :: rest) :
    IsExtreme wanted column do return (← extreme wanted (some first) rest).getD .null := by
  have hmem : ∀ v, v ∈ first :: rest ↔ v ∈ column ∧ v ≠ .null := by
    intro v
    rw [← h, Order.mem_present_iff]
  have hfirst := (hmem first).1 (List.mem_cons_self ..)
  have hnulls : ¬∀ v ∈ column, v = .null := fun hall => hfirst.2 (hall first hfirst.1)
  by_cases hc : Order.Comparable column
  · have hclass := (Order.comparable_iff_first h).1 hc
    obtain ⟨r, hr, hext, -, hbound⟩ := extreme_ok hw hclass
    have hrc := (hmem r).1 hr
    rw [hext]
    refine ⟨iff_of_false (by simp [pure, Except.pure, bind, Except.bind]) (not_not_intro hc), ?_, ?_⟩
    · refine iff_of_false ?_ hnulls
      intro h
      cases h
      exact hrc.2 rfl
    · rintro r' hr' -
      cases hr'
      refine ⟨hrc.1, ?_⟩
      intro v hv hn
      obtain ⟨o, ho⟩ := hc.exists_compare hv hrc.1
      refine ⟨o, ho, ?_⟩
      rintro rfl
      exact hbound v ((hmem v).2 ⟨hv, hn⟩) ho
  · have hother : ∃ v ∈ rest, Order.sameClass first v = false := by
      simpa [Order.comparable_iff_first h] using hc
    have hrest : ∀ v ∈ rest, v ≠ .null := fun v hv => ((hmem v).1 (List.mem_cons_of_mem first hv)).2
    obtain ⟨e, he⟩ : ∃ e, extreme wanted (some first) rest = .error e := extreme_error hfirst.2 hrest hother
    rw [he]
    refine ⟨iff_of_true ⟨e, rfl⟩ hc, iff_of_false nofun hnulls, nofun⟩

theorem isExtreme_extreme (hw : wanted ≠ .eq) (column : List Value) :
    IsExtreme wanted column do return (← extreme wanted none (column.filter (!·.isNull))).getD .null := by
  cases h : column.filter (!·.isNull) with
  | nil => exact isExtreme_of_absent h
  | cons first rest => exact isExtreme_of_present hw h

/-- The least and the greatest value of a column, whatever integers and floats are in it. -/
theorem reduce_extremes (column : List Value) :
    IsExtreme .lt column (min.reduce column) ∧ IsExtreme .gt column (max.reduce column) :=
  ⟨isExtreme_extreme (by decide) column, isExtreme_extreme (by decide) column⟩

/-- A float that two integers are rounded to does not stand between them; the lesser one is found behind it. -/
example : min.reduce [.int 9007199254740993, .float (.ofInt 9007199254740992), .null, .int 9007199254740992] =
    .ok (.int 9007199254740992) := by
  decide +kernel

end TableQuery.Aggregate
