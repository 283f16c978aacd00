/-
The whole numbers that are integers of 64 bits. Each of them is one integer, and the one of the negated number is the
negation, except for the least one, which has none.
-/
import TableQuery.Number.Integer

namespace TableQuery.Integer

variable {n : Int} {i j : Int64}

/-- The number is in the range of the integers. -/
def Fits (n : Int) : Prop := Int64.minValue.toInt ≤ n ∧ n ≤ Int64.maxValue.toInt

instance (n : Int) : Decidable (Fits n) := inferInstanceAs (Decidable (_ ∧ _))

theorem fits_iff : Fits n ↔ -9223372036854775808 ≤ n ∧ n ≤ 9223372036854775807 := by
  rw [Fits, Int64.toInt_minValue, Int64.toInt_maxValue]
  constructor <;> (intro h; omega)

theorem fits_toInt (i : Int64) : Fits i.toInt := ⟨i.minValue_le_toInt, i.toInt_le⟩

theorem toInt_ofInt (h : Fits n) : (Int64.ofInt n).toInt = n :=
  Int64.toInt_ofInt_of_le h.1 (Int.lt_of_le_of_lt h.2 (by decide))

theorem fits_iff_exists : Fits n ↔ ∃ i : Int64, i.toInt = n := by
  constructor
  · intro h
    exact ⟨Int64.ofInt n, toInt_ofInt h⟩
  · rintro ⟨i, rfl⟩
    exact fits_toInt i

theorem toInt_eq_zero_iff : i.toInt = 0 ↔ i = 0 := by
  rw [← Int64.toInt_inj]
  rfl

/-! ## The integer equal to a number -/

theorem ofInt?_of_fits (h : Fits n) : ofInt? n = some (Int64.ofInt n) := if_pos h

theorem ofInt?_eq_none_iff : ofInt? n = none ↔ ¬Fits n := by
  constructor
  · intro h hn
    rw [ofInt?_of_fits hn] at h
    cases h
  · intro hn
    exact if_neg hn

theorem ofInt?_eq_some_iff : ofInt? n = some i ↔ i.toInt = n := by
  constructor
  · intro h
    by_cases hn : Fits n
    · rw [ofInt?_of_fits hn] at h
      cases h
      exact toInt_ofInt hn
    · rw [ofInt?_eq_none_iff.2 hn] at h
      cases h
  · rintro rfl
    rw [ofInt?_of_fits (fits_toInt i), Int64.ofInt_toInt]

theorem ofInt?_isSome_iff : (ofInt? n).isSome = true ↔ ∃ i : Int64, i.toInt = n := by
  simp [Option.isSome_iff_exists, ofInt?_eq_some_iff]

/-! ## Negation -/

theorem eq_neg_of_ofInt? (h : ofInt? (-i.toInt) = some j) : j = -i := by
  have hj := ofInt?_eq_some_iff.1 h
  rw [← Int64.ofInt_toInt j, hj, Int64.ofInt_neg, Int64.ofInt_toInt]

end TableQuery.Integer
