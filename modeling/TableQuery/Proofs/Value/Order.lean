/-
The order of values. Two values compare if one of them is null or both are of one class, in either direction
with opposite results, and a value is equal to itself. The order is exact within a kind, but an integer meets a
float as the floating-point number that it is rounded to; so two integers may both be equal to one float
without being equal to each other. Nothing else stands in the way of transitivity.
-/
import TableQuery.Order
import TableQuery.Proofs.Number.Rounding

namespace TableQuery.Value

variable {a b c : Value} {o : Ordering}

/-! ## Values that compare -/

/-- Values compare if one of them is null or both are truth values, numbers or texts. -/
theorem exists_compare_iff :
    (∃ o, a.compare b = .ok o) ↔ a = .null ∨ b = .null ∨ Order.sameClass a b = true := by
  cases a <;> cases b <;> simp [compare, Order.sameClass, toDouble?]

theorem compare_swap (h : a.compare b = .ok o) : b.compare a = .ok o.swap := by
  cases a <;> cases b <;> simp only [compare, toDouble?, reduceCtorEq, Except.ok.injEq] at h ⊢ <;> subst h
  all_goals first | rfl | exact Std.OrientedOrd.eq_swap

/-- Comparing in the other direction gives the opposite result. -/
theorem compare_swap_iff : a.compare b = .ok o ↔ b.compare a = .ok o.swap :=
  ⟨compare_swap, fun h => by simpa using compare_swap h⟩

theorem compare_self (a : Value) : a.compare a = .ok .eq := by
  cases a <;> simp [compare, toDouble?, Double.totalCompare]

/-! ## Values in order -/

/-- The values compare, and the first one does not come after the second one. -/
def NotAfter (a b : Value) : Prop := ∃ o, a.compare b = .ok o ∧ o.isLE = true

theorem null_notAfter (b : Value) : NotAfter .null b := by
  cases b <;> simp [NotAfter, compare]

/-- Only null does not come after null. -/
theorem eq_null_of_notAfter (h : a.NotAfter .null) : a = .null := by
  cases a <;> simp [NotAfter, compare] at h ⊢

theorem notAfter_int_iff {i k : Int64} : (int i).NotAfter (int k) ↔ i.toInt ≤ k.toInt := by
  simp [NotAfter, compare, Int.isLE_compare]

/-- Numbers that are not both integers are in the order of floating-point numbers. -/
theorem notAfter_number_iff {x y : Double} (ha : a.toDouble? = some x) (hb : b.toDouble? = some y)
    (hf : a.kind = .float ∨ b.kind = .float) : a.NotAfter b ↔ x.orderKey ≤ y.orderKey := by
  have hc : a.compare b = .ok (x.totalCompare y) := by
    cases a <;> cases b <;> simp [toDouble?, kind, compare] at ha hb hf ⊢ <;> simp [ha, hb]
  simp [NotAfter, hc, Double.totalCompare, Int.isLE_compare]

/-- Numbers in order are in order as floating-point numbers, as rounding keeps the order of integers. -/
theorem orderKey_le_of_notAfter {x y : Double} (ha : a.toDouble? = some x) (hb : b.toDouble? = some y)
    (h : a.NotAfter b) : x.orderKey ≤ y.orderKey := by
  by_cases hf : a.kind = .float ∨ b.kind = .float
  · exact (notAfter_number_iff ha hb hf).1 h
  · cases a <;> cases b <;> simp [toDouble?, kind] at ha hb hf
    subst ha hb
    exact Double.orderKey_ofInt_mono (notAfter_int_iff.1 h)

/-! ## Transitivity -/

/-- Two integers, the greater one first, and between them a float that both of them are rounded to. -/
def Blurred (a b c : Value) : Prop :=
  ∃ (i k : Int64) (x : Double), a = .int i ∧ b = .float x ∧ c = .int k ∧
    k.toInt < i.toInt ∧ Double.ofInt i.toInt = x ∧ Double.ofInt k.toInt = x

theorem sameClass_of_notAfter (ha : a ≠ .null) (h : a.NotAfter b) : Order.sameClass a b = true := by
  obtain ⟨o, ho, hle⟩ := h
  rcases exists_compare_iff.1 ⟨o, ho⟩ with rfl | rfl | hs
  · exact absurd rfl ha
  · exact absurd (eq_null_of_notAfter ⟨o, ho, hle⟩) ha
  · exact hs

theorem isNumber_of_sameClass (h : Order.sameClass a b = true) : a.toDouble?.isSome = b.toDouble?.isSome := by
  cases a <;> cases b <;> simp [Order.sameClass, toDouble?] at h ⊢

/-- Between numbers the order fails to be transitive only where two integers are rounded to the same float. -/
theorem notAfter_trans_number {x y z : Double} (ha : a.toDouble? = some x) (hb : b.toDouble? = some y)
    (hc : c.toDouble? = some z) (hn : ¬Blurred a b c) (hab : a.NotAfter b) (hbc : b.NotAfter c) : a.NotAfter c := by
  have hxy := orderKey_le_of_notAfter ha hb hab
  have hyz := orderKey_le_of_notAfter hb hc hbc
  by_cases hf : a.kind = .float ∨ c.kind = .float
  · exact (notAfter_number_iff ha hc hf).2 (hxy.trans hyz)
  · cases a <;> cases c <;> simp [toDouble?, kind] at ha hc hf
    rename_i i k
    subst ha hc
    rw [notAfter_int_iff]
    by_contra hik
    have hle : k.toInt ≤ i.toInt := by omega
    -- the float in the middle is squeezed between the two integers that it separates
    have hzx := Double.orderKey_ofInt_mono hle
    cases b with
    | int j =>
      rw [notAfter_int_iff] at hab hbc
      omega
    | float w =>
      cases hb
      have hx : Double.ofInt i.toInt = y := Double.orderKey_inj (by omega)
      have hz : Double.ofInt k.toInt = y := Double.orderKey_inj (by omega)
      exact hn ⟨i, k, y, rfl, rfl, rfl, by omega, hx, hz⟩
    | _ => cases hb

theorem notAfter_trans (hn : ¬Blurred a b c) (hab : a.NotAfter b) (hbc : b.NotAfter c) : a.NotAfter c := by
  by_cases ha : a = .null
  · rw [ha]
    exact null_notAfter c
  have hsab := sameClass_of_notAfter ha hab
  have hb : b ≠ .null := by
    rintro rfl
    exact ha (eq_null_of_notAfter hab)
  have hsbc := sameClass_of_notAfter hb hbc
  have hna := isNumber_of_sameClass hsab
  have hnb := isNumber_of_sameClass hsbc
  cases hx : a.toDouble? with
  | some x =>
    rw [hx] at hna
    rw [← hna] at hnb
    obtain ⟨y, hy⟩ := Option.isSome_iff_exists.1 hna.symm
    obtain ⟨z, hz⟩ := Option.isSome_iff_exists.1 hnb.symm
    exact notAfter_trans_number hx hy hz hn hab hbc
  | none =>
    -- truth values and texts compare exactly
    obtain ⟨o, ho, hle⟩ := hab
    obtain ⟨o', ho', hle'⟩ := hbc
    cases a <;> cases b <;> simp [Order.sameClass, toDouble?, compare] at hsab hx ho <;> cases c <;>
      simp [Order.sameClass, compare] at hsbc ho'
    all_goals
      subst ho ho'
      exact ⟨_, rfl, Std.TransCmp.isLE_trans hle hle'⟩

/-! ## Strict order -/

/-- Where transitivity fails, nothing comes strictly before anything else. -/
theorem Blurred.compare_eq (h : Blurred a b c) : a.compare b = .ok .eq ∧ b.compare c = .ok .eq := by
  obtain ⟨i, k, x, rfl, rfl, rfl, -, hi, hk⟩ := h
  simp [compare, toDouble?, Double.totalCompare_eq_iff, hi, hk]

theorem compare_lt_iff : a.compare b = .ok .lt ↔ a.NotAfter b ∧ ¬b.NotAfter a := by
  constructor
  · intro h
    refine ⟨⟨.lt, h, rfl⟩, ?_⟩
    rintro ⟨o, ho, hle⟩
    rw [compare_swap h] at ho
    cases ho
    cases hle
  · rintro ⟨⟨o, ho, hle⟩, hn⟩
    cases o with
    | lt => exact ho
    | eq => exact absurd ⟨.eq, compare_swap ho, rfl⟩ hn
    | gt => cases hle

theorem compare_lt_trans (hab : a.compare b = .ok .lt) (hbc : b.compare c = .ok .lt) : a.compare c = .ok .lt := by
  obtain ⟨hle, -⟩ := compare_lt_iff.1 hab
  obtain ⟨hle', hn⟩ := compare_lt_iff.1 hbc
  rw [compare_lt_iff]
  constructor
  · refine notAfter_trans (fun h => ?_) hle hle'
    cases hab.symm.trans h.compare_eq.1
  · intro hca
    refine hn (notAfter_trans (fun h => ?_) hca hle)
    cases hab.symm.trans h.compare_eq.2

/-- A strict order is transitive in both directions, and for numbers of any kinds. -/
theorem compare_trans (ho : o ≠ .eq) (hab : a.compare b = .ok o) (hbc : b.compare c = .ok o) : a.compare c = .ok o := by
  cases o with
  | lt => exact compare_lt_trans hab hbc
  | eq => exact absurd rfl ho
  | gt => exact compare_swap (compare_lt_trans (compare_swap hbc) (compare_swap hab))

/-- The order of values, with the one exception from transitivity. -/
theorem compare_preorder_iff (a b c : Value) :
    ((∃ o, a.compare b = .ok o) ↔ a = .null ∨ b = .null ∨ Order.sameClass a b = true) ∧
      (∀ o, a.compare b = .ok o ↔ b.compare a = .ok o.swap) ∧
      a.compare a = .ok .eq ∧
      ((a.NotAfter b → b.NotAfter c → a.NotAfter c) ↔ ¬Blurred a b c) := by
  refine ⟨exists_compare_iff, fun o => compare_swap_iff, compare_self a, ?_, notAfter_trans⟩
  rintro h ⟨i, k, x, rfl, rfl, rfl, hlt, hi, hk⟩
  have hab : (int i).NotAfter (float x) := (notAfter_number_iff rfl rfl (.inr rfl)).2 (hi ▸ Int.le_refl _)
  have hbc : (float x).NotAfter (int k) := (notAfter_number_iff rfl rfl (.inl rfl)).2 (hk ▸ Int.le_refl _)
  have := notAfter_int_iff.1 (h hab hbc)
  omega

/-- Above the whole numbers that a float can tell apart the order is not transitive: 9007199254740993 is equal to
9007199254740992.0, which is equal to 9007199254740992. -/
theorem not_compare_transitive : ¬∀ a b c : Value, a.NotAfter b → b.NotAfter c → a.NotAfter c := by
  intro h
  have hab : (int 9007199254740993).NotAfter (float (.ofInt 9007199254740992)) := ⟨.eq, by decide +kernel, rfl⟩
  have hbc : (float (.ofInt 9007199254740992)).NotAfter (int 9007199254740992) := ⟨.eq, by decide +kernel, rfl⟩
  have hac := notAfter_int_iff.1 (h _ _ _ hab hbc)
  revert hac
  decide

end TableQuery.Value
