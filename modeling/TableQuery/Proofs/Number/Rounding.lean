/-
Whole numbers as floating-point numbers. A number is its sign and its magnitude, and the total order tells
any two of them apart. Rounding whole numbers to floating-point numbers keeps their order; and a
floating-point number without a fraction is the one that its own whole part is rounded to, unless it is the zero
of negative sign.
-/
import TableQuery.Number.Double
import Mathlib.Algebra.Order.Ring.Nat
import Mathlib.Data.Nat.Log
import Mathlib.Order.Compare

namespace TableQuery.Double

variable {x y : Double} {neg : Bool} {mag n m d : Nat} {i j : Int}

/-! ## Sign and magnitude -/

theorem signWeight_eq : signWeight = 9223372036854775808 := rfl

theorem exponentWeight_eq : exponentWeight = 4503599627370496 := rfl

theorem magnitude_lt (x : Double) : x.magnitude < signWeight := Nat.mod_lt _ (by decide)

theorem toNat_bits (x : Double) : x.bits.toNat = if x.isNeg then signWeight + x.magnitude else x.magnitude := by
  have hlt : x.bits.toNat < 2 * signWeight := x.bits.toNat_lt
  unfold isNeg magnitude
  rw [signWeight_eq] at hlt ⊢
  simp only [decide_eq_true_eq]
  split <;> omega

/-- A number is known by its sign and its magnitude. -/
theorem eq_of_sign_magnitude (hs : x.isNeg = y.isNeg) (hm : x.magnitude = y.magnitude) : x = y := by
  have hbits : x.bits.toNat = y.bits.toNat := by rw [toNat_bits, toNat_bits, hs, hm]
  cases x
  cases y
  exact congrArg mk (UInt64.toNat_inj.1 hbits)

theorem toNat_bits_ofMagnitude (h : mag < signWeight) :
    (ofMagnitude neg mag).bits.toNat = if neg then signWeight + mag else mag := by
  unfold ofMagnitude
  rw [signWeight_eq] at h ⊢
  rw [UInt64.toNat_ofNat']
  split <;> omega

theorem isNeg_ofMagnitude (h : mag < signWeight) : (ofMagnitude neg mag).isNeg = neg := by
  unfold isNeg
  rw [toNat_bits_ofMagnitude h]
  cases neg <;> simp [h]

theorem magnitude_ofMagnitude (h : mag < signWeight) : (ofMagnitude neg mag).magnitude = mag := by
  unfold magnitude
  rw [toNat_bits_ofMagnitude h]
  cases neg <;> simp [Nat.mod_eq_of_lt h]

theorem ofMagnitude_magnitude (x : Double) : ofMagnitude x.isNeg x.magnitude = x :=
  eq_of_sign_magnitude (isNeg_ofMagnitude x.magnitude_lt) (magnitude_ofMagnitude x.magnitude_lt)

/-! ## The total order -/

theorem orderKey_inj (h : x.orderKey = y.orderKey) : x = y := by
  unfold orderKey at h
  refine eq_of_sign_magnitude ?_ ?_ <;> cases hx : x.isNeg <;> cases hy : y.isNeg <;> simp [hx, hy] at h ⊢ <;> omega

theorem totalCompare_eq_iff : x.totalCompare y = .eq ↔ x = y := by
  unfold totalCompare
  rw [compare_eq_iff_eq]
  exact ⟨orderKey_inj, congrArg orderKey⟩

/-- The zero of negative sign. -/
def negZero : Double := ofMagnitude true 0

theorem isZero_iff : x.isZero = true ↔ x = zero ∨ x = negZero := by
  unfold isZero zero negZero
  rw [decide_eq_true_iff]
  constructor
  · intro h
    rw [← ofMagnitude_magnitude x, h]
    cases x.isNeg <;> simp
  · rintro (rfl | rfl) <;> exact magnitude_ofMagnitude (by decide)

/-! ## Quotients -/

theorem le_divRoundEven (n d : Nat) : n / d ≤ divRoundEven n d ∧ divRoundEven n d ≤ n / d + 1 := by
  unfold divRoundEven
  simp only
  split
  · omega
  · split <;> omega

theorem divRoundEven_mono (h : n ≤ m) : divRoundEven n d ≤ divRoundEven m d := by
  have hq : n / d ≤ m / d := Nat.div_le_div_right h
  rcases Nat.lt_or_eq_of_le hq with hlt | heq
  · exact (le_divRoundEven n d).2.trans (Nat.le_trans hlt (le_divRoundEven m d).1)
  · -- between the same whole numbers the greater remainder is rounded up first
    have hr : n % d ≤ m % d := by
      have hn := Nat.div_add_mod n d
      have hm := Nat.div_add_mod m d
      rw [heq] at hn
      omega
    unfold divRoundEven
    simp only [heq]
    split_ifs <;> omega

theorem divRoundEven_mul (n : Nat) (hd : 0 < d) : divRoundEven (n * d) d = n := by
  unfold divRoundEven
  simp [Nat.mul_mod_left, Nat.mul_div_cancel n hd, hd]

/-! ## Rounding whole numbers -/

theorem log2Ratio_one (hn : n ≠ 0) : log2Ratio n 1 = n.log2 := by
  have hle : 1 <<< n.log2 ≤ n := by
    rw [Nat.one_shiftLeft]
    exact Nat.log2_self_le hn
  unfold log2Ratio
  simp [show Nat.log2 1 = 0 by decide, hle]

/-- The significand of a whole number, rounded to the places that it has. -/
def significandOf (n : Nat) : Nat := divRoundEven (n <<< (52 - n.log2)) (1 <<< (n.log2 - 52))

theorem roundMagnitude_one (hn : n ≠ 0) :
    roundMagnitude n 1 = min ((n.log2 + 1022) * exponentWeight + significandOf n) infinityMagnitude := by
  unfold roundMagnitude significandOf
  rw [if_neg hn, log2Ratio_one hn]
  simp only
  rw [show (max ((n.log2 : Int) - 52) (-1074) + 1074).toNat = n.log2 + 1022 by omega,
    show (-max ((n.log2 : Int) - 52) (-1074)).toNat = 52 - n.log2 by omega,
    show (max ((n.log2 : Int) - 52) (-1074)).toNat = n.log2 - 52 by omega]

/-- A whole number divided by a power of two, or multiplied by one, has its leading bit where a significand has it. -/
theorem shiftLeft_bounds (hn : n ≠ 0) : exponentWeight * 1 <<< (n.log2 - 52) ≤ n <<< (52 - n.log2) ∧
    n <<< (52 - n.log2) < 2 * exponentWeight * 1 <<< (n.log2 - 52) := by
  have hlow : 2 ^ n.log2 ≤ n := Nat.log2_self_le hn
  have hhigh : n < 2 ^ (n.log2 + 1) := Nat.lt_log2_self
  have hw : exponentWeight = 2 ^ 52 := by decide
  rw [hw, Nat.shiftLeft_eq, Nat.shiftLeft_eq, one_mul]
  rcases Nat.le_total n.log2 52 with h | h
  · obtain ⟨k, hk⟩ := Nat.exists_eq_add_of_le h
    rw [show n.log2 - 52 = 0 by omega, show 52 - n.log2 = k by omega, hk, pow_zero, mul_one, mul_one, pow_add,
      ← mul_assoc, ← pow_succ']
    exact ⟨Nat.mul_le_mul_right _ hlow, Nat.mul_lt_mul_of_pos_right hhigh (Nat.two_pow_pos k)⟩
  · obtain ⟨k, hk⟩ := Nat.exists_eq_add_of_le h
    rw [show 52 - n.log2 = 0 by omega, show n.log2 - 52 = k by omega, pow_zero, mul_one, mul_assoc, ← pow_add,
      ← pow_succ', ← hk]
    exact ⟨hlow, hhigh⟩

/-- A significand fills the places, or has become a power of two above them. -/
theorem significandOf_bounds (hn : n ≠ 0) :
    exponentWeight ≤ significandOf n ∧ significandOf n ≤ 2 * exponentWeight := by
  obtain ⟨hlow, hhigh⟩ := shiftLeft_bounds hn
  have hpos : 0 < 1 <<< (n.log2 - 52) := by
    rw [Nat.one_shiftLeft]
    exact Nat.two_pow_pos _
  have hdiv := le_divRoundEven (n <<< (52 - n.log2)) (1 <<< (n.log2 - 52))
  have hq1 : exponentWeight ≤ n <<< (52 - n.log2) / 1 <<< (n.log2 - 52) := (Nat.le_div_iff_mul_le hpos).2 hlow
  have hq2 : n <<< (52 - n.log2) / 1 <<< (n.log2 - 52) < 2 * exponentWeight := (Nat.div_lt_iff_lt_mul hpos).2 hhigh
  unfold significandOf
  omega

/-- Rounding keeps the order of whole numbers. -/
theorem roundMagnitude_mono (h : n ≤ m) : roundMagnitude n 1 ≤ roundMagnitude m 1 := by
  by_cases hn : n = 0
  · subst hn
    exact Nat.zero_le _
  have hm : m ≠ 0 := by omega
  have hlog : n.log2 ≤ m.log2 := (Nat.le_log2 hm).2 ((Nat.log2_self_le hn).trans h)
  rw [roundMagnitude_one hn, roundMagnitude_one hm]
  refine min_le_min_right _ ?_
  rcases Nat.lt_or_eq_of_le hlog with hlt | heq
  · -- the significand of the smaller number is at most twice the least one
    have hsn := (significandOf_bounds hn).2
    have hsm := (significandOf_bounds hm).1
    rw [exponentWeight_eq] at hsn hsm ⊢
    omega
  · unfold significandOf
    rw [heq, Nat.shiftLeft_eq n, Nat.shiftLeft_eq m]
    exact Nat.add_le_add_left (divRoundEven_mono (Nat.mul_le_mul_right _ h)) _

theorem roundMagnitude_one_lt (n : Nat) : roundMagnitude n 1 < signWeight := by
  have hinf : infinityMagnitude < signWeight := by decide
  by_cases hn : n = 0
  · subst hn
    decide
  · rw [roundMagnitude_one hn]
    exact (Nat.min_le_right _ _).trans_lt hinf

/-! ## Integers -/

theorem isNeg_ofInt (i : Int) : (ofInt i).isNeg = decide (i < 0) := isNeg_ofMagnitude (roundMagnitude_one_lt _)

theorem magnitude_ofInt (i : Int) : (ofInt i).magnitude = roundMagnitude i.natAbs 1 :=
  magnitude_ofMagnitude (roundMagnitude_one_lt _)

/-- Integers as floating-point numbers keep their order, although different ones may become equal. -/
theorem orderKey_ofInt_mono (h : i ≤ j) : (ofInt i).orderKey ≤ (ofInt j).orderKey := by
  unfold orderKey
  rw [isNeg_ofInt, isNeg_ofInt, magnitude_ofInt, magnitude_ofInt]
  simp only [decide_eq_true_eq]
  split_ifs with hi hj
  · have := roundMagnitude_mono (show j.natAbs ≤ i.natAbs by omega)
    omega
  · omega
  · omega
  · have := roundMagnitude_mono (show i.natAbs ≤ j.natAbs by omega)
    omega

/-! ## Numbers without a fraction -/

/-- Whether a number is this integer exactly. -/
def Is (x : Double) (i : Int) : Prop := x.isWhole = true ∧ x.truncate = i

theorem exponentWeight_le_shiftLeft {k : Nat} (hk : 52 ≤ k) : exponentWeight ≤ 1 <<< k := by
  rw [Nat.one_shiftLeft]
  exact (show exponentWeight = 2 ^ 52 by decide) ▸ Nat.pow_le_pow_right (by decide) hk

theorem log2_shiftLeft (hn : n ≠ 0) (k : Nat) : (n <<< k).log2 = n.log2 + k := by
  have hpos : 0 < 2 ^ k := Nat.two_pow_pos k
  rw [Nat.shiftLeft_eq, Nat.log2_eq_iff (Nat.mul_ne_zero hn hpos.ne')]
  constructor
  · rw [pow_add]
    exact Nat.mul_le_mul_right _ (Nat.log2_self_le hn)
  · rw [Nat.add_right_comm, pow_add]
    exact Nat.mul_lt_mul_of_pos_right Nat.lt_log2_self hpos

/-- Below the least normal number there is no whole number but zero. -/
theorem magnitude_eq_zero_of_isWhole (hw : x.isWhole = true) (hb : x.magnitude / exponentWeight = 0) :
    x.magnitude = 0 := by
  obtain ⟨-, hmod⟩ := Bool.and_eq_true_iff.1 hw
  have hmant : x.mantissa = x.magnitude := if_pos hb
  have hexp : (-x.exponent).toNat = 1074 := by
    unfold exponent
    rw [hb]
    rfl
  rw [beq_iff_eq, hmant, hexp] at hmod
  have hlt : x.magnitude < exponentWeight := by
    rw [exponentWeight_eq] at hb ⊢
    omega
  rwa [Nat.mod_eq_of_lt (hlt.trans_le (exponentWeight_le_shiftLeft (by decide)))] at hmod

theorem mantissa_bounds (hb : x.magnitude / exponentWeight ≠ 0) :
    exponentWeight ≤ x.mantissa ∧ x.mantissa < 2 * exponentWeight := by
  have hmant : x.mantissa = exponentWeight + x.magnitude % exponentWeight := if_neg hb
  have hrest : x.magnitude % exponentWeight < exponentWeight := Nat.mod_lt _ (by decide)
  omega

theorem log2_of_bounds (hm : exponentWeight ≤ m ∧ m < 2 * exponentWeight) : m.log2 = 52 := by
  rw [exponentWeight_eq] at hm
  exact (Nat.log2_eq_iff (by omega)).2 ⟨by omega, by omega⟩

/-- A significand with zeros behind it, all of them before the point. -/
theorem significandOf_shiftLeft (hm : exponentWeight ≤ m ∧ m < 2 * exponentWeight) (k : Nat) :
    (m <<< k).log2 = 52 + k ∧ significandOf (m <<< k) = m := by
  have hne : m ≠ 0 := by
    rw [exponentWeight_eq] at hm
    omega
  have hlog : (m <<< k).log2 = 52 + k := by rw [log2_shiftLeft hne, log2_of_bounds hm]
  refine ⟨hlog, ?_⟩
  unfold significandOf
  rw [hlog, show 52 - (52 + k) = 0 by omega, show 52 + k - 52 = k by omega, Nat.shiftLeft_zero, Nat.shiftLeft_eq,
    Nat.one_shiftLeft]
  exact divRoundEven_mul m (Nat.two_pow_pos k)

/-- A whole number that becomes a significand with zeros behind it. -/
theorem significandOf_of_shiftLeft {k : Nat} (hm : exponentWeight ≤ n <<< k ∧ n <<< k < 2 * exponentWeight) :
    n.log2 + k = 52 ∧ significandOf n = n <<< k := by
  have hne : n ≠ 0 := by
    rintro rfl
    rw [Nat.zero_shiftLeft, exponentWeight_eq] at hm
    omega
  have hlog : n.log2 + k = 52 := by rw [← log2_shiftLeft hne, log2_of_bounds hm]
  refine ⟨hlog, ?_⟩
  unfold significandOf
  rw [show 52 - n.log2 = k by omega, show n.log2 - 52 = 0 by omega]
  exact (congrArg (divRoundEven · 1) (Nat.mul_one _).symm).trans (divRoundEven_mul (n <<< k) Nat.one_pos)

/-- A number without a fraction has the places of its significand before the point. -/
theorem significandOf_wholePart (hw : x.isWhole = true) (hb : x.magnitude / exponentWeight ≠ 0) :
    (x.wholePart.log2 : Int) = 52 + x.exponent ∧ significandOf x.wholePart = x.mantissa := by
  obtain ⟨-, hmod⟩ := Bool.and_eq_true_iff.1 hw
  rw [beq_iff_eq] at hmod
  have hm := mantissa_bounds hb
  unfold wholePart
  rcases Int.le_total 0 x.exponent with h | h
  · rw [show (-x.exponent).toNat = 0 by omega, Nat.shiftRight_zero]
    obtain ⟨hlog, hs⟩ := significandOf_shiftLeft hm x.exponent.toNat
    exact ⟨by omega, hs⟩
  · rw [show x.exponent.toNat = 0 by omega, Nat.shiftLeft_zero]
    generalize hk : (-x.exponent).toNat = k at hmod ⊢
    have hback : (x.mantissa >>> k) <<< k = x.mantissa := by
      rw [Nat.shiftRight_eq_div_pow, Nat.shiftLeft_eq]
      rw [Nat.one_shiftLeft] at hmod
      exact Nat.div_mul_cancel (Nat.dvd_of_mod_eq_zero hmod)
    obtain ⟨hlog, hs⟩ := significandOf_of_shiftLeft (n := x.mantissa >>> k) (hback.symm ▸ hm)
    exact ⟨by omega, hs.trans hback⟩

theorem wholePart_ne_zero (hw : x.isWhole = true) (hb : x.magnitude / exponentWeight ≠ 0) : x.wholePart ≠ 0 := by
  intro h
  have hbounds := mantissa_bounds hb
  have hs := (significandOf_wholePart hw hb).2
  rw [h, show significandOf 0 = 0 by decide] at hs
  rw [exponentWeight_eq] at hbounds
  omega

/-- A whole number of this magnitude is rounded to it. -/
theorem roundMagnitude_wholePart (hw : x.isWhole = true) : roundMagnitude x.wholePart 1 = x.magnitude := by
  by_cases hb : x.magnitude / exponentWeight = 0
  · have hzero := magnitude_eq_zero_of_isWhole hw hb
    have hmant : x.mantissa = 0 := (if_pos hb).trans hzero
    rw [wholePart, hmant, Nat.zero_shiftLeft, Nat.zero_shiftRight, hzero]
    rfl
  · obtain ⟨hfin, -⟩ := Bool.and_eq_true_iff.1 hw
    have hmag : x.magnitude < infinityMagnitude := of_decide_eq_true hfin
    obtain ⟨hlog, hs⟩ := significandOf_wholePart hw hb
    have hmant : x.mantissa = exponentWeight + x.magnitude % exponentWeight := if_neg hb
    have hexp : x.exponent = (x.magnitude / exponentWeight : Nat) - 1075 := by
      unfold exponent
      rw [max_eq_left (by exact_mod_cast Nat.pos_of_ne_zero hb)]
    have hne : x.wholePart ≠ 0 := wholePart_ne_zero hw hb
    have hsplit := Nat.div_add_mod x.magnitude exponentWeight
    rw [roundMagnitude_one hne, hs, hmant]
    rw [exponentWeight_eq] at *
    omega

/-- A number without a fraction is what its whole part is rounded to, but for the sign of a zero. -/
theorem ofInt_truncate (hw : x.isWhole = true) (hz : x ≠ negZero) : ofInt x.truncate = x := by
  have habs : x.truncate.natAbs = x.wholePart := by
    unfold truncate signed
    split <;> omega
  refine eq_of_sign_magnitude ?_ ?_
  · rw [isNeg_ofInt]
    cases hs : x.isNeg with
    | false =>
      unfold truncate signed
      simp [hs]
    | true =>
      have hne : x.wholePart ≠ 0 := fun h => by
        have hmag := roundMagnitude_wholePart hw
        rw [h] at hmag
        exact hz (eq_of_sign_magnitude hs hmag.symm)
      unfold truncate signed
      simp [hs]
      omega
  · rw [magnitude_ofInt, habs, roundMagnitude_wholePart hw]

end TableQuery.Double
