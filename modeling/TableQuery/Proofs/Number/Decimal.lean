/-
The decimals that numbers are shown as. Each has at least one digit before its point, none of them a zero too
many, and behind a point at least one; and its digits have the value that was to be shown.
-/
import TableQuery.Number.Integer
import Mathlib.Data.List.Basic
import Mathlib.Data.Rat.Lemmas

namespace TableQuery.Double

/-! ## Digits -/

theorem natOfDigits_eq (ds : List Char) : natOfDigits ds = Nat.ofDigitChars 10 ds 0 := Nat.ofDigitChars_eq_foldl.symm

@[simp] theorem natOfDigits_digitsOf (n : Nat) : natOfDigits (digitsOf n) = n := by
  rw [natOfDigits_eq, digitsOf, Nat.ofDigitChars_ten_toDigits]

theorem natOfDigits_zeros_append (k : Nat) (ds : List Char) :
    natOfDigits (List.replicate k '0' ++ ds) = natOfDigits ds := by
  rw [natOfDigits_eq, natOfDigits_eq, Nat.ofDigitChars_append, Nat.ofDigitChars_replicate_zero, Nat.mul_zero]

theorem natOfDigits_append_zeros (ds : List Char) (k : Nat) :
    natOfDigits (ds ++ List.replicate k '0') = natOfDigits ds * Nat.pow 10 k := by
  rw [natOfDigits_eq, natOfDigits_eq, Nat.ofDigitChars_append, Nat.ofDigitChars_replicate_zero, Nat.mul_comm]
  rfl

/-- At least one digit, and nothing else. -/
def IsDigits (ds : List Char) : Prop := ds ≠ [] ∧ ∀ c ∈ ds, c.isDigit = true

/-- The digits before a point: only a lone zero begins with a zero. -/
def IsWhole (ds : List Char) : Prop := IsDigits ds ∧ (ds.head? = some '0' → ds = ['0'])

theorem isDigits_digitsOf (n : Nat) : IsDigits (digitsOf n) :=
  ⟨Nat.toDigits_ne_nil, fun _ hc => Nat.isDigit_of_mem_toDigits (by omega) (by omega) hc⟩

theorem isDigit_of_mem_zeros {k : Nat} : ∀ c ∈ List.replicate k '0', c.isDigit = true := by
  intro c hc
  rw [List.eq_of_mem_replicate hc]
  rfl

theorem isDigits_append_zeros {ds : List Char} (h : IsDigits ds) (k : Nat) : IsDigits (ds ++ List.replicate k '0') :=
  ⟨List.append_ne_nil_of_left_ne_nil h.1 _, List.forall_mem_append.2 ⟨h.2, isDigit_of_mem_zeros⟩⟩

theorem isDigits_zeros_append {ds : List Char} (h : IsDigits ds) (k : Nat) : IsDigits (List.replicate k '0' ++ ds) :=
  ⟨List.append_ne_nil_of_right_ne_nil _ h.1, List.forall_mem_append.2 ⟨isDigit_of_mem_zeros, h.2⟩⟩

theorem head?_digitsOf {n : Nat} (h : 0 < n) : (digitsOf n).head? ≠ some '0' := by
  induction n using Nat.strong_induction_on with
  | _ n ih =>
    rw [digitsOf, Nat.toDigits_eq_if (by omega)]
    split
    · intro h0
      have hn := Nat.digitChar_eq_zero.1 (Option.some_inj.1 h0)
      omega
    · rw [List.head?_append_of_ne_nil _ Nat.toDigits_ne_nil]
      exact ih (n / 10) (by omega) (by omega)

theorem isWhole_digitsOf (n : Nat) : IsWhole (digitsOf n) := by
  refine ⟨isDigits_digitsOf n, fun h => ?_⟩
  by_cases hn : n = 0
  · subst hn
    rfl
  · exact absurd h (head?_digitsOf (Nat.pos_of_ne_zero hn))

/-! ## Decimals -/

/-- The number `± n * 10 ^ p`. -/
def decimal (neg : Bool) (n : Nat) (p : Int) : Rat :=
  mkRat (signed neg (n * Nat.pow 10 p.toNat)) (Nat.pow 10 (-p).toNat)

variable {neg : Bool} {n : Nat} {p : Int}

theorem decimal_zero (neg : Bool) (n : Nat) : decimal neg n 0 = (signed neg n : Int) := by
  show mkRat (signed neg (n * 1)) 1 = _
  rw [Nat.mul_one, Rat.mkRat_one]

theorem decimal_of_nonneg (hp : 0 ≤ p) : decimal neg (n * Nat.pow 10 p.toNat) 0 = decimal neg n p := by
  rw [decimal, decimal, show (-p).toNat = (-0 : Int).toNat by omega]
  show mkRat (signed neg (n * Nat.pow 10 p.toNat * 1)) _ = _
  rw [Nat.mul_one]

theorem signed_mul (neg : Bool) (n m : Nat) : signed neg (n * m) = signed neg n * m := by
  cases neg with
  | false => exact Int.natCast_mul n m
  | true => exact (congrArg Neg.neg (Int.natCast_mul n m)).trans (Int.neg_mul _ _).symm

theorem decimal_mul_ten (hp : p < 0) : decimal neg (n * 10) p = decimal neg n (p + 1) := by
  obtain ⟨k, rfl⟩ : ∃ k : Nat, p = -(k + 1 : Nat) := ⟨(-p - 1).toNat, by omega⟩
  have hp1 : (-((k + 1 : Nat) : Int) + 1) = -(k : Int) := by omega
  rw [hp1, decimal, decimal]
  simp only [Int.neg_neg, Int.toNat_natCast, Int.toNat_neg_natCast]
  show mkRat (signed neg (n * 10 * 1)) (Nat.pow 10 k * 10) = mkRat (signed neg (n * 1)) (Nat.pow 10 k)
  rw [Nat.mul_one, Nat.mul_one, signed_mul]
  exact Rat.mkRat_mul_right (by decide)

/-- The sign of a negative number. -/
def signChars (neg : Bool) : List Char := if neg then ['-'] else []

/-- A sign, then digits, then perhaps a point and digits: a decimal without an exponent, and its value. -/
inductive Shows : List Char → Rat → Prop where
  | whole (neg : Bool) {ds : List Char} : IsWhole ds → Shows (signChars neg ++ ds) (decimal neg (natOfDigits ds) 0)
  | point (neg : Bool) {ds ps : List Char} : IsWhole ds → IsDigits ps →
      Shows (signChars neg ++ (ds ++ '.' :: ps)) (decimal neg (natOfDigits (ds ++ ps)) (-ps.length))

/-! ## Positional notation -/

/-- What stands before the point, of digits that zeros are put before when they are too few for one. -/
theorem isWhole_take {ds : List Char} (hds : IsDigits ds) (hhead : ds.head? ≠ some '0') {k w : Nat} (hw : 0 < w)
    (hk : 0 < k → w = 1) : IsWhole ((List.replicate k '0' ++ ds).take w) := by
  obtain ⟨hne, hdigits⟩ := isDigits_zeros_append hds k
  refine ⟨⟨?_, fun c hc => hdigits c (List.mem_of_mem_take hc)⟩, fun h => ?_⟩
  · rw [Ne, List.take_eq_nil_iff]
    rintro (h | h)
    · omega
    · exact hne h
  · -- without zeros put before them the digits begin with another one, with zeros there is one digit to take
    rw [List.head?_take, if_neg (by omega)] at h
    cases k with
    | zero => exact absurd h hhead
    | succ k =>
      rw [hk (Nat.succ_pos k)]
      rfl

/-- Zeros are put behind the digits, or a point among them with zeros before them. -/
theorem shows_positional (neg : Bool) (hn : 0 < n) (p : Int) :
    Shows (signChars neg ++ positional n p) (decimal neg n p) := by
  have hhead : (digitsOf n).head? ≠ some '0' := head?_digitsOf hn
  by_cases hp : 0 ≤ p
  · have hwhole : IsWhole (digitsOf n ++ List.replicate p.toNat '0') := by
      refine ⟨isDigits_append_zeros (isDigits_digitsOf n) _, fun h => ?_⟩
      rw [List.head?_append_of_ne_nil _ (isDigits_digitsOf n).1] at h
      exact absurd h hhead
    have hshows := Shows.whole neg hwhole
    rw [natOfDigits_append_zeros, natOfDigits_digitsOf, decimal_of_nonneg hp] at hshows
    rwa [positional, if_pos hp]
  · have hlen : 0 < (digitsOf n).length := List.length_pos_iff.2 (isDigits_digitsOf n).1
    rw [positional, if_neg hp]
    simp only
    generalize hk : (-p).toNat + 1 - (digitsOf n).length = k
    generalize hw : (List.replicate k '0' ++ digitsOf n).length - (-p).toNat = w
    rw [List.length_append, List.length_replicate] at hw
    have hds : IsWhole ((List.replicate k '0' ++ digitsOf n).take w) :=
      isWhole_take (isDigits_digitsOf n) hhead (by omega) (by omega)
    have hplaces : ((List.replicate k '0' ++ digitsOf n).drop w).length = (-p).toNat := by
      rw [List.length_drop, List.length_append, List.length_replicate]
      omega
    have hps : IsDigits ((List.replicate k '0' ++ digitsOf n).drop w) := by
      refine ⟨fun h => ?_, fun c hc => ?_⟩
      · rw [h, List.length_nil] at hplaces
        omega
      · exact (isDigits_zeros_append (isDigits_digitsOf n) k).2 c (List.mem_of_mem_drop hc)
    have hshows := Shows.point neg hds hps
    rwa [List.take_append_drop, hplaces, natOfDigits_zeros_append, natOfDigits_digitsOf,
      show -((-p).toNat : Int) = p by omega] at hshows

/-! ## The shortest digits -/

variable {x : Double}

/-- Zero is not in the interval of the reals that round to a positive number. -/
theorem pos_of_roundsTo (hx : 0 < x.mantissa) {c : Nat} (h : x.roundsTo c p = true) : 0 < c := by
  refine Nat.pos_of_ne_zero fun hc => ?_
  subst hc
  have hlow : compareScaled 0 p x.roundingInterval.1 (x.exponent - 2) = .lt := by
    have hpos : 0 < x.roundingInterval.1 := by
      -- four quarters of the last place at least, and half a place at most is taken off
      show 0 < 4 * x.mantissa - if _ then 1 else 2
      split <;> omega
    rw [compareScaled, Nat.zero_mul, Nat.zero_shiftLeft, Nat.compare_eq_lt, Nat.shiftLeft_eq]
    exact Nat.mul_pos (Nat.mul_pos hpos (Nat.two_pow_pos _)) (Nat.pow_pos (by decide))
  rw [roundsTo] at h
  simp [hlow] at h

theorem pos_of_onGrid? (hx : 0 < x.mantissa) {c : Nat} (h : x.onGrid? p = some c) : 0 < c := by
  rw [onGrid?] at h
  split at h
  · rename_i hc _
    rw [← Option.some_inj.1 h]
    split
    · exact pos_of_roundsTo hx hc
    · exact Nat.succ_pos _
  · rename_i hc _
    rw [← Option.some_inj.1 h]
    exact pos_of_roundsTo hx hc
  · rw [← Option.some_inj.1 h]
    exact Nat.succ_pos _
  · cases h

theorem searchGrids_pos (hx : 0 < x.mantissa) (p : Int) (fuel : Nat) : 0 < (x.searchGrids p fuel).1 := by
  induction fuel generalizing p with
  | zero => exact hx
  | succ fuel ih =>
    rw [searchGrids]
    split
    · rename_i hc
      exact pos_of_onGrid? hx hc
    · exact ih (p - 1)

/-- Dropping zeros behind the point keeps the value. -/
theorem stripZeros_value (neg : Bool) (hn : 0 < n) (p : Int) (fuel : Nat) :
    0 < (stripZeros n p fuel).1 ∧
      decimal neg (stripZeros n p fuel).1 (stripZeros n p fuel).2 = decimal neg n p := by
  induction fuel generalizing n p with
  | zero => exact ⟨hn, rfl⟩
  | succ fuel ih =>
    rw [stripZeros]
    split
    · rename_i h
      simp only [Bool.and_eq_true, decide_eq_true_eq, beq_iff_eq] at h
      have hn10 : n = n / 10 * 10 := by omega
      obtain ⟨hpos, hvalue⟩ := ih (by omega : 0 < n / 10) (p + 1)
      refine ⟨hpos, hvalue.trans ?_⟩
      conv_rhs => rw [hn10]
      exact (decimal_mul_ten h.1).symm
    · exact ⟨hn, rfl⟩

/-! ## Numbers -/

/-- The decimal that a finite number is shown as. -/
def shown (x : Double) : Rat :=
  if x.isWhole && x.wholePart < Nat.pow 10 15 then x.truncate
  else decimal x.isNeg x.shortest.1 x.shortest.2

theorem isWhole_of_mantissa (hx : x.isFinite = true) (h : x.mantissa = 0) :
    (x.isWhole && decide (x.wholePart < Nat.pow 10 15)) = true := by
  have hpart : x.wholePart = 0 := by rw [wholePart, h, Nat.zero_shiftLeft, Nat.zero_shiftRight]
  rw [isWhole, hx, h, hpart, Nat.zero_mod]
  decide

theorem shows_toChars (hx : x.isFinite = true) : Shows x.toChars x.shown := by
  have hmag : x.magnitude < infinityMagnitude := of_decide_eq_true hx
  have hnan : ¬x.isNaN = true := by rw [isNaN, decide_eq_true_iff]; omega
  have hinf : ¬x.isInfinite = true := by rw [isInfinite, decide_eq_true_iff]; omega
  rw [toChars, if_neg hnan]
  simp only
  rw [if_neg hinf, shown]
  by_cases hw : (x.isWhole && decide (x.wholePart < Nat.pow 10 15)) = true
  · rw [if_pos hw, if_pos hw]
    have hpoint : decimal x.isNeg (natOfDigits (digitsOf x.wholePart ++ ['0'])) (-1) = x.truncate := by
      rw [show ['0'] = List.replicate 1 '0' from rfl, natOfDigits_append_zeros, natOfDigits_digitsOf]
      exact (decimal_mul_ten (by decide)).trans (decimal_zero x.isNeg x.wholePart)
    rw [← hpoint, List.append_assoc]
    exact .point x.isNeg (isWhole_digitsOf x.wholePart) (isDigits_digitsOf 0)
  · rw [if_neg hw, if_neg hw]
    have hm : 0 < x.mantissa := Nat.pos_of_ne_zero fun h => hw (isWhole_of_mantissa hx h)
    have hshortest : 0 < x.shortest.1 := searchGrids_pos hm _ 17
    obtain ⟨hpos, hvalue⟩ := stripZeros_value x.isNeg hshortest x.shortest.2 17
    rw [← hvalue]
    exact shows_positional x.isNeg hpos _

theorem shows_digitsOf (neg : Bool) (n : Nat) : Shows (signChars neg ++ digitsOf n) (signed neg n) := by
  have hshows := Shows.whole neg (isWhole_digitsOf n)
  rwa [natOfDigits_digitsOf, decimal_zero] at hshows

theorem shows_toText (i : Int64) : Shows (Integer.toText i).toList i.toInt := by
  cases h : i.toInt with
  | ofNat n =>
    have htext : (Integer.toText i).toList = digitsOf n := by
      rw [Integer.toText, h]
      show (toString n).toList = digitsOf n
      rw [Nat.toString_eq_ofList_toDigits, String.toList_ofList]
      rfl
    rw [htext]
    exact shows_digitsOf false n
  | negSucc n =>
    have htext : (Integer.toText i).toList = '-' :: digitsOf (n + 1) := by
      rw [Integer.toText, h]
      show ("-" ++ toString (n + 1)).toList = _
      rw [Nat.toString_eq_ofList_toDigits, String.toList_append]
      exact congrArg ('-' :: ·) String.toList_ofList
    rw [htext]
    exact shows_digitsOf true (n + 1)

end TableQuery.Double
