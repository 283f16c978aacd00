/-
Conversion to integers. A value other than null means at most one whole number: a finite float what is left of its
exact value without the fraction, and a text the number that it spells in decimal digits. The conversion gives
this number where it is an integer of 64 bits and otherwise an error, except for floats: a finite one beyond
the integers becomes the greatest or the least of them.
-/
import TableQuery.Scalar
import TableQuery.Proofs.Number.Decimal
import TableQuery.Proofs.Number.Integer

namespace TableQuery

open Integer (Fits)

/-! ## Whole numbers -/

/-- A number without its fraction, cut toward zero. -/
def cutToWhole (q : Rat) : Int := if q < 0 then q.ceil else q.floor

theorem floor_mkRat (n : Int) {d : Nat} (hd : d ≠ 0) : (mkRat n d).floor = n / d := by
  have hg : 0 < d.gcd n.natAbs := Nat.gcd_pos_of_pos_left _ (Nat.pos_of_ne_zero hd)
  obtain ⟨d', hd'⟩ := Nat.gcd_dvd_left d n.natAbs
  obtain ⟨n', hn'⟩ : ((d.gcd n.natAbs : Nat) : Int) ∣ n := Int.natCast_dvd.2 (Nat.gcd_dvd_right d n.natAbs)
  rw [Rat.floor_def, Rat.num_mkRat, Rat.den_mkRat, if_neg hd, if_neg hd]
  generalize d.gcd n.natAbs = g at *
  subst hd' hn'
  rw [Nat.mul_div_cancel_left _ hg, Int.mul_ediv_cancel_left _ (by omega), Int.natCast_mul,
    Int.mul_ediv_mul_of_pos _ _ (by omega)]

theorem cutToWhole_mkRat (n : Int) {d : Nat} (hd : d ≠ 0) : cutToWhole (mkRat n d) = n.tdiv d := by
  have hneg : mkRat n d < 0 ↔ n < 0 := by
    have hfloor : (mkRat n d).floor < 0 ↔ mkRat n d < 0 := Rat.floor_lt_iff
    have hd' : (0 : Int) < d := Int.natCast_pos.2 (Nat.pos_of_ne_zero hd)
    rw [← hfloor, floor_mkRat n hd, ← Int.not_le, Int.ediv_nonneg_iff_of_pos hd', Int.not_le]
  unfold cutToWhole
  split
  · rename_i h
    rw [Rat.ceil_eq_neg_floor_neg, Rat.neg_mkRat, floor_mkRat _ hd]
    have hn := hneg.1 h
    rw [← Int.tdiv_eq_ediv_of_nonneg (by omega), Int.neg_tdiv, Int.neg_neg]
  · rename_i h
    rw [floor_mkRat _ hd, Int.tdiv_eq_ediv_of_nonneg (by rw [hneg] at h; omega)]

namespace Double

/-- The number that a finite double is. -/
def value (x : Double) : Rat :=
  mkRat (signed x.isNeg (x.mantissa <<< x.exponent.toNat)) (1 <<< (-x.exponent).toNat)

theorem truncate_eq (x : Double) : x.truncate = cutToWhole x.value := by
  have hpos : (1 <<< (-x.exponent).toNat) ≠ 0 := by
    rw [Nat.one_shiftLeft]
    exact Nat.ne_of_gt (Nat.two_pow_pos _)
  rw [value, cutToWhole_mkRat _ hpos, truncate, wholePart, Nat.shiftRight_eq_div_pow, ← Nat.one_shiftLeft]
  cases x.isNeg with
  | false => exact Int.ofNat_tdiv _ _
  | true => exact (congrArg Neg.neg (Int.ofNat_tdiv _ _)).trans (Int.neg_tdiv _ _).symm

end Double

/-! ## Decimal texts -/

/-- A text is an optional sign and at least one digit, and this is the number that it spells. -/
inductive Spells : List Char → Int → Prop where
  | plain {ds : List Char} : Double.IsDigits ds → Spells ds (Nat.ofDigitChars 10 ds 0)
  | plus {ds : List Char} : Double.IsDigits ds → Spells ('+' :: ds) (Nat.ofDigitChars 10 ds 0)
  | minus {ds : List Char} : Double.IsDigits ds → Spells ('-' :: ds) (-Nat.ofDigitChars 10 ds 0)

namespace Integer

open Double (splitSign signed natOfDigits IsDigits)

theorem splitSign_digits {ds : List Char} (h : IsDigits ds) : splitSign ds = (false, ds) := by
  unfold splitSign
  split
  · exact absurd (h.2 '-' (List.mem_cons_self ..)) (by decide)
  · exact absurd (h.2 '+' (List.mem_cons_self ..)) (by decide)
  · rfl

/-- A text spells at most one number. -/
theorem spells_iff {cs : List Char} {n : Int} :
    Spells cs n ↔ IsDigits (splitSign cs).2 ∧ n = signed (splitSign cs).1 (natOfDigits (splitSign cs).2) := by
  constructor
  · intro h
    cases h with
    | plain hds =>
      rw [splitSign_digits hds]
      exact ⟨hds, by rw [Double.natOfDigits_eq]; rfl⟩
    | plus hds => exact ⟨hds, by rw [Double.natOfDigits_eq]; rfl⟩
    | minus hds => exact ⟨hds, by rw [Double.natOfDigits_eq]; rfl⟩
  · rintro ⟨hds, rfl⟩
    rw [Double.natOfDigits_eq]
    revert hds
    unfold splitSign
    split
    · exact .minus
    · exact .plus
    · exact .plain

theorem ofChars?_eq (cs : List Char) :
    ofChars? cs = if (splitSign cs).2.isEmpty || !(splitSign cs).2.all Char.isDigit then none
      else ofInt? (signed (splitSign cs).1 (natOfDigits (splitSign cs).2)) := rfl

theorem ofChars?_of_spells {cs : List Char} {n : Int} (h : Spells cs n) : ofChars? cs = ofInt? n := by
  obtain ⟨⟨hne, hdigits⟩, rfl⟩ := spells_iff.1 h
  rw [ofChars?_eq, if_neg]
  simpa [hne] using hdigits

theorem ofChars?_of_not_spells {cs : List Char} (h : ∀ n, ¬Spells cs n) : ofChars? cs = none := by
  rw [ofChars?_eq, if_pos]
  by_contra hdigits
  rw [Bool.not_eq_true, Bool.or_eq_false_iff, Bool.not_eq_false', List.isEmpty_eq_false_iff, List.all_eq_true] at hdigits
  exact h _ (spells_iff.2 ⟨hdigits, rfl⟩)

theorem Spells.unique {cs : List Char} {n m : Int} (hn : Spells cs n) (hm : Spells cs m) : n = m :=
  (spells_iff.1 hn).2.trans (spells_iff.1 hm).2.symm

end Integer

/-! ## Meanings -/

/-- A value means a whole number: a truth value one or zero, an integer itself, a finite float what is left of it
without the fraction, and a text what it spells without the white space at its ends. -/
inductive Value.Means : Value → Int → Prop where
  | bool (b : Bool) : Means (.bool b) (if b then 1 else 0)
  | int (i : Int64) : Means (.int i) i.toInt
  | float (x : Double) : x.isFinite = true → Means (.float x) (cutToWhole x.value)
  | text (s : String) {n : Int} : Spells (Text.trim s).toList n → Means (.text s) n

open Value (Means)

/-- What a conversion to integers promises: it gives an integer exactly where the value means this number, null for
null, and an error for any other value that means no integer. -/
structure Converts (v : Value) (result : Except Error Value) : Prop where
  int : ∀ i : Int64, result = .ok (.int i) ↔ Means v i.toInt
  null : result = .ok .null ↔ v = .null
  fault : (∃ fault, result = .error (.invalidArgument fault)) ↔ v ≠ .null ∧ ∀ n, Means v n → ¬Fits n

namespace Converts

variable {v : Value} {n : Int} {fault : ArgumentFault}

theorem of_null : Converts .null (.ok .null) where
  int _ := iff_of_false nofun nofun
  null := iff_of_true rfl rfl
  fault := iff_of_false nofun fun h => h.1 rfl

theorem of_means (hm : ∀ m, Means v m ↔ m = n) (hv : v ≠ .null) (h : Fits n) :
    Converts v (.ok (.int (Int64.ofInt n))) where
  int i := by
    rw [hm, Except.ok.injEq, Value.int.injEq, ← Int64.toInt_inj, Integer.toInt_ofInt h]
    exact eq_comm
  null := iff_of_false nofun hv
  fault := iff_of_false nofun fun hno => hno.2 n ((hm n).2 rfl) h

theorem of_not_fits (hm : ∀ m, Means v m → ¬Fits m) (hv : v ≠ .null) :
    Converts v (.error (.invalidArgument fault)) where
  int i := iff_of_false nofun fun hi => hm _ hi (Integer.fits_toInt i)
  null := iff_of_false nofun hv
  fault := iff_of_true ⟨fault, rfl⟩ ⟨hv, hm⟩

end Converts

/-! ## Conversions -/

namespace Scalar

theorem means_float_iff {x : Double} {n : Int} :
    Means (.float x) n ↔ x.isFinite = true ∧ n = cutToWhole x.value := by
  constructor
  · rintro ⟨⟩
    exact ⟨‹_›, rfl⟩
  · rintro ⟨hx, rfl⟩
    exact .float x hx

theorem means_text_iff {s : String} {n : Int} : Means (.text s) n ↔ Spells (Text.trim s).toList n := by
  constructor
  · rintro ⟨⟩
    assumption
  · exact .text s

theorem applyToInt_float {x : Double} (hx : x.isFinite = true) :
    applyToInt (.float x) = .ok (.int (clampInt (cutToWhole x.value))) := by
  rw [applyToInt, if_pos hx, Double.truncate_eq]

theorem clampInt_of_fits {n : Int} (h : Fits n) : clampInt n = Int64.ofInt n := by
  rw [clampInt, Int.min_eq_left h.2, Int.max_eq_right h.1]

/-- What is not an integer of 64 bits becomes the one of them that is nearest. -/
theorem clampInt_of_not_fits {n : Int} (h : ¬Fits n) :
    clampInt n = if n < 0 then Int64.minValue else Int64.maxValue := by
  have hleast : Int64.minValue.toInt < 0 := by decide
  have hgreatest : 0 < Int64.maxValue.toInt := by decide
  have hout : n < Int64.minValue.toInt ∨ Int64.maxValue.toInt < n := by
    unfold Fits at h
    omega
  rw [clampInt]
  rcases hout with hlow | hhigh
  · rw [if_pos (by omega), Int.max_eq_left (by omega), Int64.ofInt_toInt]
  · rw [if_neg (by omega), Int.min_eq_right (by omega), Int.max_eq_right (by omega), Int64.ofInt_toInt]

theorem converts_bool (b : Bool) : Converts (.bool b) (applyToInt (.bool b)) := by
  have hm : ∀ m, Means (.bool b) m ↔ m = if b then 1 else 0 := fun m =>
    ⟨fun h => by cases h; rfl, fun h => h ▸ .bool b⟩
  have hconv := Converts.of_means hm nofun (by cases b <;> decide)
  cases b <;> exact hconv

theorem converts_int (i : Int64) : Converts (.int i) (applyToInt (.int i)) := by
  have hm : ∀ m, Means (.int i) m ↔ m = i.toInt := fun m => ⟨fun h => by cases h; rfl, fun h => h ▸ .int i⟩
  have hconv := Converts.of_means hm nofun (Integer.fits_toInt i)
  rwa [Int64.ofInt_toInt] at hconv

theorem converts_text (s : String) : Converts (.text s) (applyToInt (.text s)) := by
  rw [applyToInt]
  by_cases h : ∃ n, Spells (Text.trim s).toList n
  · obtain ⟨n, hn⟩ := h
    have hm : ∀ m, Means (.text s) m ↔ m = n := fun m =>
      means_text_iff.trans ⟨fun hm => Integer.Spells.unique hm hn, fun hm => hm ▸ hn⟩
    rw [Integer.ofText?, Integer.ofChars?_of_spells hn]
    by_cases hfits : Fits n
    · rw [Integer.ofInt?_of_fits hfits]
      exact .of_means hm nofun hfits
    · rw [Integer.ofInt?_eq_none_iff.2 hfits]
      exact .of_not_fits (fun m hmeans => (hm m).1 hmeans ▸ hfits) nofun
  · have hno : ∀ n, ¬Spells (Text.trim s).toList n := fun n hn => h ⟨n, hn⟩
    rw [Integer.ofText?, Integer.ofChars?_of_not_spells hno]
    exact .of_not_fits (fun m hm => absurd (means_text_iff.1 hm) (hno m)) nofun

theorem converts_float_iff (x : Double) :
    Converts (.float x) (applyToInt (.float x)) ↔ (x.isFinite = true → Fits (cutToWhole x.value)) := by
  by_cases hx : x.isFinite = true
  · have hm : ∀ m, Means (.float x) m ↔ m = cutToWhole x.value := fun m =>
      means_float_iff.trans (and_iff_right hx)
    rw [applyToInt_float hx]
    constructor
    · intro h _
      by_contra hfits
      -- the nearest integer is not the number meant, as that is none
      have hmeans := (h.int _).1 rfl
      rw [hm] at hmeans
      exact hfits (hmeans ▸ Integer.fits_toInt _)
    · intro h
      rw [clampInt_of_fits (h hx)]
      exact .of_means hm nofun (h hx)
  · refine iff_of_true ?_ (absurd · hx)
    rw [applyToInt, if_neg hx]
    exact .of_not_fits (fun m hm => absurd (means_float_iff.1 hm).1 hx) nofun

/-- A conversion to integers gives the number that the value means or says that it means no integer, except for a finite
float beyond the integers, which becomes the greatest or the least integer, on its side of zero. -/
theorem toInt_converts_iff (v : Value) :
    (Converts v (apply .toInt [v]) ↔ ∀ x, v = .float x → x.isFinite = true → Fits (cutToWhole x.value)) ∧
      ∀ x, v = .float x → x.isFinite = true → ¬Fits (cutToWhole x.value) →
        apply .toInt [v] = .ok (.int (if cutToWhole x.value < 0 then Int64.minValue else Int64.maxValue)) := by
  constructor
  · cases v with
    | null => exact iff_of_true .of_null nofun
    | bool b => exact iff_of_true (converts_bool b) nofun
    | int i => exact iff_of_true (converts_int i) nofun
    | float x =>
      refine (converts_float_iff x).trans ⟨fun h y hy => ?_, fun h => h x rfl⟩
      cases hy
      exact h
    | text s => exact iff_of_true (converts_text s) nofun
  · rintro x rfl hx hfits
    exact (applyToInt_float hx).trans (by rw [clampInt_of_not_fits hfits])

/-- The least integer is a float; the float next to the greatest one is not an integer any more. -/
theorem toInt_converts_limits :
    Fits (cutToWhole (Double.ofInt (-9223372036854775808)).value) ∧
      Converts (.float (.ofInt (-9223372036854775808))) (apply .toInt [.float (.ofInt (-9223372036854775808))]) ∧
      (Double.ofInt 9223372036854775808).isFinite = true ∧
      ¬Fits (cutToWhole (Double.ofInt 9223372036854775808).value) ∧
      apply .toInt [.float (.ofInt 9223372036854775808)] = .ok (.int Int64.maxValue) := by
  have hleast : Fits (cutToWhole (Double.ofInt (-9223372036854775808)).value) := by decide +kernel
  have hfinite : (Double.ofInt 9223372036854775808).isFinite = true := by decide +kernel
  have hbeyond : ¬Fits (cutToWhole (Double.ofInt 9223372036854775808).value) := by decide +kernel
  refine ⟨hleast, (toInt_converts_iff _).1.2 ?_, hfinite, hbeyond, ?_⟩
  · rintro x hx -
    cases hx
    exact hleast
  · rw [(toInt_converts_iff _).2 _ rfl hfinite hbeyond, if_neg (by decide +kernel)]

/-- It becomes the greatest integer, which it does not mean. -/
theorem not_toInt_converts : ¬∀ v : Value, Converts v (apply .toInt [v]) := by
  intro h
  have hfloat := (converts_float_iff (Double.ofInt 9223372036854775808)).1 (h _)
  exact absurd (hfloat (by decide +kernel)) (by decide +kernel)

end Scalar

end TableQuery
