/-
Arithmetic on integers. An operator gives its exact result where this is an integer, null where there is none,
and otherwise an error. It is the quotient, though, that decides about the remainder: the least integer has no quotient
by -1, and its remainder, which is zero, is reported as an overflow with it.
-/
import TableQuery.Scalar
import TableQuery.Proofs.Number.Integer

namespace TableQuery

open Integer (Fits)

/-! ## Specification -/

/-- The quotient is cut toward zero: the remainder is nearer to zero than the divisor and has the sign of the
dividend. -/
structure Divided (x y q r : Int) : Prop where
  sum : x = y * q + r
  small : r.natAbs < y.natAbs
  sign : r = 0 ∨ r.sign = x.sign

/-- A number is the exact result of an operator. -/
def ArithOp.Exact : ArithOp → Int → Int → Int → Prop
  | add, x, y, n => n = x + y
  | sub, x, y, n => n = x - y
  | mul, x, y, n => n = x * y
  | div, x, y, n => ∃ r, Divided x y n r
  | rem, x, y, n => ∃ q, Divided x y q n

/-- A result is the exact one, or says why it is not: it is undefined, or no integer is equal to it. -/
structure Reports (Exact : Int → Prop) (Undefined : Prop) (fault : ArgumentFault) (result : Except Error Value) :
    Prop where
  value : ∀ i : Int64, result = .ok (.int i) ↔ Exact i.toInt
  null : result = .ok .null ↔ Undefined
  overflow : result = .error (.invalidArgument fault) ↔ ∃ n, Exact n ∧ ¬Fits n

/-! ## Quotient and remainder -/

section

variable {x y q r : Int}

theorem Divided.ne_zero (h : Divided x y q r) : y ≠ 0 := by
  rintro rfl
  exact absurd h.small (by simp)

theorem divided_iff : Divided x y q r ↔ y ≠ 0 ∧ x.tdiv y = q ∧ x.tmod y = r := by
  constructor
  · intro h
    refine ⟨h.ne_zero, ?_⟩
    have hsum := h.sum
    have hsmall := h.small
    have hsign := h.sign
    rcases Int.le_total 0 x with hx | hx
    · have hr : 0 ≤ r := by
        rcases hsign with rfl | hsign
        · exact Int.le_refl 0
        · rwa [← Int.sign_nonneg_iff, hsign, Int.sign_nonneg_iff]
      exact (Int.tdiv_tmod_unique hx h.ne_zero).2 ⟨by omega, hr, by omega⟩
    · have hr : r ≤ 0 := by
        rcases hsign with rfl | hsign
        · exact Int.le_refl 0
        · rwa [← Int.sign_nonpos_iff, hsign, Int.sign_nonpos_iff]
      exact (Int.tdiv_tmod_unique' hx h.ne_zero).2 ⟨by omega, by omega, hr⟩
  · rintro ⟨hy, rfl, rfl⟩
    refine ⟨(Int.mul_tdiv_add_tmod x y).symm, ?_, ?_⟩
    · rw [Int.natAbs_tmod]
      exact Nat.mod_lt _ (Int.natAbs_pos.2 hy)
    · by_cases hdvd : y ∣ x
      · exact .inl (Int.tmod_eq_zero_of_dvd hdvd)
      · right
        rw [Int.sign_tmod, if_neg hdvd]

/-- Only the least integer has a quotient that is not an integer, by -1. -/
theorem Divided.fits_quotient_iff (h : Divided x y q r) (hx : Fits x) :
    Fits q ↔ ¬(x = Int64.minValue.toInt ∧ y = -1) := by
  have hsum := h.sum
  have hsmall := h.small
  rw [Int64.toInt_minValue]
  rw [Integer.fits_iff] at hx ⊢
  constructor
  · rintro hq ⟨rfl, rfl⟩
    omega
  · intro hne
    have hle : q.natAbs ≤ x.natAbs := by
      obtain ⟨-, rfl, -⟩ := divided_iff.1 h
      exact Int.natAbs_tdiv_le_natAbs x y
    -- the one number above the integers that is not farther from zero than the least of them
    by_cases hq : q = 9223372036854775808
    · subst hq
      omega
    · omega

end

/-! ## Reports -/

section

variable {Exact : Int → Prop} {Undefined : Prop} {fault : ArgumentFault} {result : Except Error Value} {n : Int}

theorem reports_of_eq (he : ∀ m, Exact m ↔ m = n) (hu : ¬Undefined)
    (hfits : Fits n → result = .ok (.int (Int64.ofInt n)))
    (hover : ¬Fits n → result = .error (.invalidArgument fault)) : Reports Exact Undefined fault result := by
  by_cases hn : Fits n
  · rw [hfits hn]
    refine ⟨?_, iff_of_false nofun hu, iff_of_false nofun ?_⟩
    · intro i
      rw [he, Except.ok.injEq, Value.int.injEq, ← Int64.toInt_inj, Integer.toInt_ofInt hn]
      exact eq_comm
    · rintro ⟨m, hm, hnot⟩
      rw [(he m).1 hm] at hnot
      exact hnot hn
  · rw [hover hn]
    refine ⟨?_, iff_of_false nofun hu, iff_of_true rfl ⟨n, (he n).2 rfl, hn⟩⟩
    intro i
    refine iff_of_false nofun fun hi => hn ?_
    rw [← (he _).1 hi]
    exact Integer.fits_toInt i

theorem reports_null (he : ∀ n, ¬Exact n) (hu : Undefined) : Reports Exact Undefined fault (.ok .null) where
  value i := iff_of_false nofun (he _)
  null := iff_of_true rfl hu
  overflow := by
    refine iff_of_false nofun ?_
    rintro ⟨n, hn, -⟩
    exact he n hn

end

/-! ## Operators -/

/-- The exact result of an operator, where it has one. -/
def ArithOp.exact : ArithOp → Int → Int → Int
  | add, x, y => x + y
  | sub, x, y => x - y
  | mul, x, y => x * y
  | div, x, y => x.tdiv y
  | rem, x, y => x.tmod y

section

variable {op : ArithOp} {x y n : Int} {a b : Int64}

theorem ArithOp.divides_iff : op.divides = true ↔ op = .div ∨ op = .rem := by
  cases op <;> simp [divides]

theorem ArithOp.exact_iff : op.Exact x y n ↔ ¬((op = .div ∨ op = .rem) ∧ y = 0) ∧ op.exact x y = n := by
  cases op <;> simp [Exact, exact, divided_iff, eq_comm]

/-- Operators are exact on integers, and refuse a remainder only where its quotient is no integer. -/
theorem ArithOp.onInt_eq (hz : ¬((op = .div ∨ op = .rem) ∧ b = 0))
    (hq : ¬(op = .rem ∧ a = Int64.minValue ∧ b = -1)) :
    op.onInt a b = Integer.ofInt? (op.exact a.toInt b.toInt) := by
  cases op with
  | rem =>
    have hb : b.toInt ≠ 0 := by simpa [Integer.toInt_eq_zero_iff] using hz
    have hd : Divided a.toInt b.toInt _ _ := divided_iff.2 ⟨hb, rfl, rfl⟩
    have hfits : Fits (a.toInt.tdiv b.toInt) := by
      rw [hd.fits_quotient_iff (Integer.fits_toInt a)]
      rintro ⟨ha, hone⟩
      exact hq ⟨rfl, Int64.toInt_inj.1 ha, Int64.toInt_inj.1 hone⟩
    rw [onInt, Integer.ofInt?_of_fits hfits]
    rfl
  | _ => rfl

namespace Value

theorem arith_by_zero (hz : (op = .div ∨ op = .rem) ∧ b = 0) : (int a).arith op (int b) = .ok null := by
  simp [arith, isZero, toDouble?, ArithOp.divides_iff, hz]

theorem arith_of_some (hz : ¬((op = .div ∨ op = .rem) ∧ b = 0)) {r : Int64} (h : op.onInt a b = some r) :
    (int a).arith op (int b) = .ok (int r) := by
  simp [arith, isZero, toDouble?, ArithOp.divides_iff, hz, h]

theorem arith_of_none (hz : ¬((op = .div ∨ op = .rem) ∧ b = 0)) (h : op.onInt a b = none) :
    (int a).arith op (int b) = .error (.invalidArgument (.overflow op a b)) := by
  simp [arith, isZero, toDouble?, ArithOp.divides_iff, hz, h]

theorem arith_reports (hq : ¬(op = .rem ∧ a = Int64.minValue ∧ b = -1)) :
    Reports (op.Exact a.toInt b.toInt) ((op = .div ∨ op = .rem) ∧ b = 0) (.overflow op a b)
      ((int a).arith op (int b)) := by
  by_cases hz : (op = .div ∨ op = .rem) ∧ b = 0
  · rw [arith_by_zero hz]
    refine reports_null ?_ hz
    intro n hn
    refine (ArithOp.exact_iff.1 hn).1 ⟨hz.1, ?_⟩
    exact Integer.toInt_eq_zero_iff.2 hz.2
  · have hint := ArithOp.onInt_eq hz hq
    refine reports_of_eq (n := op.exact a.toInt b.toInt) ?_ hz (fun hn => ?_) (fun hn => ?_)
    · intro m
      rw [ArithOp.exact_iff, Integer.toInt_eq_zero_iff, and_iff_right hz]
      exact eq_comm
    · exact arith_of_some hz (hint.trans (Integer.ofInt?_of_fits hn))
    · exact arith_of_none hz (hint.trans (Integer.ofInt?_eq_none_iff.2 hn))

theorem arith_rem_minValue :
    (int Int64.minValue).arith .rem (int (-1)) = .error (.invalidArgument (.overflow .rem Int64.minValue (-1))) := by
  rfl

theorem neg_reports (a : Int64) : Reports (· = -a.toInt) False (.overflowNeg a) (int a).neg := by
  refine reports_of_eq (fun m => Iff.rfl) not_false (fun hn => ?_) (fun hn => ?_)
  · rw [neg, Integer.ofInt?_of_fits hn]
  · rw [neg, Integer.ofInt?_eq_none_iff.2 hn]

end Value

end

namespace Scalar

theorem applyAbs_reports (a : Int64) :
    Reports (· = (a.toInt.natAbs : Int)) False (.overflowAbs a) (applyAbs (.int a)) := by
  refine reports_of_eq (fun m => Iff.rfl) not_false (fun hn => ?_) (fun hn => ?_)
  · rw [applyAbs, Integer.ofInt?_of_fits hn]
  · rw [applyAbs, Integer.ofInt?_eq_none_iff.2 hn]

/-- The remainder of the least integer by -1 is zero, and no report of an overflow is right. -/
theorem not_reports_rem {Undefined : Prop} :
    ¬Reports (ArithOp.rem.Exact Int64.minValue.toInt (-1 : Int64).toInt) Undefined (.overflow .rem Int64.minValue (-1))
      (apply (.arith .rem) [.int Int64.minValue, .int (-1)]) := by
  intro h
  have hzero : ArithOp.rem.Exact Int64.minValue.toInt (-1 : Int64).toInt (0 : Int64).toInt := by
    rw [ArithOp.exact_iff]
    decide
  cases Value.arith_rem_minValue.symm.trans ((h.value 0).2 hzero)

/-- Operators, minus and `abs` on integers are exact or report why they are not, except for one remainder, which is
always refused. -/
theorem integer_arithmetic_iff (op : ArithOp) (a b : Int64) :
    (Reports (op.Exact a.toInt b.toInt) ((op = .div ∨ op = .rem) ∧ b = 0) (.overflow op a b)
      (apply (.arith op) [.int a, .int b]) ↔ ¬(op = .rem ∧ a = Int64.minValue ∧ b = -1)) ∧
      (op = .rem ∧ a = Int64.minValue ∧ b = -1 →
        apply (.arith op) [.int a, .int b] = .error (.invalidArgument (.overflow op a b))) ∧
      Reports (· = -a.toInt) False (.overflowNeg a) (apply neg [.int a]) ∧
      Reports (· = (a.toInt.natAbs : Int)) False (.overflowAbs a) (apply abs [.int a]) := by
  refine ⟨?_, ?_, Value.neg_reports a, applyAbs_reports a⟩
  · constructor
    · rintro h ⟨rfl, rfl, rfl⟩
      exact not_reports_rem h
    · exact Value.arith_reports
  · rintro ⟨rfl, rfl, rfl⟩
    exact Value.arith_rem_minValue

/-- Not every operator is exact on all integers, or reports why it is not: -9223372036854775808 % -1 is an error. -/
theorem not_integer_arithmetic :
    ¬∀ (op : ArithOp) (a b : Int64),
      Reports (op.Exact a.toInt b.toInt) ((op = .div ∨ op = .rem) ∧ b = 0) (.overflow op a b)
        (apply (.arith op) [.int a, .int b]) := by
  intro h
  exact not_reports_rem (h .rem Int64.minValue (-1))

end Scalar

end TableQuery
