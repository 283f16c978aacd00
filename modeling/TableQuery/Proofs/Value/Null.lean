/-
Null among the arguments of a function. The operators besides logic, and the functions of numbers, texts and
conversions, are strict: where an argument is null they give null, before the other arguments are tested for their kind
or range. Only `round` reads its second argument first. So a null in the place of the precision, or a precision out of
range, is an error there, even if there is nothing to round.
-/
import TableQuery.Function
import TableQuery.Proofs.Except

namespace TableQuery

/-! ## Operators -/

namespace Value

theorem arith_null_left (op : ArithOp) (b : Value) : arith op .null b = .ok .null := by
  rw [arith]
  split <;> rfl

theorem arith_null_right (op : ArithOp) (a : Value) : arith op a .null = .ok .null := by
  have hzero : (op.divides && isZero .null && a.toDouble?.isSome) = false := by
    rw [show isZero .null = false from rfl, Bool.and_false, Bool.false_and]
  unfold arith
  rw [if_neg (Bool.eq_false_iff.1 hzero)]
  cases a <;> rfl

end Value

namespace Scalar

theorem applyRelation_null_right (r : Relation) (a : Value) : applyRelation r a .null = .ok .null := by
  rw [applyRelation, show Value.isNull .null = true from rfl, Bool.or_true, if_pos rfl]

theorem applyJoin_null_right (a : Value) : applyJoin a .null = .null := by
  rw [applyJoin, show Value.isNull .null = true from rfl, Bool.or_true, if_pos rfl]

theorem applyLike_null_right (a : Value) : applyLike a .null = .ok .null := by
  cases a <;> rfl

/-! ## Strict functions -/

/-- The functions that are to give null wherever an argument is null. -/
def isStrict : Scalar → Bool
  | and | or | isNull | concat | coalesce | nullIf => false
  | _ => true

example : (Function.scalars.filter isStrict).map name = ["+", "-", "*", "/", "%", "neg", "=", "!=", "<", "<=", ">", ">=",
    "not", "||", "like", "abs", "round", "floor", "ceil", "sqrt", "lower", "upper", "trim", "length", "to_int",
    "to_float", "to_text"] := by decide

/-- The kinds of value that a function expects at a place of its arguments. -/
def expects : Scalar → Nat → Kind → Bool
  | round, 1, k => k = .int
  | abs, _, k | round, _, k | floor, _, k | ceil, _, k | sqrt, _, k => k = .int || k = .float
  | lower, _, k | upper, _, k | trim, _, k | length, _, k => k = .text
  | _, _, _ => true

/-- As many arguments as a function takes, null among them, and the others of the kinds that are expected. -/
structure NullAmong (op : Scalar) (args : List Value) : Prop where
  arity : op.arity.accepts args.length = true
  mem : .null ∈ args
  kinds : ∀ p ∈ args.zipIdx, p.1 = .null ∨ op.expects p.2 p.1.kind = true

instance (op : Scalar) (args : List Value) : Decidable (NullAmong op args) :=
  decidable_of_iff (_ ∧ _ ∧ _) ⟨fun ⟨harity, hmem, hkinds⟩ => ⟨harity, hmem, hkinds⟩, fun h => ⟨h.arity, h.mem, h.kinds⟩⟩

/-- An integer of 32 bits. -/
def IsPrecision (n : Int64) : Prop := Int32.minValue.toInt ≤ n.toInt ∧ n.toInt ≤ Int32.maxValue.toInt

instance (n : Int64) : Decidable (IsPrecision n) := inferInstanceAs (Decidable (_ ∧ _))

/-- A precision is given, and it is null or out of range. -/
def PrecisionRefused (args : List Value) : Prop :=
  args[1]? = some .null ∨ ∃ n, args[1]? = some (.int n) ∧ ¬IsPrecision n

variable {op : Scalar} {args : List Value}

theorem length_of_arity {k : Nat} (harity : op.arity = .exactly k) (h : op.arity.accepts args.length = true) :
    args.length = k := by
  rw [harity] at h
  exact eq_of_beq h

theorem apply_null_one (hs : op.isStrict = true) (harity : op.arity = .exactly 1) : op.apply [.null] = .ok .null := by
  cases op with
  | and | or | isNull | concat | coalesce | nullIf => cases hs
  | arith _ | relation _ | join | like | round => cases harity
  | _ => rfl

theorem apply_null_two {a b : Value} (hs : op.isStrict = true) (harity : op.arity = .exactly 2)
    (h : .null ∈ [a, b]) : op.apply [a, b] = .ok .null := by
  have h : a = .null ∨ b = .null := by simpa [eq_comm] using h
  cases op with
  | arith o =>
    rcases h with rfl | rfl
    · exact Value.arith_null_left o b
    · exact Value.arith_null_right o a
  | relation r =>
    rcases h with rfl | rfl
    · rfl
    · exact applyRelation_null_right r a
  | join =>
    rcases h with rfl | rfl
    · rfl
    · exact congrArg Except.ok (applyJoin_null_right a)
  | like =>
    rcases h with rfl | rfl
    · rfl
    · exact applyLike_null_right a
  | and | or | nullIf => cases hs
  | _ => cases harity

/-- A strict function that does not round gives null, whatever the other argument is. -/
theorem apply_null_of_ne_round (hs : op.isStrict = true) (hr : op ≠ .round)
    (h : op.arity.accepts args.length = true) (hn : .null ∈ args) : op.apply args = .ok .null := by
  have harity : op.arity = .exactly 1 ∨ op.arity = .exactly 2 := by
    cases op with
    | and | or | isNull | concat | coalesce | nullIf => cases hs
    | arith _ | relation _ | join | like => exact .inr rfl
    | round => exact absurd rfl hr
    | _ => exact .inl rfl
  rcases harity with harity | harity
  · obtain ⟨a, rfl⟩ := List.length_eq_one_iff.1 (length_of_arity harity h)
    rw [← List.mem_singleton.1 hn]
    exact apply_null_one hs harity
  · obtain ⟨a, b, rfl⟩ := List.length_eq_two.1 (length_of_arity harity h)
    exact apply_null_two hs harity hn

/-! ## Rounding -/

theorem round_of_precision {digits : List Value} {d : Int} (h : precision digits = .ok d) :
    apply .round (.null :: digits) = .ok .null := by
  rw [apply, h]
  rfl

theorem round_null_precision (a : Value) (r : List Value) :
    apply .round (a :: .null :: r) = .error (.typeMismatch (.precision .null)) := rfl

theorem round_precision_range (a : Value) {n : Int64} (r : List Value) (hn : ¬IsPrecision n) :
    apply .round (a :: .int n :: r) = .error (.invalidArgument (.precisionRange n)) := by
  have hrange : precision (.int n :: r) = .error (.invalidArgument (.precisionRange n)) := if_neg hn
  rw [apply, hrange]
  rfl

/-- The arguments of `round` with a null among them: nothing to round, or no precision. -/
theorem NullAmong.round_cases (h : NullAmong .round args) :
    args = [.null] ∨ (∃ a, args = [a, .null]) ∨ ∃ n, args = [.null, .int n] := by
  have harity := h.arity
  match args, h with
  | [a], h => exact .inl (by rw [← List.mem_singleton.1 h.mem])
  | [a, b], h =>
    rcases h.kinds (b, 1) (by simp) with rfl | hb
    · exact .inr (.inl ⟨a, rfl⟩)
    · cases b with
      | int n =>
        have ha : a = .null := by simpa [eq_comm] using h.mem
        exact .inr (.inr ⟨n, by rw [ha]⟩)
      | _ => cases hb
  | [], h => cases harity
  | _ :: _ :: _ :: r, h => simp [Scalar.arity, Arity.accepts] at harity

theorem round_null (h : NullAmong .round args) (hp : ¬PrecisionRefused args) : apply .round args = .ok .null := by
  rcases h.round_cases with rfl | ⟨a, rfl⟩ | ⟨n, rfl⟩
  · exact round_of_precision rfl
  · exact absurd (.inl rfl) hp
  · have hn : IsPrecision n := by
      by_contra hn
      exact hp (.inr ⟨n, rfl, hn⟩)
    exact round_of_precision (if_pos hn)

theorem round_refused (hp : PrecisionRefused args) : apply .round args ≠ .ok .null := by
  match args, hp with
  | [], hp => simp [PrecisionRefused] at hp
  | [a], hp => simp [PrecisionRefused] at hp
  | a :: b :: r, hp =>
    rcases hp with hb | ⟨n, hb, hn⟩
    · cases hb
      rw [round_null_precision]
      exact fun h => by cases h
    · cases hb
      rw [round_precision_range a r hn]
      exact fun h => by cases h

/-! ## Calls with null -/

theorem apply_null (hs : op.isStrict = true) (h : NullAmong op args) (hp : ¬(op = .round ∧ PrecisionRefused args)) :
    op.apply args = .ok .null := by
  by_cases hr : op = .round
  · subst hr
    exact round_null h fun hp' => hp ⟨rfl, hp'⟩
  · exact apply_null_of_ne_round hs hr h.arity h.mem

/-- The other functions are not strict: each has a value where an argument is null. -/
theorem isStrict_iff : op.isStrict = true ↔
    ∀ args, NullAmong op args → ¬(op = .round ∧ PrecisionRefused args) → op.apply args = .ok .null := by
  refine ⟨fun hs args => apply_null hs, fun h => ?_⟩
  cases op with
  | and => cases h [.null, .bool false] (by decide) (by simp)
  | or => cases h [.null, .bool true] (by decide) (by simp)
  | isNull => cases h [.null] (by decide) (by simp)
  | concat => cases h [.null] (by decide) (by simp)
  | coalesce => cases h [.null, .int 1] (by decide) (by simp)
  | nullIf => cases h [.int 1, .null] (by decide) (by simp)
  | _ => rfl

/-- A strict function with a null among its arguments gives null, unless it is `round` with a precision that is null
or out of range; these are refused. -/
theorem apply_null_iff (hs : op.isStrict = true) (h : NullAmong op args) :
    (op.apply args = .ok .null ↔ ¬(op = .round ∧ PrecisionRefused args)) ∧
      (op = .round → args[1]? = some .null → op.apply args = .error (.typeMismatch (.precision .null))) ∧
      ∀ n, op = .round → args[1]? = some (.int n) → ¬IsPrecision n →
        op.apply args = .error (.invalidArgument (.precisionRange n)) := by
  refine ⟨⟨?_, apply_null hs h⟩, ?_, ?_⟩
  · rintro hnull ⟨rfl, hp⟩
    exact round_refused hp hnull
  · rintro rfl h1
    rcases h.round_cases with rfl | ⟨a, rfl⟩ | ⟨n, rfl⟩
    · cases h1
    · exact round_null_precision a []
    · cases h1
  · rintro n rfl h1 hn
    rcases h.round_cases with rfl | ⟨a, rfl⟩ | ⟨m, rfl⟩
    · cases h1
    · cases h1
    · cases h1
      exact round_precision_range .null [] hn

/-- No text is like null, a null is rounded to two decimals, and a null number of decimals is refused. -/
theorem apply_null_iff_calls :
    apply .like [.text "ant", .null] = .ok .null ∧ apply .round [.null, .int 2] = .ok .null ∧
      apply .round [.int 3, .null] = .error (.typeMismatch (.precision .null)) ∧
      apply .round [.null, .int 4294967296] = .error (.invalidArgument (.precisionRange 4294967296)) := by
  have htwo : ¬PrecisionRefused [.null, .int 2] := by
    rintro (h | ⟨n, h, hn⟩)
    · cases h
    · cases h
      exact hn (by decide)
  have hlike : NullAmong .like [.text "ant", .null] := by decide
  have hround : NullAmong .round [.null, .int 2] := by decide
  have hnull : NullAmong .round [.int 3, .null] := by decide
  have hrange : NullAmong .round [.null, .int 4294967296] := by decide
  exact ⟨(apply_null_iff rfl hlike).1.2 (by simp), (apply_null_iff rfl hround).1.2 fun h => htwo h.2,
    (apply_null_iff rfl hnull).2.1 rfl rfl, (apply_null_iff rfl hrange).2.2 _ rfl rfl (by decide)⟩

/-- Not every strict function gives null on null: 2.5 with a null precision is an error. -/
theorem not_apply_null :
    ¬∀ (op : Scalar) (args : List Value), op.isStrict = true → NullAmong op args → op.apply args = .ok .null := by
  intro h
  cases h .round [.float ⟨0x4004000000000000⟩, .null] rfl (by decide)

end Scalar

end TableQuery
