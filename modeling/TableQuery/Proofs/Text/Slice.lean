/-
Positions of a text. They are the byte lengths of its beginnings: at such a number the text is cut in two, and
between two of them it is sliced; a number of bytes that ends inside a character cuts nothing.
-/
import TableQuery.Text.Slice
import TableQuery.Proofs.Text.Utf8

namespace TableQuery.Text

open String (utf8EncodeChar)

variable {as bs cs : List Char} {c : Char} {n : Nat}

/-! ## Lengths -/

@[simp] theorem byteLength_nil : byteLength [] = 0 := rfl

@[simp] theorem byteLength_cons (c : Char) (cs : List Char) : byteLength (c :: cs) = c.utf8Size + byteLength cs := rfl

@[simp] theorem byteLength_append (as bs : List Char) : byteLength (as ++ bs) = byteLength as + byteLength bs := by
  induction as with
  | nil => exact (Nat.zero_add _).symm
  | cons a as ih => rw [List.cons_append, byteLength_cons, byteLength_cons, ih, Nat.add_assoc]

theorem length_utf8 (cs : List Char) : (utf8 cs).length = byteLength cs := by
  induction cs with
  | nil => rfl
  | cons c cs ih => rw [utf8_cons, List.length_append, String.length_utf8EncodeChar, ih, byteLength_cons]

/-- The characters of ASCII are those of one byte. -/
theorem utf8Size_eq_one_iff : c.utf8Size = 1 ↔ c.toNat < 128 := by
  rw [← String.length_utf8EncodeChar]
  refine ⟨fun h => Nat.not_le.1 fun hc => ?_, fun hc => by rw [utf8EncodeChar_of_lt hc]; rfl⟩
  obtain ⟨-, he⟩ | ⟨-, -, he⟩ | ⟨-, -, he⟩ := utf8EncodeChar_of_le hc
  all_goals
    rw [he] at h
    simp at h

theorem drop_utf8_append (as bs : List Char) : (utf8 (as ++ bs)).drop (byteLength as) = utf8 bs := by
  rw [utf8_append, ← length_utf8, List.drop_left]

/-! ## Cuts -/

theorem splitAtByte?_zero (cs : List Char) : splitAtByte? 0 cs = some ([], cs) := by
  rw [splitAtByte?]

theorem splitAtByte?_cons (hn : 0 < n) (c : Char) (cs : List Char) : splitAtByte? n (c :: cs) =
    if c.utf8Size ≤ n then (splitAtByte? (n - c.utf8Size) cs).map fun p => (c :: p.1, p.2) else none := by
  obtain ⟨n, rfl⟩ := Nat.exists_eq_add_one.2 hn
  rw [splitAtByte?]

theorem splitAtByte?_add (as : List Char) (n : Nat) (cs : List Char) : splitAtByte? (byteLength as + n) (as ++ cs) =
    (splitAtByte? n cs).map fun p => (as ++ p.1, p.2) := by
  induction as with
  | nil => simp
  | cons a as ih =>
    have hpos : 0 < byteLength (a :: as) + n := by
      have := a.utf8Size_pos
      simp only [byteLength_cons]
      omega
    have hsub : byteLength (a :: as) + n - a.utf8Size = byteLength as + n := by
      simp only [byteLength_cons]
      omega
    rw [List.cons_append, splitAtByte?_cons hpos, if_pos (by simp only [byteLength_cons]; omega), hsub, ih,
      Option.map_map]
    rfl

theorem splitAtByte?_append (as bs : List Char) : splitAtByte? (byteLength as) (as ++ bs) = some (as, bs) := by
  have h := splitAtByte?_add as 0 bs
  rw [splitAtByte?_zero, Nat.add_zero, Option.map_some, List.append_nil] at h
  exact h

/-- A number of bytes that ends inside a character. -/
theorem splitAtByte?_inside (as : List Char) (hn : 0 < n) (hc : n < c.utf8Size) (bs : List Char) :
    splitAtByte? (byteLength as + n) (as ++ c :: bs) = none := by
  rw [splitAtByte?_add, splitAtByte?_cons hn, if_neg (Nat.not_le.2 hc), Option.map_none]

/-! ## Slices -/

theorem slice?_append (as bs cs : List Char) :
    slice? (as ++ (bs ++ cs)) (byteLength as) (byteLength as + byteLength bs) = some bs := by
  have hlast := splitAtByte?_append (as ++ bs) cs
  rw [byteLength_append, List.append_assoc] at hlast
  rw [slice?, hlast]
  show ((splitAtByte? (byteLength as) (as ++ bs)).bind fun p => some p.2) = _
  rw [splitAtByte?_append]
  rfl

/-- The beginning of a text. -/
theorem slice?_zero (as bs : List Char) : slice? (as ++ bs) 0 (byteLength as) = some as := by
  have h := slice?_append [] as bs
  rw [byteLength_nil, Nat.zero_add] at h
  exact h

/-- The end of a text. -/
theorem slice?_end (as bs : List Char) : slice? (as ++ bs) (byteLength as) (byteLength (as ++ bs)) = some bs := by
  have h := slice?_append as bs []
  rw [List.append_nil, ← byteLength_append] at h
  exact h

theorem slice?_inside (as : List Char) (hn : 0 < n) (hc : n < c.utf8Size) (bs : List Char) :
    slice? (as ++ c :: bs) (byteLength as + n) (byteLength (as ++ c :: bs)) = none := by
  have hlast := splitAtByte?_append (as ++ c :: bs) []
  rw [List.append_nil] at hlast
  rw [slice?, hlast]
  show ((splitAtByte? (byteLength as + n) (as ++ c :: bs)).bind fun p => some p.2) = _
  rw [splitAtByte?_inside as hn hc]
  rfl

end TableQuery.Text
