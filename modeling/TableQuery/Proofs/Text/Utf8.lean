/-
The UTF-8 form of texts. Decoding is the inverse of encoding, and the bytes below 128 are those of the ASCII
characters, each of them a character of its own.
-/
import TableQuery.Text.Utf8
import TableQuery.Proofs.Except

namespace TableQuery.Text

open String (utf8EncodeChar)

/-! ## Bytes of a character -/

theorem toNat_ofNat_of_lt {n : Nat} (h : n < 256) : (UInt8.ofNat n).toNat = n := by
  rw [UInt8.toNat_ofNat']
  omega

theorem utf8EncodeChar_ne_nil (c : Char) : utf8EncodeChar c ≠ [] := by
  rw [← List.length_pos_iff, String.length_utf8EncodeChar]
  exact c.utf8Size_pos

theorem utf8EncodeChar_of_lt {c : Char} (h : c.toNat < 128) : utf8EncodeChar c = [UInt8.ofNat c.toNat] :=
  if_pos (Nat.le_of_lt_succ h)

/-- The form of a character beyond ASCII: a byte that tells the number of bytes, and continuation bytes. -/
theorem utf8EncodeChar_of_le {c : Char} (h : 128 ≤ c.toNat) :
    (c.toNat < 0x800 ∧ utf8EncodeChar c =
      [UInt8.ofNat (c.toNat / 64 + 0xC0), UInt8.ofNat (c.toNat % 64 + 0x80)]) ∨
    (0x800 ≤ c.toNat ∧ c.toNat < 0x10000 ∧ utf8EncodeChar c =
      [UInt8.ofNat (c.toNat / 4096 + 0xE0), UInt8.ofNat (c.toNat / 64 % 64 + 0x80),
        UInt8.ofNat (c.toNat % 64 + 0x80)]) ∨
    (0x10000 ≤ c.toNat ∧ c.toNat < 0x110000 ∧ utf8EncodeChar c =
      [UInt8.ofNat (c.toNat / 262144 + 0xF0), UInt8.ofNat (c.toNat / 4096 % 64 + 0x80),
        UInt8.ofNat (c.toNat / 64 % 64 + 0x80), UInt8.ofNat (c.toNat % 64 + 0x80)]) := by
  have hlt : c.toNat < 0x110000 := by
    have := c.valid
    simp only [UInt32.isValidChar, Nat.isValidChar] at this
    show c.val.toNat < _
    omega
  by_cases h2 : c.toNat < 0x800
  · refine .inl ⟨h2, (if_neg (by show ¬c.toNat ≤ 127; omega)).trans ((if_pos (Nat.le_of_lt_succ h2)).trans ?_)⟩
    rw [Char.toNat_val, show c.toNat / 64 % 32 = c.toNat / 64 by omega]
  by_cases h3 : c.toNat < 0x10000
  · refine .inr (.inl ⟨by omega, h3, ?_⟩)
    refine (if_neg (by show ¬c.toNat ≤ 127; omega)).trans ((if_neg (by show ¬c.toNat ≤ 2047; omega)).trans
      ((if_pos (Nat.le_of_lt_succ h3)).trans ?_))
    rw [Char.toNat_val, show c.toNat / 4096 % 16 = c.toNat / 4096 by omega]
  · refine .inr (.inr ⟨by omega, hlt, ?_⟩)
    refine (if_neg (by show ¬c.toNat ≤ 127; omega)).trans ((if_neg (by show ¬c.toNat ≤ 2047; omega)).trans
      ((if_neg (by show ¬c.toNat ≤ 65535; omega)).trans ?_))
    rw [Char.toNat_val, show c.toNat / 262144 % 8 = c.toNat / 262144 by omega]

theorem le_of_mem_utf8EncodeChar {c : Char} (h : 128 ≤ c.toNat) : ∀ b ∈ utf8EncodeChar c, 128 ≤ b.toNat := by
  have hb : ∀ n, 0x80 ≤ n → n < 256 → 128 ≤ (UInt8.ofNat n).toNat := fun n hn hlt => by
    rwa [toNat_ofNat_of_lt hlt]
  obtain ⟨hlt, he⟩ | ⟨-, hlt, he⟩ | ⟨-, hlt, he⟩ := utf8EncodeChar_of_le h
  all_goals
    rw [he]
    simp only [List.forall_mem_cons, List.not_mem_nil, false_implies, implies_true, and_true]
  · exact ⟨hb _ (by omega) (by omega), hb _ (by omega) (by omega)⟩
  · exact ⟨hb _ (by omega) (by omega), hb _ (by omega) (by omega), hb _ (by omega) (by omega)⟩
  · exact ⟨hb _ (by omega) (by omega), hb _ (by omega) (by omega), hb _ (by omega) (by omega),
      hb _ (by omega) (by omega)⟩

/-- A byte of ASCII is only in the form of its character. -/
theorem eq_of_mem_utf8EncodeChar {c d : Char} (hd : d.toNat < 128)
    (h : UInt8.ofNat d.toNat ∈ utf8EncodeChar c) : c = d := by
  have hb : (UInt8.ofNat d.toNat).toNat = d.toNat := toNat_ofNat_of_lt (by omega)
  by_cases hc : c.toNat < 128
  · rw [utf8EncodeChar_of_lt hc, List.mem_singleton] at h
    have hn := congrArg UInt8.toNat h
    rw [hb, toNat_ofNat_of_lt (by omega)] at hn
    exact Char.toNat_inj.1 hn.symm
  · have hle := le_of_mem_utf8EncodeChar (Nat.not_lt.1 hc) _ h
    omega

/-! ## Characters from bytes -/

theorem charOf?_toNat {c : Char} {least : Nat} (h : least ≤ c.toNat) : charOf? least c.toNat = some c := by
  have hc : least ≤ c.toNat ∧ c.toNat.isValidChar := ⟨h, c.valid⟩
  rw [charOf?, dif_pos hc, Option.some_inj]
  exact Char.ext (UInt32.ofNat_toNat)

theorem continuation?_ofNat {n : Nat} (h : n < 64) : continuation? (UInt8.ofNat (n + 0x80)) = some n := by
  have hn : (UInt8.ofNat (n + 0x80)).toNat = n + 0x80 := toNat_ofNat_of_lt (by omega)
  rw [continuation?, if_pos, hn]
  · simp
  · simp only [UInt8.le_iff_toNat_le, UInt8.lt_iff_toNat_lt, hn, UInt8.reduceToNat]
    omega

theorem two?_of_le {a : UInt8} (h : 0xE0 ≤ a.toNat) (b : UInt8) : two? a b = none := by
  have ha : (0xE0 : UInt8) ≤ a := UInt8.le_iff_toNat_le.2 h
  simp [two?, ha]

theorem three?_of_le {a : UInt8} (h : 0xF0 ≤ a.toNat) (b c : UInt8) : three? a b c = none := by
  have ha : (0xF0 : UInt8) ≤ a := UInt8.le_iff_toNat_le.2 h
  simp [three?, ha]

theorem two?_ofNat {c : Char} (h : 128 ≤ c.toNat) (hlt : c.toNat < 0x800) :
    two? (UInt8.ofNat (c.toNat / 64 + 0xC0)) (UInt8.ofNat (c.toNat % 64 + 0x80)) = some c := by
  have ha : (UInt8.ofNat (c.toNat / 64 + 0xC0)).toNat = c.toNat / 64 + 0xC0 := toNat_ofNat_of_lt (by omega)
  have hrange : ¬(decide (UInt8.ofNat (c.toNat / 64 + 0xC0) < 0xC0) ||
      decide (0xE0 ≤ UInt8.ofNat (c.toNat / 64 + 0xC0))) = true := by
    simp only [UInt8.le_iff_toNat_le, UInt8.lt_iff_toNat_lt, ha, UInt8.reduceToNat, Bool.or_eq_true,
      decide_eq_true_eq]
    omega
  have hn : (c.toNat / 64 + 0xC0 - 0xC0) * 0x40 + c.toNat % 64 = c.toNat := by omega
  rw [two?, if_neg hrange, continuation?_ofNat (by omega), ha]
  exact (congrArg _ hn).trans (charOf?_toNat h)

theorem three?_ofNat {c : Char} (h : 0x800 ≤ c.toNat) (hlt : c.toNat < 0x10000) :
    three? (UInt8.ofNat (c.toNat / 4096 + 0xE0)) (UInt8.ofNat (c.toNat / 64 % 64 + 0x80))
      (UInt8.ofNat (c.toNat % 64 + 0x80)) = some c := by
  have ha : (UInt8.ofNat (c.toNat / 4096 + 0xE0)).toNat = c.toNat / 4096 + 0xE0 := toNat_ofNat_of_lt (by omega)
  have hrange : ¬(decide (UInt8.ofNat (c.toNat / 4096 + 0xE0) < 0xE0) ||
      decide (0xF0 ≤ UInt8.ofNat (c.toNat / 4096 + 0xE0))) = true := by
    simp only [UInt8.le_iff_toNat_le, UInt8.lt_iff_toNat_lt, ha, UInt8.reduceToNat, Bool.or_eq_true,
      decide_eq_true_eq]
    omega
  have hn : ((c.toNat / 4096 + 0xE0 - 0xE0) * 0x40 + c.toNat / 64 % 64) * 0x40 + c.toNat % 64 = c.toNat := by omega
  rw [three?, if_neg hrange, continuation?_ofNat (by omega), continuation?_ofNat (by omega), ha]
  exact (congrArg _ hn).trans (charOf?_toNat h)

theorem four?_ofNat {c : Char} (h : 0x10000 ≤ c.toNat) (hlt : c.toNat < 0x110000) :
    four? (UInt8.ofNat (c.toNat / 262144 + 0xF0)) (UInt8.ofNat (c.toNat / 4096 % 64 + 0x80))
      (UInt8.ofNat (c.toNat / 64 % 64 + 0x80)) (UInt8.ofNat (c.toNat % 64 + 0x80)) = some c := by
  have ha : (UInt8.ofNat (c.toNat / 262144 + 0xF0)).toNat = c.toNat / 262144 + 0xF0 :=
    toNat_ofNat_of_lt (by omega)
  have hrange : ¬(decide (UInt8.ofNat (c.toNat / 262144 + 0xF0) < 0xF0) ||
      decide (0xF8 ≤ UInt8.ofNat (c.toNat / 262144 + 0xF0))) = true := by
    simp only [UInt8.le_iff_toNat_le, UInt8.lt_iff_toNat_lt, ha, UInt8.reduceToNat, Bool.or_eq_true,
      decide_eq_true_eq]
    omega
  have hn : (((c.toNat / 262144 + 0xF0 - 0xF0) * 0x40 + c.toNat / 4096 % 64) * 0x40 + c.toNat / 64 % 64) * 0x40 +
      c.toNat % 64 = c.toNat := by omega
  rw [four?, if_neg hrange, continuation?_ofNat (by omega), continuation?_ofNat (by omega),
    continuation?_ofNat (by omega), ha]
  exact (congrArg _ hn).trans (charOf?_toNat h)

/-! ## Texts -/

/-- A byte that begins a character of several bytes. -/
theorem not_lt_of_le {n : Nat} (h : 0x80 ≤ n) (hlt : n < 256) : ¬UInt8.ofNat n < 0x80 := by
  rw [UInt8.lt_iff_toNat_lt, toNat_ofNat_of_lt hlt]
  exact Nat.not_lt.2 h

theorem decodeFrom_encodeChar (valid : Nat) (c : Char) (r : List UInt8) :
    decodeFrom valid (utf8EncodeChar c ++ r) =
      (decodeFrom (valid + (utf8EncodeChar c).length) r).map (c :: ·) := by
  by_cases hc : c.toNat < 128
  · rw [utf8EncodeChar_of_lt hc]
    have ha : (UInt8.ofNat c.toNat).toNat = c.toNat := toNat_ofNat_of_lt (by omega)
    have hlt : UInt8.ofNat c.toNat < 0x80 := by rwa [UInt8.lt_iff_toNat_lt, ha]
    rw [List.singleton_append, decodeFrom.eq_def]
    simp only
    rw [if_pos hlt, ha, Char.ofNat_toNat]
    rfl
  · obtain ⟨hlt, he⟩ | ⟨h, hlt, he⟩ | ⟨h, hlt, he⟩ := utf8EncodeChar_of_le (Nat.not_lt.1 hc)
    · rw [he]
      simp only [List.cons_append, List.nil_append]
      rw [decodeFrom.eq_def]
      simp only
      rw [if_neg (not_lt_of_le (by omega) (by omega)), two?_ofNat (Nat.not_lt.1 hc) hlt]
      rfl
    · have h2 : 0xE0 ≤ (UInt8.ofNat (c.toNat / 4096 + 0xE0)).toNat := by
        rw [toNat_ofNat_of_lt (by omega)]; omega
      rw [he]
      simp only [List.cons_append, List.nil_append]
      rw [decodeFrom.eq_def]
      simp only
      rw [if_neg (not_lt_of_le (by omega) (by omega)), two?_of_le h2, three?_ofNat h hlt]
      rfl
    · have h3 : 0xF0 ≤ (UInt8.ofNat (c.toNat / 262144 + 0xF0)).toNat := by
        rw [toNat_ofNat_of_lt (by omega)]; omega
      rw [he]
      simp only [List.cons_append, List.nil_append]
      rw [decodeFrom.eq_def]
      simp only
      rw [if_neg (not_lt_of_le (by omega) (by omega)), two?_of_le (Nat.le_trans (by decide) h3), three?_of_le h3,
        four?_ofNat h hlt]
      rfl

/-- The bytes of a list of characters. -/
def utf8 (cs : List Char) : List UInt8 := cs.flatMap utf8EncodeChar

@[simp] theorem utf8_nil : utf8 [] = [] := rfl

@[simp] theorem utf8_cons (c : Char) (cs : List Char) : utf8 (c :: cs) = utf8EncodeChar c ++ utf8 cs :=
  List.flatMap_cons

@[simp] theorem utf8_append (cs ds : List Char) : utf8 (cs ++ ds) = utf8 cs ++ utf8 ds := List.flatMap_append

theorem encode_eq (s : String) : encode s = utf8 s.toList := rfl

theorem decodeFrom_utf8 (valid : Nat) (cs : List Char) : decodeFrom valid (utf8 cs) = .ok cs := by
  induction cs generalizing valid with
  | nil => rfl
  | cons c cs ih => rw [utf8_cons, decodeFrom_encodeChar, ih, map_ok]

theorem decode_utf8 (cs : List Char) : decode (utf8 cs) = .ok (String.ofList cs) := by
  rw [decode, decodeFrom_utf8, map_ok]

/-- No character begins with the bytes of another one. -/
theorem eq_of_utf8_cons {c d : Char} {cs : List Char} {r : List UInt8} (h : utf8 (c :: cs) = utf8EncodeChar d ++ r) :
    c = d := by
  have hd := decodeFrom_utf8 0 (c :: cs)
  rw [h, decodeFrom_encodeChar] at hd
  obtain ⟨ds, -, hds⟩ := map_eq_ok hd
  exact (List.cons.inj hds).1.symm

end TableQuery.Text
