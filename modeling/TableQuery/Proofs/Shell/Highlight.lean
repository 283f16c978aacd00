/-
Highlighting loses nothing. The scan of a line compares bytes with characters of ASCII only, so each class of
bytes that it runs over has all bytes beyond ASCII or none of them; a run therefore stops between two
characters, and so does every segment. Each segment has a byte, the scan comes to the end of every line, and
the characters of the segments are those of the line.
-/
import TableQuery.Shell.Highlight
import TableQuery.Proofs.Text.Slice

namespace TableQuery.Shell

open String (utf8EncodeChar)
open TableQuery.Text

variable {p : Char → Bool} {q : UInt8 → Bool} {b : UInt8} {r : List UInt8} {c : Char} {cs : List Char}

/-! ## Runs of bytes -/

/-- All bytes beyond ASCII have the property, or none. -/
def Uniform (q : UInt8 → Bool) : Prop := ∃ d, ∀ b : UInt8, 128 ≤ b.toNat → q b = d

theorem isByte_of_le (p : Char → Bool) (h : 128 ≤ b.toNat) : isByte p b = false := by
  have hb : ¬b < 0x80 := fun hlt => Nat.not_lt.2 h (UInt8.lt_iff_toNat_lt.1 hlt)
  rw [isByte, decide_eq_false hb, Bool.false_and]

theorem toNat_lt_of_isByte (h : isByte p b = true) : b.toNat < 128 :=
  Nat.not_le.1 fun hle => Bool.false_ne_true ((isByte_of_le p hle).symm.trans h)

theorem uniform_isByte (p : Char → Bool) : Uniform (isByte p) := ⟨false, fun _ h => isByte_of_le p h⟩

theorem uniform_not_isByte (p : Char → Bool) : Uniform fun b => !isByte p b :=
  ⟨true, fun _ h => by simp only [isByte_of_le p h, Bool.not_false]⟩

theorem uniform_ne (hb : b.toNat < 128) : Uniform (· != b) :=
  ⟨true, fun d hd => bne_iff_ne.2 fun h => by
    rw [h] at hd
    exact Nat.not_le.2 hb hd⟩

/-- A uniform property holds of all bytes of a character or of none. -/
theorem Uniform.char (hq : Uniform q) (c : Char) :
    (∀ b ∈ utf8EncodeChar c, q b = true) ∨ ∀ b ∈ utf8EncodeChar c, q b = false := by
  obtain ⟨d, hd⟩ := hq
  have hall : ∃ d, ∀ b ∈ utf8EncodeChar c, q b = d := by
    by_cases hc : c.toNat < 128
    · rw [utf8EncodeChar_of_lt hc]
      exact ⟨_, fun b hb => by rw [List.mem_singleton.1 hb]⟩
    · exact ⟨d, fun b hb => hd b (le_of_mem_utf8EncodeChar (Nat.not_lt.1 hc) b hb)⟩
  obtain ⟨d, hd⟩ := hall
  cases d with
  | true => exact .inl hd
  | false => exact .inr hd

/-- A run of bytes with a uniform property ends between two characters. -/
theorem Uniform.takeWhile_utf8 (hq : Uniform q) (cs : List Char) : ∃ us vs, cs = us ++ vs ∧
    (utf8 cs).takeWhile q = utf8 us ∧ ∀ b ∈ (utf8 vs).head?, q b = false := by
  induction cs with
  | nil => exact ⟨[], [], rfl, rfl, fun b hb => by cases hb⟩
  | cons c cs ih =>
    rw [utf8_cons]
    rcases hq.char c with hc | hc
    · obtain ⟨us, vs, rfl, hus, hvs⟩ := ih
      refine ⟨c :: us, vs, rfl, ?_, hvs⟩
      rw [List.takeWhile_append_of_pos hc, hus, utf8_cons]
    · obtain ⟨d, ds, hd⟩ := List.exists_cons_of_ne_nil (utf8EncodeChar_ne_nil c)
      have hfirst : q d = false := hc d (by rw [hd]; exact List.mem_cons_self)
      refine ⟨[], c :: cs, rfl, ?_, ?_⟩
      · rw [hd, List.cons_append, List.takeWhile_cons_of_neg (by rw [hfirst]; exact Bool.false_ne_true)]
        rfl
      · rw [utf8_cons, hd]
        rintro b ⟨⟩
        exact hfirst

/-! ## The end of a segment -/

/-- A byte of ASCII is a character. -/
theorem utf8EncodeChar_of_utf8 (hb : b.toNat < 128) (h : utf8 (c :: cs) = b :: r) :
    c.utf8Size = 1 ∧ utf8 cs = r := by
  have hc : c.toNat < 128 := by
    refine Nat.not_le.1 fun hc => ?_
    obtain ⟨d, ds, hd⟩ := List.exists_cons_of_ne_nil (utf8EncodeChar_ne_nil c)
    rw [utf8_cons, hd] at h
    have hle := le_of_mem_utf8EncodeChar hc d (by rw [hd]; exact List.mem_cons_self)
    rw [(List.cons.inj h).1] at hle
    omega
  rw [utf8_cons, utf8EncodeChar_of_lt hc] at h
  exact ⟨utf8Size_eq_one_iff.2 hc, (List.cons.inj h).2⟩

/-- The size of a segment that starts at a character cuts the text. -/
def CutsAt (n : Nat) (cs : List Char) : Prop := ∃ us vs, cs = us ++ vs ∧ n = byteLength us

theorem cutsAt_run (hq : Uniform q) (h : utf8 cs = r) : CutsAt (r.takeWhile q).length cs := by
  obtain ⟨us, vs, hcs, hus, -⟩ := hq.takeWhile_utf8 cs
  exact ⟨us, vs, hcs, by rw [← h, hus, length_utf8]⟩

theorem CutsAt.cons {n : Nat} (hc : c.utf8Size = 1) (h : CutsAt n cs) : CutsAt (n + 1) (c :: cs) := by
  obtain ⟨us, vs, rfl, rfl⟩ := h
  exact ⟨c :: us, vs, rfl, by rw [byteLength_cons, hc, Nat.add_comm]⟩

theorem cutsAt_quoted (hb : b.toNat < 128) (h : utf8 (c :: cs) = b :: r) :
    CutsAt (Form.quoted.size b r) (c :: cs) := by
  obtain ⟨hc, rfl⟩ := utf8EncodeChar_of_utf8 hb h
  obtain ⟨us, vs, rfl, hus, hvs⟩ := (uniform_ne hb).takeWhile_utf8 cs
  have hsize : Form.quoted.size b (utf8 (us ++ vs)) = min (byteLength us + 2) (byteLength (us ++ vs) + 1) := by
    rw [Form.size, hus, length_utf8, length_utf8]
  rw [hsize, byteLength_append]
  cases vs with
  | nil =>
    refine ⟨c :: us, [], rfl, ?_⟩
    rw [byteLength_cons, hc, byteLength_nil]
    omega
  | cons w ws =>
    -- the run stops at the quote, which is a character of one byte
    obtain ⟨d, ds, hd⟩ := List.exists_cons_of_ne_nil (utf8EncodeChar_ne_nil w)
    have hclose : d = b := by
      have := hvs d (by rw [utf8_cons, hd]; rfl)
      simpa using this
    subst hclose
    have hquote : utf8 (w :: ws) = d :: (ds ++ utf8 ws) := by
      rw [utf8_cons, hd]
      rfl
    obtain ⟨hw, -⟩ := utf8EncodeChar_of_utf8 hb hquote
    refine ⟨c :: us ++ [w], ws, by simp, ?_⟩
    rw [byteLength_append, byteLength_cons, byteLength_cons, byteLength_cons, byteLength_nil, hc, hw]
    omega

theorem Form.toNat_lt (h : Form.of b r ≠ .plain) : b.toNat < 128 := by
  unfold Form.of at h
  split at h
  · rename_i hb
    exact toNat_lt_of_isByte (Bool.and_eq_true_iff.1 hb).1
  split at h
  · exact toNat_lt_of_isByte ‹_›
  split at h
  · exact toNat_lt_of_isByte ‹_›
  split at h
  · exact toNat_lt_of_isByte ‹_›
  split at h
  · exact toNat_lt_of_isByte ‹_›
  · exact absurd rfl h

/-- Every segment ends between two characters. -/
theorem cutsAt_size (h : utf8 (c :: cs) = b :: r) : CutsAt ((Form.of b r).size b r) (c :: cs) := by
  have hascii := Form.toNat_lt (b := b) (r := r)
  cases hf : Form.of b r with
  | comment => exact cutsAt_run (uniform_not_isByte _) h
  | quoted => exact cutsAt_quoted (hascii (by rw [hf]; nofun)) h
  | number => exact cutsAt_run (uniform_isByte _) h
  | word => exact cutsAt_run (uniform_isByte _) h
  | operator =>
    obtain ⟨hc, hr⟩ := utf8EncodeChar_of_utf8 (hascii (by rw [hf]; nofun)) h
    exact (cutsAt_run (uniform_isByte _) hr).cons hc
  | plain =>
    by_cases hb : b.toNat < 128
    · obtain ⟨hc, hr⟩ := utf8EncodeChar_of_utf8 hb h
      exact (cutsAt_run (uniform_not_isByte _) hr).cons hc
    · -- the first byte is one that the run goes over, as are the others of its character
      have hrun := cutsAt_run (uniform_not_isByte startsSegment) h
      rwa [List.takeWhile_cons_of_pos (by rw [isByte_of_le _ (Nat.not_lt.1 hb)]; rfl)] at hrun

/-! ## All segments -/

/-- The first segment of a rest of the line has a character, and cuts the rest. -/
theorem exists_segment (c : Char) (cs : List Char) : ∃ b r us vs, utf8 (c :: cs) = b :: r ∧ c :: cs = us ++ vs ∧
    us ≠ [] ∧ (Form.of b r).size b r = byteLength us := by
  obtain ⟨b, r, hb⟩ := List.exists_cons_of_ne_nil (utf8EncodeChar_ne_nil c)
  have hbytes : utf8 (c :: cs) = b :: (r ++ utf8 cs) := by rw [utf8_cons, hb, List.cons_append]
  obtain ⟨us, vs, hsplit, hsize⟩ := cutsAt_size hbytes
  refine ⟨b, _, us, vs, hbytes, hsplit, ?_, hsize⟩
  rintro rfl
  exact Nat.lt_irrefl 0 (Nat.lt_of_lt_of_eq (Form.size_of_pos b _) hsize)

/-- From a position on the segments are pieces of the rest of the line, none of them empty. -/
theorem segmentsFrom_pieces : ∀ done cs : List Char, ∃ segments,
    segmentsFrom (done ++ cs) (byteLength done) (utf8 cs) = some segments ∧
      (∀ s ∈ segments, s.chars ≠ []) ∧ segments.flatMap (·.chars) = cs
  | done, [] => ⟨[], by rw [utf8_nil, segmentsFrom], (fun s hs => by cases hs), rfl⟩
  | done, c :: cs => by
    obtain ⟨b, r, us, vs, hbytes, hsplit, hus, hsize⟩ := exists_segment c cs
    have hshorter : vs.length < (c :: cs).length := by
      have := List.length_pos_iff.2 hus
      rw [hsplit, List.length_append]
      omega
    obtain ⟨segments, hrest, hne, hflat⟩ := segmentsFrom_pieces (done ++ us) vs
    rw [byteLength_append, List.append_assoc] at hrest
    refine ⟨⟨(Form.of b r).kind b us (utf8 vs).head?, us⟩ :: segments, ?_, List.forall_mem_cons.2 ⟨hus, hne⟩, ?_⟩
    · rw [hbytes, segmentsFrom, hsize, ← hbytes, hsplit, slice?_append, drop_utf8_append]
      show ((segmentsFrom (done ++ (us ++ vs)) (byteLength done + byteLength us) (utf8 vs)).bind fun ss => some _) = _
      rw [hrest]
      rfl
    · rw [List.flatMap_cons, hflat, hsplit]
termination_by _ cs => cs.length
decreasing_by exact hshorter

/-- Highlighting comes to an end on every line, cuts it between characters only, makes no empty segment, and
puts every character of the line into one of them, in their order. -/
theorem highlight_pieces (line : String) : ∃ segments, highlight line = some segments ∧
    (∀ s ∈ segments, s.chars ≠ []) ∧ segments.flatMap (·.chars) = line.toList := by
  rw [highlight]
  split
  · rename_i cs hcs
    refine ⟨_, rfl, fun s hs => ?_, ?_⟩
    · rw [List.mem_singleton.1 hs]
      exact List.cons_ne_nil _ _
    · rw [List.flatMap_cons, List.flatMap_nil, List.append_nil, hcs]
  · rw [encode_eq]
    exact segmentsFrom_pieces [] line.toList

end TableQuery.Shell
