/-
The UTF-8 form of texts. Decoding fails at the first byte that does not continue a character, and
tells how many bytes before it are valid.
-/

namespace TableQuery.Text

/-- The six low bits of a continuation byte. -/
def continuation? (b : UInt8) : Option Nat :=
  if 0x80 ≤ b ∧ b < 0xC0 then some (b.toNat - 0x80) else none

/-- A character of two bytes or more: not one that a shorter form could hold, no surrogate. -/
def charOf? (least n : Nat) : Option Char :=
  if h : least ≤ n ∧ n.isValidChar then some ⟨n.toUInt32, by
    have : n.toUInt32.toNat = n := by
      have := h.2
      simp only [Nat.isValidChar] at this
      simp only [Nat.toUInt32_eq]
      exact UInt32.toNat_ofNat_of_lt' (by simp [UInt32.size]; omega)
    simpa [UInt32.isValidChar, this] using h.2⟩
  else none

def two? (a b : UInt8) : Option Char := do
  if a < 0xC0 || 0xE0 ≤ a then none
  charOf? 0x80 ((a.toNat - 0xC0) * 0x40 + (← continuation? b))

def three? (a b c : UInt8) : Option Char := do
  if a < 0xE0 || 0xF0 ≤ a then none
  charOf? 0x800 (((a.toNat - 0xE0) * 0x40 + (← continuation? b)) * 0x40 + (← continuation? c))

def four? (a b c d : UInt8) : Option Char := do
  if a < 0xF0 || 0xF8 ≤ a then none
  charOf? 0x10000 ((((a.toNat - 0xF0) * 0x40 + (← continuation? b)) * 0x40 + (← continuation? c)) * 0x40 +
    (← continuation? d))

/-- The characters of a byte sequence of which `valid` bytes are read already; else the number of
bytes that are valid. -/
def decodeFrom (valid : Nat) : List UInt8 → Except Nat (List Char)
  | [] => .ok []
  | a :: r =>
    if a < 0x80 then (decodeFrom (valid + 1) r).map (Char.ofNat a.toNat :: ·)
    else
      match r with
      | [] => .error valid
      | b :: r =>
        match two? a b with
        | some x => (decodeFrom (valid + 2) r).map (x :: ·)
        | none =>
          match r with
          | [] => .error valid
          | c :: r =>
            match three? a b c with
            | some x => (decodeFrom (valid + 3) r).map (x :: ·)
            | none =>
              match r with
              | [] => .error valid
              | d :: r =>
                match four? a b c d with
                | some x => (decodeFrom (valid + 4) r).map (x :: ·)
                | none => .error valid

def decode (bytes : List UInt8) : Except Nat String := (decodeFrom 0 bytes).map String.ofList

def encode (s : String) : List UInt8 := s.toList.flatMap String.utf8EncodeChar

end TableQuery.Text
