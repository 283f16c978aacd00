/-
Fuzzy matching. The search takes for each letter of the pattern the next equal one, and this finds a match
whenever there is one: exactly for the patterns that are subsequences of the candidate, both in lower case.
The indices of a match increase, and lead to the letters of the pattern in the candidate in lower case. In the
candidate itself they lead to these letters, for every pattern, exactly if each of its characters has one
letter in lower case at its own place. A dotted capital I has two, and moves all letters behind it; a capital
sigma that ends a word has another one than it has alone.
-/
import TableQuery.Shell.Completion
import TableQuery.Proofs.Text.Case
import Mathlib.Data.List.Forall2

namespace TableQuery

/-! ## The places of letters in lower case -/

namespace Text

variable {cs before after : List Char} {c : Char}

/-- The dotted capital I is the one character with two letters in lower case. -/
theorem length_lowerChar (c : Char) : (lowerChar c).length = if c = 'İ' then 2 else 1 := by
  by_cases hc : c = 'İ'
  · rw [if_pos hc, hc]
    rfl
  · rw [if_neg hc, lowerChar, mapChar]
    split
    · rfl
    · have hmany : lowerMany.find? (·.1 == c.toNat) = none := by
        refine List.find?_eq_none.2 fun p hp => ?_
        rw [List.mem_singleton.1 hp, beq_iff_eq]
        exact fun h => hc (Char.toNat_inj.1 h.symm)
      rw [hmany]
      rfl

/-- The lower case of a character between others. -/
def lowerBetween (before : List Char) (c : Char) (after : List Char) : List Char :=
  if c = 'Σ' then if startsCased before && !startsCased after then ['ς'] else ['σ'] else lowerChar c

theorem lowerFrom_cons (before : List Char) (c : Char) (cs : List Char) :
    lowerFrom before (c :: cs) = lowerBetween before c cs ++ lowerFrom (c :: before) cs := rfl

theorem length_lowerBetween (before : List Char) (c : Char) (after : List Char) :
    (lowerBetween before c after).length = if c = 'İ' then 2 else 1 := by
  unfold lowerBetween
  split
  · rename_i hc
    have hdot : c ≠ 'İ' := by
      rw [hc]
      decide
    rw [if_neg hdot]
    split <;> rfl
  · exact length_lowerChar c

/-- What stands behind a part of the text is moved by the dotted capital I's of this part. -/
theorem lowerFrom_append (as : List Char) (before : List Char) (cs : List Char) : ∃ ls,
    lowerFrom before (as ++ cs) = ls ++ lowerFrom (as.reverse ++ before) cs ∧
      ls.length = as.length + as.count 'İ' := by
  induction as generalizing before with
  | nil => exact ⟨[], rfl, rfl⟩
  | cons a as ih =>
    obtain ⟨ls, hls, hlen⟩ := ih (a :: before)
    refine ⟨lowerBetween before a (as ++ cs) ++ ls, ?_, ?_⟩
    · rw [List.cons_append, lowerFrom_cons, hls, List.append_assoc, List.reverse_cons, List.append_assoc]
      rfl
    · rw [List.length_append, length_lowerBetween, hlen, List.length_cons, List.count_cons]
      by_cases ha : a = 'İ'
      · rw [if_pos ha, if_pos (beq_iff_eq.2 ha)]
        omega
      · rw [if_neg ha, if_neg (by rwa [beq_iff_eq])]
        omega

theorem lowerChars_split (before : List Char) (c : Char) (after : List Char) : ∃ ls rs,
    lowerChars (before ++ c :: after) = ls ++ (lowerBetween before.reverse c after ++ rs) ∧
      ls.length = before.length + before.count 'İ' := by
  obtain ⟨ls, hls, hlen⟩ := lowerFrom_append before [] (c :: after)
  rw [List.append_nil] at hls
  exact ⟨ls, _, hls, hlen⟩

theorem length_lowerChars (cs : List Char) : (lowerChars cs).length = cs.length + cs.count 'İ' := by
  obtain ⟨ls, hls, hlen⟩ := lowerFrom_append cs [] []
  rw [List.append_nil] at hls
  rw [lowerChars, hls, lowerFrom, List.append_nil, hlen]

/-- A capital sigma between these characters ends a word. -/
def EndsWord (before after : List Char) : Prop := startsCased before.reverse = true ∧ startsCased after = false

def HasFinalSigma (cs : List Char) : Prop := ∃ before after, cs = before ++ 'Σ' :: after ∧ EndsWord before after

/-- The letters in lower case stand where their characters stand, and are those of the characters alone. -/
def LowersInPlace (cs : List Char) : Prop :=
  ∀ (i : Nat) (l : Char), (lowerChars cs)[i]? = some l → ∃ c, cs[i]? = some c ∧ l ∈ lowerChars [c]

theorem lowerChars_singleton (c : Char) : lowerChars [c] = lowerBetween [] c [] := by
  rw [lowerChars, lowerFrom_cons, lowerFrom, List.append_nil]

/-- A character that ends no word has the lower case that it has alone. -/
theorem lowerBetween_eq (h : c = 'Σ' → ¬(startsCased before = true ∧ startsCased after = false)) :
    lowerBetween before c after = lowerChars [c] := by
  rw [lowerChars_singleton, lowerBetween, lowerBetween]
  by_cases hc : c = 'Σ'
  · rw [if_pos hc, if_pos hc, if_neg (by simpa using h hc), if_neg (by decide)]
  · rw [if_neg hc, if_neg hc]

/-- A capital sigma that ends a word has a lower case that it has not alone. -/
theorem final_not_mem (h : EndsWord before after) : ∃ l, lowerBetween before.reverse 'Σ' after = [l] ∧
    l ∉ lowerChars ['Σ'] := by
  refine ⟨'ς', ?_, by decide⟩
  rw [lowerBetween, if_pos rfl, h.1, h.2]
  rfl

theorem getElem?_lowerChars (hdot : 'İ' ∉ before) {l : Char} (hl : lowerBetween before.reverse c after = [l]) :
    (lowerChars (before ++ c :: after))[before.length]? = some l := by
  obtain ⟨ls, rs, hls, hlen⟩ := lowerChars_split before c after
  rw [List.count_eq_zero_of_not_mem hdot, Nat.add_zero] at hlen
  rw [hls, hl, ← hlen, List.getElem?_append_right (Nat.le_refl _), Nat.sub_self]
  rfl

theorem lowersInPlace_of (hdot : 'İ' ∉ cs) (hsigma : ¬HasFinalSigma cs) : LowersInPlace cs := by
  intro i l hl
  have hlt : i < cs.length := by
    have hi := (List.getElem?_eq_some_iff.1 hl).1
    rwa [length_lowerChars, List.count_eq_zero_of_not_mem hdot] at hi
  obtain ⟨before, c, after, rfl, rfl⟩ : ∃ before c after, cs = before ++ c :: after ∧ before.length = i :=
    ⟨cs.take i, cs[i], cs.drop (i + 1), by rw [← List.drop_eq_getElem_cons, List.take_append_drop],
      List.length_take_of_le (Nat.le_of_lt hlt)⟩
  have hc : c ≠ 'İ' := fun h => hdot (by simp [h])
  have halone : lowerBetween before.reverse c after = lowerChars [c] := lowerBetween_eq fun h hends =>
    hsigma ⟨before, after, by rw [h], hends⟩
  obtain ⟨d, hd⟩ := List.length_eq_one_iff.1 ((length_lowerBetween before.reverse c after).trans (if_neg hc))
  have hplace := getElem?_lowerChars (fun h => hdot (List.mem_append_left _ h)) hd
  refine ⟨c, by simp, ?_⟩
  rw [hplace, Option.some_inj] at hl
  rw [← halone, hd, hl]
  exact List.mem_singleton_self l

/-- The text has its letters in lower case at the places of its characters exactly if none of them has two letters,
and none another one than it has alone. -/
theorem lowersInPlace_iff : LowersInPlace cs ↔ 'İ' ∉ cs ∧ ¬HasFinalSigma cs := by
  refine ⟨fun h => ?_, fun h => lowersInPlace_of h.1 h.2⟩
  have hdot : 'İ' ∉ cs := by
    intro hmem
    -- there are more letters than characters, so the last one has no place
    have hcount := List.count_pos_iff.2 hmem
    have hlen := length_lowerChars cs
    have hlast : cs.length < (lowerChars cs).length := by omega
    obtain ⟨c, hc, -⟩ := h cs.length _ (List.getElem?_eq_getElem hlast)
    simp at hc
  refine ⟨hdot, ?_⟩
  rintro ⟨before, after, rfl, hends⟩
  obtain ⟨l, hl, hnot⟩ := final_not_mem hends
  obtain ⟨c, hc, hmem⟩ := h before.length l (getElem?_lowerChars (fun h => hdot (List.mem_append_left _ h)) hl)
  simp only [List.getElem?_append_right (Nat.le_refl _), Nat.sub_self, List.getElem?_cons_zero, Option.some_inj] at hc
  rw [← hc] at hmem
  exact hnot hmem

end Text

namespace Shell

open TableQuery.Text

variable {place : Nat} {inRow : Bool} {ps cs : List Char} {m : FuzzyMatch}

/-! ## The search -/

/-- To take the next equal letter each time misses no subsequence. -/
theorem fuzzyFrom_isSome_iff : (fuzzyFrom place inRow ps cs).isSome = true ↔ ps.Sublist cs := by
  fun_induction fuzzyFrom place inRow ps cs with
  | case1 => simp
  | case2 => simp
  | case3 place inRow ps c cs ih => rw [Option.isSome_map, ih, List.cons_sublist_cons]
  | case4 place inRow p ps c cs hc ih =>
    rw [ih]
    refine ⟨fun h => h.cons c, fun h => ?_⟩
    cases h with
    | cons _ h => exact h
    | cons_cons => exact absurd rfl hc

/-- The places of a match increase, and the letters of the pattern stand at them. -/
theorem fuzzyFrom_places (done : List Char) (hplace : done.length = place) (h : fuzzyFrom place inRow ps cs = some m) :
    m.indices.Pairwise (· < ·) ∧ (∀ i ∈ m.indices, place ≤ i) ∧
      List.Forall₂ (fun p i => (done ++ cs)[i]? = some p) ps m.indices := by
  fun_induction fuzzyFrom place inRow ps cs generalizing done m with
  | case1 =>
    cases h
    exact ⟨.nil, (fun i hi => by cases hi), .nil⟩
  | case2 => cases h
  | case3 place inRow ps c cs ih =>
    obtain ⟨m', hm', rfl⟩ := Option.map_eq_some_iff.1 h
    obtain ⟨hpair, hle, hat⟩ := ih (done ++ [c]) (by rw [List.length_append, hplace]; rfl) hm'
    rw [List.append_assoc, List.singleton_append] at hat
    refine ⟨.cons hle hpair, List.forall_mem_cons.2 ⟨Nat.le_refl _, fun i hi => Nat.le_of_succ_le (hle i hi)⟩,
      .cons ?_ hat⟩
    rw [← hplace, List.getElem?_append_right (Nat.le_refl _), Nat.sub_self]
    rfl
  | case4 place inRow p ps c cs hc ih =>
    obtain ⟨hpair, hle, hat⟩ := ih (done ++ [c]) (by rw [List.length_append, hplace]; rfl) h
    rw [List.append_assoc, List.singleton_append] at hat
    exact ⟨hpair, fun i hi => Nat.le_of_succ_le (hle i hi), hat⟩

/-- Each letter scores three at most, and the first letter of the candidate five more. -/
theorem fuzzyFrom_score (h : fuzzyFrom place inRow ps cs = some m) :
    0 ≤ m.score ∧ m.score ≤ 3 * ps.length + if place = 0 then 5 else 0 := by
  fun_induction fuzzyFrom place inRow ps cs generalizing m with
  | case1 =>
    cases h
    constructor
    · exact Int.le_refl _
    · split <;> simp
  | case2 => cases h
  | case3 place inRow ps c cs ih =>
    obtain ⟨m', hm', rfl⟩ := Option.map_eq_some_iff.1 h
    obtain ⟨hlow, hhigh⟩ := ih hm'
    rw [if_neg (Nat.succ_ne_zero place)] at hhigh
    rw [List.length_cons]
    constructor <;> cases inRow <;> simp only [Bool.false_eq_true, if_true, if_false] <;> split <;> omega
  | case4 place inRow p ps c cs hc ih =>
    obtain ⟨hlow, hhigh⟩ := ih h
    rw [if_neg (Nat.succ_ne_zero place)] at hhigh
    refine ⟨hlow, ?_⟩
    split <;> omega

/-- An integer of 32 bits is enough for the score of a pattern of this length. -/
theorem fuzzyMatch_score_range {pattern candidate : String} (hp : (lowerChars pattern.toList).length ≤ 715827880)
    (h : fuzzyMatch pattern candidate = some m) : 0 ≤ m.score ∧ m.score ≤ Int32.maxValue.toInt := by
  obtain ⟨hlow, hhigh⟩ := fuzzyFrom_score h
  rw [if_pos rfl] at hhigh
  rw [Int32.toInt_maxValue]
  omega

/-- A text matches itself letter by letter. -/
theorem fuzzyFrom_self (cs : List Char) (place : Nat) (inRow : Bool) : ∃ score,
    fuzzyFrom place inRow cs cs = some ⟨score, List.range' place cs.length⟩ := by
  induction cs generalizing place inRow with
  | nil => exact ⟨0, rfl⟩
  | cons c cs ih =>
    obtain ⟨score, hscore⟩ := ih (place + 1) true
    exact ⟨_, by rw [fuzzyFrom, if_pos rfl, hscore]; rfl⟩

/-! ## Indices in the candidate -/

/-- One index for each letter of the pattern in lower case, of a character of the candidate that has this letter
in lower case. -/
def Usable (pattern candidate : String) (indices : List Nat) : Prop :=
  List.Forall₂ (fun p i => ∃ c, candidate.toList[i]? = some c ∧ p ∈ lowerChars [c]) (lowerChars pattern.toList) indices

theorem usable_of_lowersInPlace {pattern candidate : String} (h : LowersInPlace candidate.toList)
    (hm : fuzzyMatch pattern candidate = some m) : Usable pattern candidate m.indices :=
  (fuzzyFrom_places [] rfl hm).2.2.imp fun p i hp => h i p hp

/-- The candidate as a pattern has its own places as indices. -/
theorem lowersInPlace_of_usable {candidate : String}
    (h : ∀ m, fuzzyMatch candidate candidate = some m → Usable candidate candidate m.indices) :
    LowersInPlace candidate.toList := by
  intro i l hl
  obtain ⟨score, hself⟩ := fuzzyFrom_self (lowerChars candidate.toList) 0 false
  have husable := List.forall₂_iff_get.1 (h _ hself)
  obtain ⟨hlt, rfl⟩ := List.getElem?_eq_some_iff.1 hl
  have hi := husable.2 i hlt (by simpa using hlt)
  simpa using hi

/-- A pattern matches exactly if it is a subsequence of the candidate, both in lower case; the indices increase, one
for each letter, and lead to these letters in the candidate in lower case. They lead to characters of the candidate
with these letters, for every pattern, exactly if the candidate has neither a dotted capital I nor a capital sigma
at the end of a word. -/
theorem fuzzyMatch_iff (candidate : String) :
    (∀ pattern : String,
      ((fuzzyMatch pattern candidate).isSome = true ↔
        (lowerChars pattern.toList).Sublist (lowerChars candidate.toList)) ∧
      ∀ m, fuzzyMatch pattern candidate = some m → m.indices.Pairwise (· < ·) ∧
        List.Forall₂ (fun p i => (lowerChars candidate.toList)[i]? = some p) (lowerChars pattern.toList) m.indices) ∧
    ((∀ pattern : String, ∀ m, fuzzyMatch pattern candidate = some m → Usable pattern candidate m.indices) ↔
      'İ' ∉ candidate.toList ∧ ¬HasFinalSigma candidate.toList) := by
  refine ⟨fun pattern => ⟨fuzzyFrom_isSome_iff, fun m hm => ?_⟩, ?_⟩
  · obtain ⟨hpair, -, hat⟩ := fuzzyFrom_places [] rfl hm
    exact ⟨hpair, hat⟩
  · rw [← lowersInPlace_iff]
    exact ⟨fun h => lowersInPlace_of_usable (h candidate), fun h pattern m hm => usable_of_lowersInPlace h hm⟩

/-- The dot of the capital I is a letter of its own in lower case, and the indices of the letters behind it lead
one character too far. -/
theorem not_fuzzyMatch_usable : ¬∀ pattern candidate : String, ∀ m, fuzzyMatch pattern candidate = some m →
    Usable pattern candidate m.indices := by
  intro h
  have hm : fuzzyMatch "q" "İq" = some ⟨1, [2]⟩ := rfl
  cases h _ _ _ hm with
  | cons hq _ =>
    obtain ⟨c, hc, -⟩ := hq
    have hnone : "İq".toList[2]? = none := by decide
    rw [hnone] at hc
    cases hc

end Shell

end TableQuery
