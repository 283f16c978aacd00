/-
Completion at a position between two characters. The word to be completed is taken to start one byte behind
the start of the last separator before the position; so there are suggestions exactly if that separator is a
character of one byte, and none, as the line would be cut inside a character, behind white space of several
bytes. What a suggestion stands for ends at the position and starts between two characters, and other than for
a command it is the longest end of the text before the position without a separator.
-/
import TableQuery.Shell.Completion
import TableQuery.Proofs.Text.Slice

namespace TableQuery.Shell

open TableQuery.Text

variable {k : Known} {p : Char → Bool} {cs before after word : List Char} {first last : Nat}

/-! ## The last character with a property -/

theorem beforeLast?_eq_none (h : beforeLast? p cs = none) : ∀ c ∈ cs, p c = false := by
  fun_induction beforeLast? p cs with
  | case1 => exact fun c hc => by cases hc
  | case2 => cases h
  | case3 => cases h
  | case4 c r hr hp ih => exact List.forall_mem_cons.2 ⟨Bool.eq_false_iff.2 hp, ih hr⟩

theorem beforeLast?_eq_some (h : beforeLast? p cs = some before) :
    ∃ c word, cs = before ++ c :: word ∧ p c = true ∧ ∀ d ∈ word, p d = false := by
  fun_induction beforeLast? p cs generalizing before with
  | case1 => cases h
  | case2 c r before' hr ih =>
    cases h
    obtain ⟨d, word, rfl, hd, hword⟩ := ih hr
    exact ⟨d, word, rfl, hd, hword⟩
  | case3 c r hr hp =>
    cases h
    exact ⟨c, r, rfl, hp, beforeLast?_eq_none hr⟩
  | case4 => cases h

/-! ## Words -/

/-- The longest end of a text with no separator in it. -/
def IsLastWord (before word : List Char) : Prop := word <:+ before ∧ (∀ c ∈ word, isSeparator c = false) ∧
  ∀ w, w <:+ before → (∀ c ∈ w, isSeparator c = false) → w <:+ word

theorem isLastWord_self (h : ∀ c ∈ before, isSeparator c = false) : IsLastWord before before :=
  ⟨List.suffix_refl _, h, fun _ hw _ => hw⟩

theorem isLastWord_behind {c : Char} (hc : isSeparator c = true) (h : ∀ d ∈ word, isSeparator d = false) :
    IsLastWord (before ++ c :: word) word := by
  have hsuffix : word <:+ before ++ c :: word := ⟨before ++ [c], by simp⟩
  refine ⟨hsuffix, h, fun w hw hnone => (List.suffix_or_suffix_of_suffix hw hsuffix).elim id fun hlonger => ?_⟩
  obtain ⟨x, rfl⟩ := hlonger
  obtain ⟨u, hu⟩ := hw
  rcases List.eq_nil_or_concat x with rfl | ⟨y, d, rfl⟩
  · exact List.suffix_refl _
  · -- a longer end has the separator in it
    have happend : ((u ++ y) ++ [d]) ++ word = (before ++ [c]) ++ word := by simpa using hu
    have hsplit := List.append_cancel_right happend
    have hd : d = c := (List.append_inj' hsplit rfl).2 |> List.singleton_inj.1
    rw [hnone c (by simp [hd])] at hc
    cases hc

def lastSeparator? (before : List Char) : Option Char := (before.filter isSeparator).getLast?

theorem lastSeparator?_of_none (h : ∀ c ∈ before, isSeparator c = false) : lastSeparator? before = none := by
  rw [lastSeparator?, List.filter_eq_nil_iff.2 fun c hc => by simp [h c hc], List.getLast?_nil]

theorem lastSeparator?_append (front : List Char) {c : Char} (hc : isSeparator c = true)
    (h : ∀ d ∈ word, isSeparator d = false) : lastSeparator? (front ++ c :: word) = some c := by
  have hword : word.filter isSeparator = [] := List.filter_eq_nil_iff.2 fun d hd => by simp [h d hd]
  rw [lastSeparator?, List.filter_append, List.filter_cons_of_pos hc, hword, List.getLast?_concat]

/-- A period starts the part to be completed of a command. -/
theorem commandStart_split (before : List Char) : ∃ front word, before = front ++ word ∧
    commandStart before = byteLength front := by
  unfold commandStart
  cases hb : beforeLast? (· == '.') before with
  | none => exact ⟨[], before, rfl, rfl⟩
  | some front =>
    obtain ⟨c, word, hsplit, -, -⟩ := beforeLast?_eq_some hb
    exact ⟨front, c :: word, hsplit, rfl⟩

/-- The last separator is a character of several bytes. -/
def BehindLong (before : List Char) : Prop := ∃ c, lastSeparator? before = some c ∧ 128 ≤ c.toNat

/-- The byte behind the first one of the last separator starts the last word, or is inside the separator. -/
theorem wordStart_cases (before : List Char) :
    (BehindLong before ∧ slice? before (wordStart before) (byteLength before) = none) ∨
    (¬BehindLong before ∧ ∃ front word, before = front ++ word ∧ wordStart before = byteLength front ∧
      IsLastWord before word) := by
  cases hb : beforeLast? isSeparator before with
  | none =>
    have hnone := beforeLast?_eq_none hb
    refine .inr ⟨?_, [], before, rfl, by rw [wordStart, hb]; rfl, isLastWord_self hnone⟩
    rintro ⟨c, hc, -⟩
    rw [lastSeparator?_of_none hnone] at hc
    cases hc
  | some front =>
    obtain ⟨c, word, rfl, hc, hword⟩ := beforeLast?_eq_some hb
    have hlast := lastSeparator?_append front hc hword
    have hstart : wordStart (front ++ c :: word) = byteLength front + 1 := by rw [wordStart, hb]
    rw [hstart]
    by_cases hlong : 128 ≤ c.toNat
    · refine .inl ⟨⟨c, hlast, hlong⟩, slice?_inside front Nat.one_pos ?_ word⟩
      have hsize : c.utf8Size ≠ 1 := fun h => Nat.not_le.2 (utf8Size_eq_one_iff.1 h) hlong
      have hpos := c.utf8Size_pos
      omega
    · have hsize := utf8Size_eq_one_iff.2 (Nat.not_le.1 hlong)
      refine .inr ⟨?_, front ++ [c], word, by simp, ?_, isLastWord_behind hc hword⟩
      · rintro ⟨d, hd, hlong'⟩
        rw [hlast, Option.some_inj] at hd
        exact hlong (hd ▸ hlong')
      · rw [byteLength_append, byteLength_cons, hsize, byteLength_nil]

/-! ## Suggestions -/

/-- A suggestion ends at the cursor and starts between two characters; other than for a command, it stands for the
last word. -/
def Spans (before : List Char) (s : Suggestion) : Prop :=
  s.first ≤ s.last ∧ s.last = byteLength before ∧ ∃ front word, before = front ++ word ∧ s.first = byteLength front ∧
    (placeOf before ≠ .command → IsLastWord before word)

theorem mem_fitting {w : String} {candidates : List (String × String)} {x : Int × Suggestion}
    (h : x ∈ fitting w first last candidates) : x.2.first = first ∧ x.2.last = last := by
  obtain ⟨⟨value, description⟩, -, hx⟩ := List.mem_filterMap.1 h
  obtain ⟨m, -, rfl⟩ := Option.map_eq_some_iff.1 hx
  exact ⟨rfl, rfl⟩

theorem candidate_of_mem_fitting {w : String} {candidates : List (String × String)} {x : Int × Suggestion}
    (h : x ∈ fitting w first last candidates) : (x.2.value, x.2.description) ∈ candidates := by
  obtain ⟨⟨value, description⟩, hc, hx⟩ := List.mem_filterMap.1 h
  obtain ⟨m, -, rfl⟩ := Option.map_eq_some_iff.1 hx
  exact hc

theorem spans_of_mem_fitting {front : List Char} {w : String} {candidates : List (String × String)}
    {x : Int × Suggestion} (hsplit : before = front ++ word)
    (hword : placeOf before ≠ .command → IsLastWord before word)
    (h : x ∈ fitting w (byteLength front) (byteLength before) candidates) : Spans before x.2 := by
  obtain ⟨hfirst, hlast⟩ := mem_fitting h
  refine ⟨?_, hlast, front, word, hsplit, hfirst, hword⟩
  rw [hfirst, hlast, hsplit, byteLength_append]
  exact Nat.le_add_right _ _

theorem completeCommand_of_slice (h : slice? before (commandStart before) (byteLength before) = some word) :
    completeCommand before =
      some ((fitting (String.ofList word) (commandStart before) (byteLength before) commands).map (·.2)) := by
  rw [completeCommand, h]
  rfl

theorem completeCommand_spans (h : placeOf before = .command) :
    ∃ found, completeCommand before = some found ∧ ∀ s ∈ found, Spans before s := by
  obtain ⟨front, word, hsplit, hstart⟩ := commandStart_split before
  have hslice : slice? before (commandStart before) (byteLength before) = some word := by
    rw [hstart, hsplit]
    exact slice?_end front word
  refine ⟨_, completeCommand_of_slice hslice, fun s hs => ?_⟩
  obtain ⟨x, hx, rfl⟩ := List.mem_map.1 hs
  rw [hstart] at hx
  exact spans_of_mem_fitting hsplit (fun hne => absurd h hne) hx

theorem completeWord_of_none (candidates : List (String × String))
    (h : slice? before (wordStart before) (byteLength before) = none) : completeWord candidates before = none := by
  rw [completeWord, h]
  rfl

theorem completeWord_of_slice (candidates : List (String × String))
    (h : slice? before (wordStart before) (byteLength before) = some word) :
    completeWord candidates before = some (if word.isEmpty then [] else
      ((fitting (String.ofList word) (wordStart before) (byteLength before) candidates).mergeSort
        fun a b => b.1 ≤ a.1).map (·.2)) := by
  rw [completeWord, h]
  cases word <;> rfl

theorem completeWord_cases (candidates : List (String × String)) (before : List Char) :
    (BehindLong before ∧ completeWord candidates before = none) ∨
    (¬BehindLong before ∧ ∃ found, completeWord candidates before = some found ∧ ∀ s ∈ found, Spans before s) := by
  obtain ⟨hlong, hslice⟩ | ⟨hshort, front, word, hsplit, hstart, hword⟩ := wordStart_cases before
  · exact .inl ⟨hlong, completeWord_of_none candidates hslice⟩
  · have hslice : slice? before (wordStart before) (byteLength before) = some word := by
      rw [hstart, hsplit]
      exact slice?_end front word
    refine .inr ⟨hshort, _, completeWord_of_slice candidates hslice, fun s hs => ?_⟩
    split at hs
    · cases hs
    · obtain ⟨x, hx, rfl⟩ := List.mem_map.1 hs
      rw [List.mem_mergeSort, hstart] at hx
      exact spans_of_mem_fitting hsplit (fun _ => hword) hx

theorem candidate_of_mem_completeWord {candidates : List (String × String)} {found : List Suggestion} {s : Suggestion}
    (h : completeWord candidates before = some found) (hs : s ∈ found) : (s.value, s.description) ∈ candidates := by
  cases hslice : slice? before (wordStart before) (byteLength before) with
  | none =>
    rw [completeWord_of_none candidates hslice] at h
    cases h
  | some word =>
    rw [completeWord_of_slice candidates hslice, Option.some_inj] at h
    subst h
    split at hs
    · cases hs
    · obtain ⟨x, hx, rfl⟩ := List.mem_map.1 hs
      exact candidate_of_mem_fitting (List.mem_mergeSort.1 hx)

theorem candidate_of_mem_completeCommand {found : List Suggestion} {s : Suggestion}
    (h : completeCommand before = some found) (hs : s ∈ found) : (s.value, s.description) ∈ commands := by
  unfold completeCommand at h
  obtain ⟨word, -, h⟩ := bind_some h
  cases h
  obtain ⟨x, hx, rfl⟩ := List.mem_map.1 hs
  exact candidate_of_mem_fitting hx

/-- Only candidates are suggested. -/
theorem candidate_of_mem_complete {line : String} {position : Nat} {found : List Suggestion} {s : Suggestion}
    (h : complete k line position = some found) (hs : s ∈ found) :
    (s.value, s.description) ∈ commands ∨ (s.value, s.description) ∈ tableCandidates k ∨
      (s.value, s.description) ∈ columnCandidates k := by
  unfold complete at h
  obtain ⟨before, -, h⟩ := bind_some h
  split at h
  · exact .inl (candidate_of_mem_completeCommand h hs)
  · exact .inr (.inl (candidate_of_mem_completeWord h hs))
  · exact .inr (.inr (candidate_of_mem_completeWord h hs))

theorem complete_eq (k : Known) (before after : List Char) :
    complete k (String.ofList (before ++ after)) (byteLength before) =
      match placeOf before with
      | .command => completeCommand before
      | .table => completeWord (tableCandidates k) before
      | .column => completeWord (columnCandidates k) before := by
  rw [complete, String.toList_ofList, slice?_zero]
  rfl

theorem complete_cases (k : Known) (before after : List Char) :
    (placeOf before ≠ .command ∧ BehindLong before ∧
      complete k (String.ofList (before ++ after)) (byteLength before) = none) ∨
    (¬(placeOf before ≠ .command ∧ BehindLong before) ∧
      ∃ found, complete k (String.ofList (before ++ after)) (byteLength before) = some found ∧
        ∀ s ∈ found, Spans before s) := by
  rw [complete_eq]
  cases hplace : placeOf before with
  | command => exact .inr ⟨fun h => h.1 rfl, completeCommand_spans hplace⟩
  | table => exact (completeWord_cases _ before).imp (fun h => ⟨nofun, h⟩) fun h => ⟨fun hn => h.1 hn.2, h.2⟩
  | column => exact (completeWord_cases _ before).imp (fun h => ⟨nofun, h⟩) fun h => ⟨fun hn => h.1 hn.2, h.2⟩

/-- At a position between two characters there are suggestions unless the last separator before it is white space
of several bytes, and each of them stands for the text from between two characters up to the position: in a
statement, for the last word. -/
theorem complete_iff (k : Known) (before after : List Char) :
    (complete k (String.ofList (before ++ after)) (byteLength before) = none ↔
      placeOf before ≠ .command ∧ BehindLong before) ∧
    ∀ found, complete k (String.ofList (before ++ after)) (byteLength before) = some found →
      ∀ s ∈ found, Spans before s := by
  obtain ⟨hplace, hlong, hnone⟩ | ⟨hok, found, hsome, hspans⟩ := complete_cases k before after
  · rw [hnone]
    exact ⟨iff_of_true rfl ⟨hplace, hlong⟩, fun found h => by cases h⟩
  · rw [hsome]
    refine ⟨iff_of_false nofun hok, fun found' h => ?_⟩
    cases h
    exact hspans

/-- Behind a no-break space, a separator of two bytes, the line would be cut inside it. -/
theorem not_complete_spans : ¬∀ (k : Known) (before after : List Char), ∃ found,
    complete k (String.ofList (before ++ after)) (byteLength before) = some found ∧ ∀ s ∈ found, Spans before s := by
  intro h
  obtain ⟨found, hfound, -⟩ := h {} ['\u00A0', 'a'] []
  have hplace : placeOf ['\u00A0', 'a'] = .column := by decide
  obtain ⟨hlong, hnone⟩ | ⟨hshort, -⟩ := completeWord_cases (columnCandidates {}) ['\u00A0', 'a']
  · rw [complete_eq, hplace, hnone] at hfound
    cases hfound
  · exact hshort ⟨'\u00A0', by decide, by decide⟩

end TableQuery.Shell
