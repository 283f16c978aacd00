/-
Cutting a text into lexemes. What a step leaves of a text is an end of it, so the lexemes of a text are the one that
its first step reads and those of what this step leaves, however many steps are allowed. Texts between quotes are
read back exactly from the spelling in which each quote inside of them is doubled.
-/
import TableQuery.Proofs.Sql.Lexing

namespace TableQuery.Sql.Lexeme

section

variable {c q : Char} {cs s rest : List Char} {l : Lexeme}

/-! ## What a step leaves -/

theorem readEscaped_suffix (h : readEscaped cs = some (s, rest)) : rest <:+ cs := by
  fun_induction readEscaped cs generalizing s with
  | case1 | case3 => cases h
  | case2 =>
    cases h
    exact ⟨['\''], rfl⟩
  | case4 r ih =>
    obtain ⟨⟨s', rest'⟩, hr, he⟩ := Option.map_eq_some_iff.1 h
    cases he
    exact (ih hr).trans ⟨['\'', '\''], rfl⟩
  | case5 d r hd =>
    cases h
    exact ⟨['\''], rfl⟩
  | case6 d r _ ih =>
    -- a backslash and the character behind it
    obtain ⟨⟨s', rest'⟩, hr, he⟩ := Option.map_eq_some_iff.1 h
    cases he
    exact (ih hr).trans ⟨['\\', d], rfl⟩
  | case7 c d r hc hb ih =>
    obtain ⟨⟨s', rest'⟩, hr, he⟩ := Option.map_eq_some_iff.1 h
    cases he
    exact (ih hr).trans ⟨[c], rfl⟩

theorem splitAtMark_suffix {mark : List Char} (h : splitAtMark mark cs = some (s, rest)) : rest <:+ cs := by
  fun_induction splitAtMark mark cs generalizing s with
  | case1 => cases h
  | case2 c r hmark =>
    cases h
    exact List.drop_suffix _ _
  | case3 c r hmark ih =>
    obtain ⟨⟨s', rest'⟩, hr, he⟩ := Option.map_eq_some_iff.1 h
    cases he
    exact (ih hr).trans (List.suffix_cons c r)

theorem readWord_suffix (h : readWord c cs = .ok (l, rest)) : rest <:+ cs := by
  unfold readWord at h
  split at h
  · split_ifs at h
    · split at h
      · rename_i hread
        cases h
        exact (readEscaped_suffix hread).trans (List.suffix_cons _ _)
      · cases h
    · cases h
      exact List.suffix_rfl
  · cases h
    exact List.dropWhile_suffix _

theorem readDollar_suffix (h : readDollar cs = .ok (l, rest)) : rest <:+ cs := by
  unfold readDollar at h
  dsimp only at h
  split at h
  · rename_i r hr
    split at h
    · rename_i hread
      cases h
      refine (splitAtMark_suffix hread).trans ((List.suffix_cons '$' r).trans ?_)
      rw [← hr]
      exact List.dropWhile_suffix _
    · cases h
  · cases h
    exact List.dropWhile_suffix _

theorem readSymbol_suffix (h : readSymbol c cs = (l, rest)) : rest <:+ cs := by
  unfold readSymbol at h
  split at h
  · rename_i s hfind
    cases h
    obtain ⟨d, s', hcons⟩ := List.exists_cons_of_ne_nil (operator_of_mem (List.mem_of_find?_eq_some hfind)).nonempty
    rw [hcons, List.length_cons, List.drop_succ_cons]
    exact List.drop_suffix _ _
  · cases h
    exact List.suffix_rfl

theorem read_suffix {l : Option Lexeme} (h : read c cs = .ok (l, rest)) : rest <:+ cs := by
  by_cases hc : c = '$'
  · subst hc
    have hdollar : read '$' cs = readDollar cs >>= fun r => pure (some r.1, r.2) := rfl
    rw [hdollar] at h
    obtain ⟨⟨l', rest'⟩, hread, h⟩ := bind_ok h
    cases h
    exact readDollar_suffix hread
  have hstarts := starts c cs
  rw [h] at hstarts
  generalize hr : (Except.ok (l, rest) : Except SyntaxFault _) = r at hstarts
  cases hstarts with
  | skipped hfirst =>
    cases hr
    exact Rules.first_suffix hfirst
  | quoted _ hread =>
    cases hr
    exact readQuoted_suffix hread
  | unclosed => cases hr
  | number hc hread =>
    cases hr
    exact (passes_readNumber hc hread).2.suffix
  | word =>
    obtain ⟨⟨w, rest'⟩, hread, hr⟩ := bind_ok hr.symm
    cases hr
    exact readWord_suffix hread
  | dollar hdollar => exact absurd hdollar hc
  | parameter =>
    cases hr
    exact List.dropWhile_suffix _
  | symbol _ hread =>
    cases hr
    exact readSymbol_suffix hread

/-! ## Steps -/

theorem readAll_congr : ∀ {n m : Nat} {cs : List Char}, cs.length ≤ n → cs.length ≤ m → readAll n cs = readAll m cs
  | n, m, [], _, _ => by rw [readAll_nil, readAll_nil]
  | n + 1, m + 1, c :: cs, hn, hm => by
    rw [readAll_cons, readAll_cons]
    refine bind_congr_ok fun ⟨l, rest⟩ ha => ?_
    have hlen := (read_suffix ha).length_le
    rw [List.length_cons] at hn hm
    have hrest : readAll n rest = readAll m rest := readAll_congr (by omega) (by omega)
    simp only [hrest]

/-- The first step, and the others on what it leaves. -/
theorem ofChars_cons (c : Char) (cs : List Char) : ofChars (c :: cs) = (do
    let (l, rest) ← read c cs
    return l.toList ++ (← ofChars rest)) := by
  refine (readAll_cons cs.length c cs).trans (bind_congr_ok fun ⟨l, rest⟩ ha => ?_)
  have hrest : readAll cs.length rest = ofChars rest := readAll_congr (read_suffix ha).length_le (Nat.le_refl _)
  simp only [hrest]

end

/-! ## Beginnings of texts -/

/-- The lexer reads these lexemes of a text and has this rest before it. -/
inductive Reaches : List Char → List Lexeme → List Char → Prop where
  | refl (cs : List Char) : Reaches cs [] cs
  | step {c : Char} {cs rest behind : List Char} {l : Option Lexeme} {ls : List Lexeme} (h : read c cs = .ok (l, rest))
      (hrest : Reaches rest ls behind) : Reaches (c :: cs) (l.toList ++ ls) behind

namespace Reaches

variable {cs rest behind : List Char} {ls ms : List Lexeme}

theorem trans (h : Reaches cs ls rest) (h' : Reaches rest ms behind) : Reaches cs (ls ++ ms) behind := by
  induction h with
  | refl => exact h'
  | step hread _ ih =>
    rw [List.append_assoc]
    exact .step hread (ih h')

theorem of_read {c : Char} {l : Lexeme} (h : read c cs = .ok (some l, rest)) : Reaches (c :: cs) [l] rest :=
  .step h (.refl rest)

theorem blank {c : Char} (hc : Text.isBlank c = true) (cs : List Char) : Reaches (c :: cs) [] cs :=
  .step (if_pos hc) (.refl cs)

theorem ofChars_eq (h : Reaches cs ls rest) : ofChars cs = (ofChars rest).map (ls ++ ·) := by
  induction h with
  | refl cs => cases ofChars cs <;> rfl
  | step hread _ ih =>
    rw [ofChars_cons, hread, ok_bind]
    dsimp only
    rw [ih, map_bind_eq]
    simp only [List.append_assoc]
    rfl

theorem ofChars_nil (h : Reaches cs ls []) : ofChars cs = .ok ls := by
  rw [h.ofChars_eq]
  exact congrArg Except.ok (List.append_nil ls)

end Reaches

/-- The characters are a name that starts with the first of them. -/
def isName (c : Char) (w : List Char) : Bool := isNameStart c && !(c.isDigit || c = '.') && w.all isNamePart

variable {c d : Char} {w : List Char}

theorem readWord_of_isName (hw : isName c w = true) (hd : isNamePart d = false) (hquote : d ≠ '\'') (cs : List Char) :
    readWord c (w ++ d :: cs) = .ok (.word (.plain (String.ofList (c :: w))), d :: cs) := by
  simp only [isName, Bool.and_eq_true, List.all_eq_true] at hw
  have hparts := hw.2
  have htake : (w ++ d :: cs).takeWhile isNamePart = w := by
    rw [List.takeWhile_append_of_pos hparts, List.takeWhile_cons_of_neg (by simp [hd]), List.append_nil]
  have hdrop : (w ++ d :: cs).dropWhile isNamePart = d :: cs := by
    rw [List.dropWhile_append_of_pos hparts, List.dropWhile_cons_of_neg (by simp [hd])]
  unfold readWord
  split
  · rename_i r hr
    -- a quote is neither part of a name nor the end of this one
    cases w with
    | nil => exact absurd (List.cons.inj hr).1 hquote
    | cons e w =>
      obtain ⟨rfl, -⟩ := List.cons.inj hr
      exact absurd (hparts _ List.mem_cons_self) (by decide)
  · rw [htake, hdrop]

/-- A word ends at the first character that is no part of it. -/
theorem reaches_word (hw : isName c w = true) (hd : isNamePart d = false) (hquote : d ≠ '\'') (cs : List Char) :
    Reaches (c :: (w ++ d :: cs)) [.word (.plain (String.ofList (c :: w)))] (d :: cs) := by
  have hword := readWord_of_isName hw hd hquote cs
  simp only [isName, Bool.and_eq_true, Bool.not_eq_true'] at hw
  obtain ⟨⟨hstart, hnumber⟩, -⟩ := hw
  obtain ⟨hblank, hquotes, -, hdash, hslash⟩ := isNeutral_iff.1 (isNeutral_of_isNameStart hstart)
  have htext : c ≠ '\'' := fun h => hquotes (h ▸ by decide)
  have hnames : c ∉ nameQuotes := fun h => hquotes (List.mem_cons_of_mem _ h)
  refine .of_read ?_
  unfold read
  rw [if_neg (by simp [hblank]), if_neg (by simp [hdash]), if_neg (by simp [hslash]), if_neg htext,
    if_neg (by simpa using hnames), if_neg (by simp [hnumber]), if_pos hstart, hword]
  rfl

/-- A keyword and the blank behind it. -/
theorem reaches_keyword {k : Word} (hw : isName c w = true)
    (hk : Word.plain (String.ofList (c :: w)) = k) (cs : List Char) : Reaches (c :: (w ++ ' ' :: cs)) [.word k] cs := by
  rw [← hk]
  exact (reaches_word hw (by decide +kernel) (by decide) cs).trans (.blank rfl cs)

/-! ## Quoted texts -/

/-- The spelling of a text between quotes. -/
def doubled (q : Char) (s : List Char) : List Char := s.flatMap fun c => if c = q then [q, q] else [c]

variable {q : Char} {s cs rest : List Char}

theorem doubled_cons_self (q : Char) (s : List Char) : doubled q (q :: s) = q :: q :: doubled q s := by
  simp [doubled]

theorem doubled_cons_of_ne {c : Char} (h : c ≠ q) (s : List Char) : doubled q (c :: s) = c :: doubled q s := by
  simp [doubled, h]

theorem doubled_of_not_mem (h : q ∉ s) : doubled q s = s := by
  unfold doubled
  induction s with
  | nil => rfl
  | cons c s ih =>
    rw [List.mem_cons, not_or] at h
    rw [List.flatMap_cons, if_neg (Ne.symm h.1), ih h.2]
    rfl

theorem readQuoted_cons_of_ne {c : Char} (h : c ≠ q) (cs : List Char) :
    readQuoted q (c :: cs) = (readQuoted q cs).map fun (s, rest) => (c :: s, rest) := by
  cases cs <;> simp [readQuoted, h]

/-- A text and what stands behind its closing quote are exactly what they were. -/
theorem readQuoted_eq_some_iff :
    readQuoted q cs = some (s, rest) ↔ cs = doubled q s ++ q :: rest ∧ rest.head? ≠ some q := by
  constructor
  · intro h
    fun_induction readQuoted q cs generalizing s with
    | case1 | case3 => cases h
    | case2 =>
      cases h
      exact ⟨rfl, by simp⟩
    | case4 r ih =>
      obtain ⟨⟨s', rest'⟩, hr, he⟩ := Option.map_eq_some_iff.1 h
      cases he
      obtain ⟨rfl, hhead⟩ := ih hr
      exact ⟨by rw [doubled_cons_self]; rfl, hhead⟩
    | case5 d r hd =>
      cases h
      exact ⟨rfl, by simpa using hd⟩
    | case6 c d r hc ih =>
      obtain ⟨⟨s', rest'⟩, hr, he⟩ := Option.map_eq_some_iff.1 h
      cases he
      obtain ⟨hcs, hhead⟩ := ih hr
      exact ⟨by rw [doubled_cons_of_ne hc, hcs]; rfl, hhead⟩
  · rintro ⟨rfl, hhead⟩
    induction s with
    | nil =>
      cases rest with
      | nil => simp [doubled, readQuoted]
      | cons d r =>
        have hd : d ≠ q := by simpa using hhead
        simp [doubled, readQuoted, hd]
    | cons c s ih =>
      by_cases hc : c = q
      · subst hc
        rw [doubled_cons_self, List.cons_append, List.cons_append, readQuoted, if_pos rfl, if_pos rfl, ih]
        rfl
      · rw [doubled_cons_of_ne hc, List.cons_append, readQuoted_cons_of_ne hc, ih]
        rfl

theorem read_text (cs : List Char) : read '\'' cs = match readQuoted '\'' cs with
    | some (s, rest) => .ok (some (.text (String.ofList s)), rest)
    | none => .error .unclosedText := rfl

theorem reaches_text {cs s rest : List Char} (h : readQuoted '\'' cs = some (s, rest)) :
    Reaches ('\'' :: cs) [.text (String.ofList s)] rest := by
  refine .of_read ?_
  rw [read_text, h]

/-- A spelling that is ahead of a text by one quote or more stays so, whatever the text. -/
theorem replicate_append_doubled_ne {d : Char} {r : List Char} (hd : d ≠ q) (s : List Char) (k : Nat) :
    List.replicate (k + 1) q ++ (doubled q s ++ q :: rest) ≠ s ++ q :: d :: r := by
  induction s generalizing k with
  | nil =>
    intro h
    cases k <;> simp_all [List.replicate_succ, doubled]
  | cons c s ih =>
    intro h
    rw [List.replicate_succ, List.cons_append, List.cons_append, List.cons.injEq] at h
    obtain ⟨rfl, h⟩ := h
    refine ih (k + 1) (Eq.trans ?_ h)
    rw [doubled_cons_self, List.replicate_succ', List.replicate_succ']
    simp

/-- Between quotes without doubling, only a text without quotes is read back. -/
theorem not_mem_of_doubled_eq {d : Char} {r : List Char} (hd : d ≠ q)
    (h : doubled q s ++ q :: rest = s ++ q :: d :: r) : q ∉ s := by
  induction s with
  | nil => exact List.not_mem_nil
  | cons c s ih =>
    by_cases hc : c = q
    · -- from the first quote on, the spelling is ahead
      subst hc
      rw [doubled_cons_self, List.cons_append, List.cons_append, List.cons_append, List.cons.injEq] at h
      exact absurd h.2 (replicate_append_doubled_ne hd s 0)
    · rw [doubled_cons_of_ne hc, List.cons_append, List.cons_append, List.cons.injEq] at h
      rw [List.mem_cons, not_or]
      exact ⟨Ne.symm hc, ih h.2⟩

end TableQuery.Sql.Lexeme
