/-
When a line is taken as complete. The scan of a line is the reading by the rules of the shell, which
know texts, names between double quotes and comments that end with their line: a line that is
neither blank nor a command is complete exactly when this reading is. A line in which the rules of
the language find no nested comment and no name between grave accents is read alike by both, and
there the answer is the one of the language.
-/
import TableQuery.Shell.Completeness
import TableQuery.Proofs.Sql.Lexing
import TableQuery.Proofs.Text.Blank

namespace TableQuery.Shell

open TableQuery.Sql

/-- The rules that the shell knows. -/
def rules : Rules := ⟨['\'', '\x22'], false⟩

/-- Neither blank nor a command. -/
def IsStatement (line : String) : Prop := ∃ c cs, Text.trimChars line.toList = c :: cs ∧ c ≠ '.'

theorem quotes_all : (rules.quotes.all fun q => !Text.isBlank q && q != ';') = true := by decide

theorem not_isBlank_of_mem_quotes {q : Char} (h : q ∈ rules.quotes) : Text.isBlank q = false := by
  have hq := List.all_eq_true.1 quotes_all q h
  simp only [Bool.and_eq_true, Bool.not_eq_true'] at hq
  exact hq.1

theorem ne_semicolon_of_mem_quotes {q : Char} (h : q ∈ rules.quotes) : q ≠ ';' := by
  have hq := List.all_eq_true.1 quotes_all q h
  simp only [Bool.and_eq_true, bne_iff_ne] at hq
  exact hq.2

theorem ne_of_isBlank {b c : Char} (hb : Text.isBlank b = true) (hc : Text.isBlank c = false) : b ≠ c := by
  rintro rfl
  rw [hb] at hc
  cases hc

namespace Scan

def isOpen (s : Scan) : Bool :=
  match s.mode with
  | .quoted _ => true
  | _ => false

/-- What the answer depends on: an open quote, the depth, and whether a semicolon stood last. -/
def outcome (s : Scan) : Bool × Int × Bool := (s.isOpen, s.depth, s.last == some ';')

theorem isClosed_eq (s : Scan) : s.isClosed = (decide (s.depth ≤ 0) && !s.isOpen) := by
  obtain ⟨mode, depth, last⟩ := s
  cases mode <;> rfl

theorem all_cons (s : Scan) (c : Char) (cs : List Char) : s.all (c :: cs) = (s.next c cs.head?).all cs := rfl

/-! ## One character -/

section Next

variable {depth : Int} {last : Option Char} {c : Char} {following : Option Char}

theorem next_blank (h : Text.isBlank c = true) : next ⟨.code, depth, last⟩ c following = ⟨.code, depth, last⟩ := by
  have hne {d : Char} (hd : Text.isBlank d = false) : c ≠ d := ne_of_isBlank h hd
  simp [next, h, hne (d := '\'') rfl, hne (d := '\x22') rfl, hne (d := '-') rfl, hne (d := '(') rfl, hne (d := ')') rfl]

theorem next_quote (h : c ∈ rules.quotes) : next ⟨.code, depth, last⟩ c following = ⟨.quoted c, depth, some c⟩ := by
  have hc : c = '\'' ∨ c = '\x22' := by simpa [rules] using h
  simp [next, hc]

theorem next_close {q : Char} : next ⟨.quoted q, depth, last⟩ q following = ⟨.code, depth, some q⟩ := by
  simp [next]

theorem next_inside {q : Char} (h : c ≠ q) :
    next ⟨.quoted q, depth, last⟩ c following = ⟨.quoted q, depth, last⟩ := by
  simp [next, h]

theorem next_dash : next ⟨.code, depth, last⟩ '-' (some '-') = ⟨.comment, depth, last⟩ := rfl

/-- The step of a parenthesis. -/
def turn (c : Char) : Int := if c = '(' then 1 else if c = ')' then -1 else 0

theorem next_char (hblank : Text.isBlank c = false) (hquote : c ∉ rules.quotes)
    (hdash : ¬(c = '-' ∧ following = some '-')) :
    next ⟨.code, depth, last⟩ c following = ⟨.code, depth + turn c, some c⟩ := by
  have hc : ¬(c = '\'' ∨ c = '\x22') := by simpa [rules] using hquote
  simp only [next, Bool.or_eq_true, Bool.and_eq_true, decide_eq_true_eq, hc, hdash, hblank, Bool.false_eq_true, if_false,
    turn]
  split_ifs <;> simp [Int.sub_eq_add_neg]

end Next

/-! ## Range of the depth -/

theorem natAbs_depth_next (s : Scan) (c : Char) (following : Option Char) :
    (s.next c following).depth.natAbs ≤ s.depth.natAbs + 1 := by
  obtain ⟨mode, depth, last⟩ := s
  cases mode <;> simp only [next] <;> split_ifs <;> simp only <;> omega

theorem natAbs_depth_all (s : Scan) (cs : List Char) : (s.all cs).depth.natAbs ≤ s.depth.natAbs + cs.length := by
  induction cs generalizing s with
  | nil => exact Nat.le_refl _
  | cons c cs ih =>
    have hnext := natAbs_depth_next s c cs.head?
    have hrest := ih (s.next c cs.head?)
    rw [all_cons, List.length_cons]
    omega

/-- An integer of 32 bits is enough to count the parentheses of a line of this length. -/
theorem depth_all_range {cs : List Char} (h : cs.length ≤ Int32.maxValue.toInt) :
    Int32.minValue.toInt ≤ (all {} cs).depth ∧ (all {} cs).depth ≤ Int32.maxValue.toInt := by
  have hdepth := natAbs_depth_all {} cs
  simp only [Int.natAbs_zero, Nat.zero_add] at hdepth
  simp only [Int32.toInt_maxValue, Int32.toInt_minValue] at *
  omega

/-! ## Pieces of a reading -/

theorem all_readQuoted_of_some {q : Char} (hq : q ∈ rules.quotes) {cs t rest : List Char}
    (h : Lexeme.readQuoted q cs = some (t, rest)) (depth : Int) (last : Option Char) :
    all ⟨.quoted q, depth, last⟩ cs = all ⟨.code, depth, some q⟩ rest := by
  fun_induction Lexeme.readQuoted q cs generalizing t last with
  | case1 | case3 => cases h
  | case2 =>
    cases h
    rw [all_cons, next_close]
  | case4 r ih =>
    -- a quote that is written twice closes the text and opens it again
    obtain ⟨⟨t', rest'⟩, hr, he⟩ := Option.map_eq_some_iff.1 h
    cases he
    rw [all_cons, next_close, all_cons, next_quote hq, ih hr]
  | case5 d r hd =>
    cases h
    rw [all_cons, next_close]
  | case6 c d r hc ih =>
    obtain ⟨⟨t', rest'⟩, hr, he⟩ := Option.map_eq_some_iff.1 h
    cases he
    rw [all_cons, next_inside hc, ih hr]

theorem all_readQuoted_of_none {q : Char} (hq : q ∈ rules.quotes) {cs : List Char}
    (h : Lexeme.readQuoted q cs = none) (depth : Int) :
    all ⟨.quoted q, depth, some q⟩ cs = ⟨.quoted q, depth, some q⟩ := by
  fun_induction Lexeme.readQuoted q cs with
  | case1 => rfl
  | case2 | case5 => cases h
  | case3 c hc => rw [all_cons, next_inside hc, all]
  | case4 r ih => rw [all_cons, next_close, all_cons, next_quote hq, ih (Option.map_eq_none_iff.1 h)]
  | case6 c d r hc ih => rw [all_cons, next_inside hc, ih (Option.map_eq_none_iff.1 h)]

/-- A comment ends with its line, or with the text and leaves nothing behind then either. -/
theorem outcome_all_comment (depth : Int) (last : Option Char) : ∀ cs : List Char,
    (all ⟨.comment, depth, last⟩ cs).outcome = (all ⟨.code, depth, last⟩ (Lexeme.skipLine cs)).outcome
  | [] => rfl
  | c :: r => by
    by_cases hc : c = '\n'
    · subst hc
      rfl
    · have hskip : Lexeme.skipLine (c :: r) = Lexeme.skipLine r := by simp [Lexeme.skipLine, hc]
      rw [hskip, ← outcome_all_comment depth last r, all_cons]
      simp [next, hc]

/-- What a piece leaves behind, read outside of quotes. -/
def after (s : Scan) : Piece → Scan
  | .space | .comment => s
  | .quoted q => { s with last := some q }
  | .char c => { s with depth := s.depth + turn c, last := some c }

theorem outcome_all_of_some {c : Char} {cs rest : List Char} {p : Piece} (h : rules.first c cs = (p, some rest))
    {s : Scan} (hs : s.mode = .code) : (s.all (c :: cs)).outcome = ((s.after p).all rest).outcome := by
  obtain ⟨mode, depth, last⟩ := s
  cases hs
  generalize hr : some rest = tail at h
  cases Rules.begins_of_first h with
  | blank hc =>
    cases hr
    rw [all_cons, next_blank hc, after]
  | line hc hcs =>
    cases hr
    rw [all_cons, hc, hcs, next_dash, outcome_all_comment, after]
  | nested hρ => cases hρ
  | quoted hc =>
    obtain ⟨⟨t, rest'⟩, ht, rfl⟩ := Option.map_eq_some_iff.1 hr.symm
    rw [all_cons, next_quote hc, all_readQuoted_of_some hc ht, after]
  | char hblank hline hquotes =>
    cases hr
    rw [all_cons, next_char hblank hquotes hline, after]

theorem all_of_none {c : Char} {cs : List Char} {p : Piece} (h : rules.first c cs = (p, none)) {s : Scan}
    (hs : s.mode = .code) : ∃ q, p = .quoted q ∧ s.all (c :: cs) = { s.after p with mode := .quoted q } := by
  obtain ⟨mode, depth, last⟩ := s
  cases hs
  generalize hr : none = tail at h
  cases Rules.begins_of_first h with
  | nested hρ => cases hρ
  | quoted hc =>
    refine ⟨c, rfl, ?_⟩
    rw [all_cons, next_quote hc, all_readQuoted_of_none hc (Option.map_eq_none_iff.1 hr.symm), after]
  | blank | line | char => cases hr

/-! ## The reading of the shell -/

/-- Opening parentheses of a reading less closing ones. -/
def balance (ps : List Piece) : Int := ps.count (.char '(') - ps.count (.char ')')

theorem depth_after (s : Scan) (p : Piece) (ps : List Piece) :
    (s.after p).depth + balance ps = s.depth + balance (p :: ps) := by
  cases p with
  | space | comment | quoted => simp [after, balance]
  | char c =>
    simp only [after, balance, turn, List.count_cons, beq_iff_eq, Piece.char.injEq]
    split_ifs with hopen hclose hclose <;> simp_all <;> omega

theorem last_after (s : Scan) {c : Char} {cs : List Char} {p : Piece} {rest : Option (List Char)}
    (h : rules.first c cs = (p, rest)) :
    ((s.after p).last == some ';') = if p.isToken then p == .char ';' else s.last == some ';' := by
  cases Rules.begins_of_first h with
  | blank | line | nested => rfl
  | quoted hc => simpa [after, Piece.isToken] using ne_semicolon_of_mem_quotes hc
  | char => simp [after, Piece.isToken]

theorem outcome_all {s : Scan} (hs : s.mode = .code) (cs : List Char) : (s.all cs).outcome =
    (!(rules.read cs).closed, s.depth + balance (rules.read cs).pieces, (rules.read cs).ends (s.last == some ';')) := by
  induction cs using rules.read_induction generalizing s with
  | nil =>
    obtain ⟨mode, depth, last⟩ := s
    cases hs
    simp [all, outcome, isOpen, balance]
  | cons c cs p rest hf ih =>
    have hcode : (s.after p).mode = .code := by cases p <;> exact hs
    rw [outcome_all_of_some hf hs, ih hcode, Reading.ends_cons, last_after s hf]
    exact congrArg (fun d => (_, d, _)) (depth_after s p _)
  | stop c cs p hf =>
    obtain ⟨q, hp, hall⟩ := all_of_none hf hs
    have hends : (Reading.mk [p] false).ends (s.last == some ';') = ((s.after p).last == some ';') := by
      rw [last_after s hf]
      exact Reading.ends_cons p ⟨[], false⟩ _
    have hdepth : (s.after p).depth = s.depth + balance [p] := by
      rw [← depth_after s p []]
      simp [balance]
    rw [hall, hends, ← hdepth]
    rfl

/-! ## White space at the ends -/

theorem all_blanks_append {s : Scan} (hs : s.mode = .code) (cs : List Char) : ∀ {bs : List Char},
    (∀ b ∈ bs, Text.isBlank b = true) → s.all (bs ++ cs) = s.all cs
  | [], _ => rfl
  | b :: bs, h => by
    obtain ⟨mode, depth, last⟩ := s
    cases hs
    rw [List.cons_append, all_cons, next_blank (h b List.mem_cons_self)]
    exact all_blanks_append rfl cs fun b' hb' => h b' (List.mem_cons_of_mem _ hb')

/-- Only quotes open a quoted text. -/
def Quotes (s : Scan) : Prop := ∀ q, s.mode = .quoted q → q ∈ rules.quotes

theorem quotes_next {s : Scan} (h : s.Quotes) (c : Char) (following : Option Char) : (s.next c following).Quotes := by
  obtain ⟨mode, depth, last⟩ := s
  intro q hq
  cases mode with
  | quoted q' =>
    by_cases hc : c = q'
    · simp [next, hc] at hq
    · exact h q (by rwa [next_inside hc] at hq)
  | comment => by_cases hc : c = '\n' <;> simp [next, hc] at hq
  | code =>
    by_cases hc : c ∈ rules.quotes
    · rw [next_quote hc] at hq
      cases hq
      exact hc
    · have hc' : ¬(c = '\'' ∨ c = '\x22') := by simpa [rules] using hc
      simp only [next, Bool.or_eq_true, decide_eq_true_eq, hc', if_false] at hq
      split_ifs at hq

theorem outcome_next_blank {s : Scan} (h : s.Quotes) {b : Char} (hb : Text.isBlank b = true)
    (following : Option Char) : (s.next b following).outcome = s.outcome := by
  obtain ⟨mode, depth, last⟩ := s
  cases mode with
  | quoted q => rw [next_inside (ne_of_isBlank hb (not_isBlank_of_mem_quotes (h q rfl)))]
  | comment =>
    simp only [next]
    split_ifs <;> rfl
  | code => rw [next_blank hb]

theorem outcome_all_blanks {s : Scan} (h : s.Quotes) : ∀ {bs : List Char}, (∀ b ∈ bs, Text.isBlank b = true) →
    (s.all bs).outcome = s.outcome
  | [], _ => rfl
  | b :: bs, hbs => by
    rw [all_cons, outcome_all_blanks (quotes_next h b _) fun b' hb' => hbs b' (List.mem_cons_of_mem _ hb')]
    exact outcome_next_blank h (hbs b List.mem_cons_self) _

/-- A dash in front of the white space starts no comment, as it does not at the end of the text. -/
theorem next_head?_append_blanks (s : Scan) (c : Char) (cs : List Char) {bs : List Char}
    (hbs : ∀ b ∈ bs, Text.isBlank b = true) : s.next c (cs ++ bs).head? = s.next c cs.head? := by
  cases cs with
  | cons => rfl
  | nil =>
    cases bs with
    | nil => rfl
    | cons b bs =>
      have hb : b ≠ '-' := ne_of_isBlank (hbs b List.mem_cons_self) rfl
      simp [next, hb]

theorem outcome_all_append_blanks {s : Scan} (h : s.Quotes) {bs : List Char} (hbs : ∀ b ∈ bs, Text.isBlank b = true) :
    ∀ cs : List Char, (s.all (cs ++ bs)).outcome = (s.all cs).outcome
  | [] => outcome_all_blanks h hbs
  | c :: cs => by
    rw [List.cons_append, all_cons, all_cons, next_head?_append_blanks s c cs hbs]
    exact outcome_all_append_blanks (quotes_next h c _) hbs cs

theorem outcome_all_trimChars (cs : List Char) : (all {} (Text.trimChars cs)).outcome = (all {} cs).outcome := by
  obtain ⟨front, back, hcs, hfront, hback⟩ := Text.eq_append_trimChars cs
  conv_rhs => rw [hcs, all_blanks_append rfl _ hfront]
  have hquotes : Quotes {} := fun q hq => ScanMode.noConfusion hq
  exact (outcome_all_append_blanks hquotes hback _).symm

end Scan

/-! ## When a line is complete -/

theorem isComplete_iff_read {line : String} (h : IsStatement line) :
    isComplete line = true ↔ (rules.read line.toList).Complete := by
  obtain ⟨c, cs, htrim, hc⟩ := h
  have hdef : isComplete line = ((Scan.all {} (Text.trimChars line.toList)).isClosed &&
      (Scan.all {} (Text.trimChars line.toList)).last == some ';') := by
    unfold isComplete
    rw [htrim]
    split
    · rename_i heq
      cases heq
    · rename_i heq
      cases heq
      exact absurd rfl hc
    · rfl
  have hout := (Scan.outcome_all_trimChars line.toList).trans (Scan.outcome_all (s := {}) rfl line.toList)
  simp only [Scan.outcome, Prod.mk.injEq] at hout
  obtain ⟨hopen, hdepth, hlast⟩ := hout
  rw [hdef, Scan.isClosed_eq, hopen, hdepth, hlast, Reading.complete_iff_ends]
  have hbalance : 0 + Scan.balance (rules.read line.toList).pieces ≤ 0 ↔
      (rules.read line.toList).pieces.count (.char '(') ≤ (rules.read line.toList).pieces.count (.char ')') := by
    unfold Scan.balance
    omega
  simp only [Bool.and_eq_true, decide_eq_true_eq, Bool.not_not, hbalance]
  tauto

/-! ## The rules of the language -/

/-- Where the language finds no nested comment and no name between grave accents, the shell finds the same. -/
theorem first_eq {c : Char} {cs : List Char} {p : Piece} {rest : Option (List Char)}
    (h : Rules.sql.first c cs = (p, rest)) (hcomment : p ≠ .comment) (hname : p ≠ .quoted '\x60') :
    rules.first c cs = (p, rest) := by
  have hnone : ¬(rules.nested && c = '/' && cs.head? = some '*') = true := nofun
  unfold Rules.first at h
  split_ifs at h with hblank hline hnested hquotes
  · rw [Rules.first, if_pos hblank, h]
  · rw [Rules.first, if_neg hblank, if_pos hline, h]
  · cases h
    exact absurd rfl hcomment
  · have hc : rules.quotes.contains c = true := by
      have hne : c ≠ '\x60' := fun hc => hname (hc ▸ (Prod.mk.inj h).1.symm)
      simpa [rules, Rules.sql, Lexeme.nameQuotes, hne] using hquotes
    rw [Rules.first, if_neg hblank, if_neg hline, if_neg hnone, if_pos hc, h]
  · have hc : ¬rules.quotes.contains c = true := by
      simp only [Rules.sql, Lexeme.nameQuotes, List.contains_iff_mem, List.mem_cons, not_or] at hquotes
      simpa [rules] using ⟨hquotes.1, hquotes.2.1⟩
    rw [Rules.first, if_neg hblank, if_neg hline, if_neg hnone, if_neg hc, h]

theorem read_eq {cs : List Char} : .comment ∉ (Rules.sql.read cs).pieces → .quoted '\x60' ∉ (Rules.sql.read cs).pieces →
    rules.read cs = Rules.sql.read cs := by
  induction cs using Rules.sql.read_induction with
  | nil => exact fun _ _ => rfl
  | cons c cs p rest hf ih =>
    intro hcomment hname
    simp only [Reading.cons, List.mem_cons, not_or] at hcomment hname
    rw [Rules.read_cons_of_some (first_eq hf (Ne.symm hcomment.1) (Ne.symm hname.1)), ih hcomment.2 hname.2]
  | stop c cs p hf =>
    intro hcomment hname
    simp only [List.mem_singleton] at hcomment hname
    exact Rules.read_cons_of_none (first_eq hf (Ne.symm hcomment) (Ne.symm hname))

/-- A line that is neither blank nor a command is complete exactly when the rules of the shell read it to its
end, with no parenthesis open and a semicolon as the last token. The rules of the language say the same where
they find no nested comment and no name between grave accents, and so does the lexer on plain lines. -/
theorem isComplete_iff {line : String} (h : IsStatement line) :
    (isComplete line = true ↔ (rules.read line.toList).Complete) ∧
      (.comment ∉ (Rules.sql.read line.toList).pieces → .quoted '\x60' ∉ (Rules.sql.read line.toList).pieces →
        (isComplete line = true ↔ (Rules.sql.read line.toList).Complete) ∧
          (Plain line.toList → Lexeme.ofString line ≠ .error .escapedText →
            (isComplete line = true ↔ ∃ ls, Lexeme.ofString line = .ok ls ∧
              ls.count (.symbol "(") ≤ ls.count (.symbol ")") ∧ ls.getLast? = some (.symbol ";")))) := by
  have hshell := isComplete_iff_read h
  refine ⟨hshell, fun hcomment hname => ?_⟩
  have hsql : isComplete line = true ↔ (Rules.sql.read line.toList).Complete := by rw [← read_eq hcomment hname, hshell]
  exact ⟨hsql, fun hp he => hsql.trans (Lexeme.complete_iff_ofChars hp he)⟩

theorem isComplete_iff_counted :
    isComplete "SELECT count(a), 'it''s;' FROM t; -- all" = true ∧
      (rules.read "SELECT count(a), 'it''s;' FROM t; -- all".toList).Complete ∧
      (Rules.sql.read "SELECT count(a), 'it''s;' FROM t; -- all".toList).Complete ∧
      ∃ ls, Lexeme.ofString "SELECT count(a), 'it''s;' FROM t; -- all" = .ok ls ∧
        ls.count (.symbol "(") ≤ ls.count (.symbol ")") ∧ ls.getLast? = some (.symbol ";") := by
  have hc : isComplete "SELECT count(a), 'it''s;' FROM t; -- all" = true := by decide +kernel
  have hstatement : IsStatement "SELECT count(a), 'it''s;' FROM t; -- all" := ⟨'S', _, rfl, by decide⟩
  have h := isComplete_iff hstatement
  have hsql := h.2 (by decide +kernel) (by decide +kernel)
  exact ⟨hc, h.1.1 hc, hsql.1.1 hc, (hsql.2 ⟨by decide, by decide, by decide⟩ (by decide +kernel)).1 hc⟩

/-- A nested comment behind the semicolon keeps the line open, although the statement ends. -/
theorem not_isComplete_iff :
    ¬∀ line, IsStatement line → (isComplete line = true ↔ (Rules.sql.read line.toList).Complete) := by
  intro h
  have hc := h "SELECT 1; /* c */" ⟨'S', _, rfl, by decide⟩
  exact absurd (hc.2 (by decide +kernel)) (by decide +kernel)

end TableQuery.Shell
