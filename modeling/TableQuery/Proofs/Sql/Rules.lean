/-
Reading a text by lexical rules alone: which characters quote, and whether nested comments are
known. A reading cuts the text into white space, comments, quoted texts and single characters, and
says whether the text ends outside of quotes and nested comments. The rules of the language know
three quotes and nested comments.
-/
import Mathlib.Data.List.Infix
import TableQuery.Sql.Lexeme

namespace TableQuery.Sql

structure Rules where
  /-- The characters that start a text or a name, which ends with the same character. -/
  quotes : List Char
  /-- Whether comments between marks are known, beside those that end with their line. -/
  nested : Bool

/-- The rules of the query language. -/
def Rules.sql : Rules := ⟨'\'' :: Lexeme.nameQuotes, true⟩

inductive Piece where
  /-- White space, or a comment that ends with its line. -/
  | space
  | comment
  | quoted (q : Char)
  | char (c : Char)
  deriving DecidableEq

def Piece.isToken : Piece → Bool
  | .space | .comment => false
  | .quoted _ | .char _ => true

/-- The piece at the start of a text, and what stands behind it unless the text ends inside. -/
def Rules.first (ρ : Rules) (c : Char) (cs : List Char) : Piece × Option (List Char) :=
  if Text.isBlank c then (.space, some cs)
  else if c = '-' && cs.head? = some '-' then (.space, some (Lexeme.skipLine cs))
  else if ρ.nested && c = '/' && cs.head? = some '*' then (.comment, Lexeme.skipComment 0 (cs.drop 1))
  else if ρ.quotes.contains c then (.quoted c, (Lexeme.readQuoted c cs).map (·.2))
  else (.char c, some cs)

structure Reading where
  pieces : List Piece
  /-- Whether the text ends outside of quotes and nested comments. -/
  closed : Bool
  deriving DecidableEq

namespace Reading

def cons (p : Piece) (r : Reading) : Reading := { r with pieces := p :: r.pieces }

/-- The reading of a text with this first piece, where `next` reads what stands behind it. -/
def ofFirst (next : List Char → Reading) : Piece × Option (List Char) → Reading
  | (p, some rest) => (next rest).cons p
  | (p, none) => ⟨[p], false⟩

/-- What the text consists of; comments are no part of it. -/
def tokens (r : Reading) : List Piece := r.pieces.filter Piece.isToken

/-- The text is closed, has at most as many opening as closing parentheses, and a semicolon stands last. -/
def Complete (r : Reading) : Prop :=
  r.closed = true ∧ r.pieces.count (.char '(') ≤ r.pieces.count (.char ')') ∧
    r.tokens.getLast? = some (.char ';')

instance (r : Reading) : Decidable r.Complete := inferInstanceAs (Decidable (_ ∧ _ ∧ _))

/-- Whether a semicolon stands last, where `before` answers for what precedes the text. -/
def ends (r : Reading) (before : Bool) : Bool := r.tokens.getLast?.elim before (· == .char ';')

@[simp] theorem ends_nil (closed before : Bool) : (Reading.mk [] closed).ends before = before := rfl

theorem ends_cons (p : Piece) (r : Reading) (before : Bool) :
    (r.cons p).ends before = r.ends (if p.isToken then p == .char ';' else before) := by
  cases hp : p.isToken with
  | false => simp [ends, tokens, cons, hp]
  | true =>
    simp only [ends, tokens, cons, List.filter_cons, hp, if_true, List.getLast?_cons, Option.elim_some]
    cases (r.pieces.filter Piece.isToken).getLast? <;> rfl

theorem complete_iff_ends (r : Reading) : r.Complete ↔
    r.closed = true ∧ r.pieces.count (.char '(') ≤ r.pieces.count (.char ')') ∧ r.ends false = true := by
  unfold Complete ends
  cases r.tokens.getLast? <;> simp

end Reading

/-- Every step reads a character, so as many steps as characters are enough. -/
def Rules.readIn (ρ : Rules) : Nat → List Char → Reading
  | _, [] | 0, _ => ⟨[], true⟩
  | n + 1, c :: cs => .ofFirst (ρ.readIn n) (ρ.first c cs)

def Rules.read (ρ : Rules) (cs : List Char) : Reading := ρ.readIn cs.length cs

/-! ## What stands behind a piece -/

namespace Lexeme

theorem skipLine_suffix (cs : List Char) : skipLine cs <:+ cs :=
  (List.drop_suffix 1 _).trans (List.dropWhile_suffix _)

theorem skipComment_suffix {depth : Nat} {cs rest : List Char} (h : skipComment depth cs = some rest) :
    rest <:+ cs := by
  fun_induction skipComment depth cs with
  | case1 | case2 => cases h
  | case3 c d r hc =>
    -- the mark that closes the last comment
    cases h
    exact ⟨[c, d], rfl⟩
  | case4 c d r hc n ih => exact (ih h).trans ⟨[c, d], rfl⟩
  | case5 depth c d r hc ho ih => exact (ih h).trans ⟨[c, d], rfl⟩
  | case6 depth c d r hc ho ih => exact (ih h).trans ⟨[c], rfl⟩

theorem readQuoted_suffix {q : Char} {cs s rest : List Char} (h : readQuoted q cs = some (s, rest)) :
    rest <:+ cs := by
  fun_induction readQuoted q cs generalizing s with
  | case1 | case3 => cases h
  | case2 =>
    cases h
    exact ⟨[q], rfl⟩
  | case4 r ih =>
    -- a quote that is written twice
    obtain ⟨⟨s', rest'⟩, hr, he⟩ := Option.map_eq_some_iff.1 h
    cases he
    exact (ih hr).trans ⟨[q, q], rfl⟩
  | case5 d r hd =>
    cases h
    exact ⟨[q], rfl⟩
  | case6 c d r hc ih =>
    obtain ⟨⟨s', rest'⟩, hr, he⟩ := Option.map_eq_some_iff.1 h
    cases he
    exact (ih hr).trans ⟨[c], rfl⟩

end Lexeme

namespace Rules

/-- What can stand at the start of a text, with what is known of its characters. -/
inductive Begins (ρ : Rules) (c : Char) (cs : List Char) : Piece → Option (List Char) → Prop where
  | blank (hc : Text.isBlank c = true) : Begins ρ c cs .space (some cs)
  | line (hc : c = '-') (hcs : cs.head? = some '-') : Begins ρ c cs .space (some (Lexeme.skipLine cs))
  | nested (hρ : ρ.nested = true) (hc : c = '/') (hcs : cs.head? = some '*') :
      Begins ρ c cs .comment (Lexeme.skipComment 0 (cs.drop 1))
  | quoted (hc : c ∈ ρ.quotes) : Begins ρ c cs (.quoted c) ((Lexeme.readQuoted c cs).map (·.2))
  | char (hblank : Text.isBlank c = false) (hline : ¬(c = '-' ∧ cs.head? = some '-')) (hquotes : c ∉ ρ.quotes) :
      Begins ρ c cs (.char c) (some cs)

theorem begins_of_first {ρ : Rules} {c : Char} {cs : List Char} {p : Piece} {rest : Option (List Char)}
    (h : ρ.first c cs = (p, rest)) : Begins ρ c cs p rest := by
  unfold first at h
  split_ifs at h with hblank hline hnested hquotes
  all_goals cases h
  · exact .blank hblank
  · simp only [Bool.and_eq_true, decide_eq_true_eq] at hline
    exact .line hline.1 hline.2
  · simp only [Bool.and_eq_true, decide_eq_true_eq] at hnested
    exact .nested hnested.1.1 hnested.1.2 hnested.2
  · exact .quoted (List.contains_iff_mem.1 hquotes)
  · exact .char (Bool.eq_false_iff.2 hblank) (by simpa using hline) fun hc => hquotes (List.contains_iff_mem.2 hc)

theorem first_suffix {ρ : Rules} {c : Char} {cs rest : List Char} {p : Piece}
    (h : ρ.first c cs = (p, some rest)) : rest <:+ cs := by
  generalize hr : some rest = tail at h
  cases begins_of_first h with
  | blank => exact Option.some.inj hr ▸ List.suffix_rfl
  | line => exact Option.some.inj hr ▸ Lexeme.skipLine_suffix cs
  | nested => exact (Lexeme.skipComment_suffix hr.symm).trans (List.drop_suffix 1 cs)
  | quoted =>
    obtain ⟨⟨s, rest'⟩, hs, rfl⟩ := Option.map_eq_some_iff.1 hr.symm
    exact Lexeme.readQuoted_suffix hs
  | char => exact Option.some.inj hr ▸ List.suffix_rfl

/-! ## Readings without a bound on their steps -/

theorem readIn_eq_read (ρ : Rules) : ∀ {n : Nat} {cs : List Char}, cs.length ≤ n → ρ.readIn n cs = ρ.read cs
  | 0, [], _ | _ + 1, [], _ => rfl
  | n + 1, c :: cs, h => by
    rw [read, List.length_cons, readIn, readIn]
    match hf : ρ.first c cs with
    | (p, some rest) =>
      have hlen := (first_suffix hf).length_le
      have hn : rest.length ≤ n := by simp only [List.length_cons] at h; omega
      rw [Reading.ofFirst, Reading.ofFirst, ρ.readIn_eq_read hn, ρ.readIn_eq_read hlen]
    | (p, none) => rfl
termination_by _ cs => cs.length
decreasing_by all_goals simp only [List.length_cons]; omega

theorem read_cons (ρ : Rules) (c : Char) (cs : List Char) : ρ.read (c :: cs) = .ofFirst ρ.read (ρ.first c cs) := by
  rw [read, List.length_cons, readIn]
  match hf : ρ.first c cs with
  | (p, some rest) =>
    rw [Reading.ofFirst, Reading.ofFirst]
    exact congrArg _ (ρ.readIn_eq_read (first_suffix hf).length_le)
  | (p, none) => rfl

theorem read_cons_of_some {ρ : Rules} {c : Char} {cs rest : List Char} {p : Piece}
    (h : ρ.first c cs = (p, some rest)) : ρ.read (c :: cs) = (ρ.read rest).cons p := by
  rw [read_cons, h, Reading.ofFirst]

theorem read_cons_of_none {ρ : Rules} {c : Char} {cs : List Char} {p : Piece}
    (h : ρ.first c cs = (p, none)) : ρ.read (c :: cs) = ⟨[p], false⟩ := by
  rw [read_cons, h, Reading.ofFirst]

/-- Induction along a reading, one piece after the other. -/
theorem read_induction (ρ : Rules) {motive : List Char → Reading → Prop} (nil : motive [] ⟨[], true⟩)
    (cons : ∀ c cs p rest, ρ.first c cs = (p, some rest) → motive rest (ρ.read rest) →
      motive (c :: cs) ((ρ.read rest).cons p))
    (stop : ∀ c cs p, ρ.first c cs = (p, none) → motive (c :: cs) ⟨[p], false⟩) :
    ∀ cs, motive cs (ρ.read cs)
  | [] => nil
  | c :: cs => by
    match hf : ρ.first c cs with
    | (p, some rest) =>
      have hlen := (first_suffix hf).length_le
      rw [read_cons_of_some hf]
      exact cons c cs p rest hf (ρ.read_induction nil cons stop rest)
    | (p, none) =>
      rw [read_cons_of_none hf]
      exact stop c cs p hf
termination_by cs => cs.length
decreasing_by simp only [List.length_cons]; omega

end Rules

end TableQuery.Sql
