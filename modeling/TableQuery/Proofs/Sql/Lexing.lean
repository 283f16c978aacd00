/-
The lexer follows the rules of the language. Every lexeme stands for pieces of the reading: a symbol
of one character for this character, all others for characters that are neither parentheses nor
semicolons, or for one quoted text. So a text is cut into lexemes exactly when its reading is closed,
with the same parentheses and the same end. What the rules leave to the lexer is left out: texts
between dollars or with a backslash, and operators that swallow the start of a comment.
-/
import Mathlib.Data.List.Chain
import TableQuery.Proofs.Except
import TableQuery.Proofs.Sql.Rules

namespace TableQuery.Sql

/-- No texts between dollars, no backslashes, and no operators in front of the start of a comment. -/
structure Plain (cs : List Char) : Prop where
  dollar : '$' ∉ cs
  backslash : '\\' ∉ cs
  operators : ∀ m ∈ ["#--", "//*", "|/*"], ¬m.toList <:+: cs

theorem Plain.of_suffix {cs rest : List Char} (h : Plain cs) (hs : rest <:+ cs) : Plain rest where
  dollar hc := h.dollar (hs.mem hc)
  backslash hc := h.backslash (hs.mem hc)
  operators m hm hc := h.operators m hm (hc.trans hs.isInfix)

/-! ## Characters that stand for themselves -/

theorem Rules.first_char {c : Char} {cs : List Char} (hblank : Text.isBlank c = false) (hquotes : c ∉ Rules.sql.quotes)
    (hline : ¬(c = '-' ∧ cs.head? = some '-')) (hnested : ¬(c = '/' ∧ cs.head? = some '*')) :
    Rules.sql.first c cs = (.char c, some cs) := by
  have hquotes : Rules.sql.quotes.contains c = false := by simpa using hquotes
  have hline : (c = '-' && cs.head? = some '-') = false := by simpa using hline
  have hnested : (Rules.sql.nested && c = '/' && cs.head? = some '*') = false := by simpa [Rules.sql] using hnested
  simp only [first, hblank, hline, hnested, hquotes, Bool.false_eq_true, if_false]

theorem Rules.first_quote {q : Char} (hq : q ∈ Rules.sql.quotes) (cs : List Char) :
    Rules.sql.first q cs = (.quoted q, (Lexeme.readQuoted q cs).map (·.2)) := by
  have hall : (Rules.sql.quotes.all fun q => !Text.isBlank q && q != '-' && q != '/') = true := by decide
  have hspec := List.all_eq_true.1 hall q hq
  simp only [Bool.and_eq_true, Bool.not_eq_true', bne_iff_ne] at hspec
  obtain ⟨⟨hblank, hdash⟩, hslash⟩ := hspec
  simp only [first, hblank, hdash, hslash, List.contains_iff_mem.2 hq, decide_false, Bool.false_and, Bool.and_false,
    Bool.false_eq_true, if_false, if_true]

/-- The characters of the lexemes that the answer depends on. -/
def marks : List Char := ['(', ')', ';']

/-- Neither a mark nor the start of a quoted text or of a comment. -/
def isNeutral (c : Char) : Bool :=
  !Text.isBlank c && !Rules.sql.quotes.contains c && !marks.contains c && c != '-' && c != '/'

theorem isNeutral_iff {c : Char} : isNeutral c = true ↔
    Text.isBlank c = false ∧ c ∉ Rules.sql.quotes ∧ c ∉ marks ∧ c ≠ '-' ∧ c ≠ '/' := by
  simp [isNeutral, and_assoc]

theorem Rules.first_neutral {c : Char} {cs : List Char} (h : isNeutral c = true) :
    Rules.sql.first c cs = (.char c, some cs) := by
  obtain ⟨hblank, hquotes, -, hdash, hslash⟩ := isNeutral_iff.1 h
  exact first_char hblank hquotes (fun h => hdash h.1) fun h => hslash h.1

/-- The code points of white space. -/
def blankPoints : List Nat :=
  List.range' 9 5 ++ [0x20, 0x85, 0xA0, 0x1680] ++ List.range' 0x2000 11 ++ [0x2028, 0x2029, 0x202F, 0x205F, 0x3000]

theorem mem_blankPoints {c : Char} (h : Text.isBlank c = true) : c.toNat ∈ blankPoints := by
  simp only [Text.isBlank, Bool.or_eq_true, Bool.and_eq_true, decide_eq_true_eq, beq_iff_eq] at h
  simp only [blankPoints, List.mem_append, List.mem_range'_1, List.mem_cons, List.not_mem_nil]
  omega

/-- The characters that are not neutral. -/
def separators : List Char := blankPoints.map Char.ofNat ++ Rules.sql.quotes ++ marks ++ ['-', '/']

theorem isNeutral_of_not_separator {p : Char → Bool} (hp : separators.any p = false) {c : Char} (h : p c = true) :
    isNeutral c = true := by
  have hc : c ∉ separators := fun hc => List.any_eq_false.1 hp c hc h
  simp only [separators, List.mem_append, List.mem_cons, List.not_mem_nil, or_false, not_or] at hc
  obtain ⟨⟨⟨hblank, hquotes⟩, hmarks⟩, hdash, hslash⟩ := hc
  refine isNeutral_iff.2 ⟨Bool.eq_false_iff.2 fun hb => hblank ?_, hquotes, hmarks, hdash, hslash⟩
  exact List.mem_map.2 ⟨c.toNat, mem_blankPoints hb, Char.ofNat_toNat c⟩

theorem isNeutral_of_isNamePart {c : Char} (h : Lexeme.isNamePart c = true) : isNeutral c = true :=
  isNeutral_of_not_separator (by decide +kernel) h

theorem isNeutral_of_isDigit {c : Char} (h : c.isDigit = true) : isNeutral c = true :=
  isNeutral_of_not_separator (by decide +kernel) h

theorem isNeutral_of_isHexDigit {c : Char} (h : Lexeme.isHexDigit c = true) : isNeutral c = true :=
  isNeutral_of_not_separator (by decide +kernel) h

/-- The rest of a text behind characters that stand for themselves and are no marks. -/
inductive Passes (rest : List Char) : List Char → Prop where
  | refl : Passes rest rest
  | cons {c : Char} {cs : List Char} (hfirst : Rules.sql.first c cs = (.char c, some cs)) (hc : c ∉ marks)
      (h : Passes rest cs) : Passes rest (c :: cs)

namespace Passes

theorem trans {a b c : List Char} (h : Passes a b) (h' : Passes b c) : Passes a c := by
  induction h' with
  | refl => exact h
  | cons hfirst hc _ ih => exact .cons hfirst hc ih

theorem suffix {rest cs : List Char} (h : Passes rest cs) : rest <:+ cs := by
  induction h with
  | refl => exact List.suffix_rfl
  | cons _ _ _ ih => exact ih.trans (List.suffix_cons _ _)

theorem neutral {c : Char} (hc : isNeutral c = true) {rest cs : List Char} (h : Passes rest cs) :
    Passes rest (c :: cs) :=
  .cons (Rules.first_neutral hc) (isNeutral_iff.1 hc).2.2.1 h

theorem dropWhile {p : Char → Bool} (hp : ∀ c, p c = true → isNeutral c = true) : ∀ cs : List Char,
    Passes (cs.dropWhile p) cs
  | [] => .refl
  | c :: cs => by
    rw [List.dropWhile_cons]
    split
    · rename_i hc
      exact .neutral (hp c hc) (dropWhile hp cs)
    · exact .refl

theorem digits (cs : List Char) : Passes (cs.dropWhile Char.isDigit) cs := dropWhile (fun _ => isNeutral_of_isDigit) cs

theorem hexDigits (cs : List Char) : Passes (cs.dropWhile Lexeme.isHexDigit) cs :=
  dropWhile (fun _ => isNeutral_of_isHexDigit) cs

theorem nameParts (cs : List Char) : Passes (cs.dropWhile Lexeme.isNamePart) cs :=
  dropWhile (fun _ => isNeutral_of_isNamePart) cs

end Passes

/-! ## Lexemes and what they stand for -/

/-- Neither a parenthesis nor a semicolon. -/
def Lexeme.Mute (l : Lexeme) : Prop := ∀ s ∈ ["(", ")", ";"], l ≠ .symbol s

/-- A reading with the pieces of one more lexeme in front, or of none for white space and comments. -/
structure Reading.Adds (l : Option Lexeme) (r r' : Reading) : Prop where
  closed : r'.closed = r.closed
  opens : r'.pieces.count (.char '(') = l.toList.count (.symbol "(") + r.pieces.count (.char '(')
  closes : r'.pieces.count (.char ')') = l.toList.count (.symbol ")") + r.pieces.count (.char ')')
  ends : ∀ before, r'.ends before = r.ends (l.elim before (· == .symbol ";"))

/-- A token that is no mark. -/
def Piece.Mute (p : Piece) : Prop := p.isToken = true ∧ ∀ m ∈ marks, p ≠ .char m

theorem Piece.mute_char {c : Char} (hc : c ∉ marks) : Piece.Mute (.char c) :=
  ⟨rfl, fun _ hm he => hc (Piece.char.inj he ▸ hm)⟩

theorem Piece.mute_quoted (q : Char) : Piece.Mute (.quoted q) := ⟨rfl, fun _ _ => nofun⟩

namespace Reading

theorem adds_none {p : Piece} (hp : p.isToken = false) (r : Reading) : Adds none r (r.cons p) where
  closed := rfl
  opens := by cases p <;> simp_all [cons, Piece.isToken]
  closes := by cases p <;> simp_all [cons, Piece.isToken]
  ends before := by rw [ends_cons, hp]; rfl

theorem count_cons_of_mute {p : Piece} (hp : p.Mute) {m : Char} (hm : m ∈ marks) (r : Reading) :
    (r.cons p).pieces.count (.char m) = r.pieces.count (.char m) :=
  List.count_cons_of_ne (hp.2 m hm)

theorem ends_cons_of_mute {p : Piece} (hp : p.Mute) (r : Reading) (before : Bool) :
    (r.cons p).ends before = r.ends false := by
  rw [ends_cons, hp.1, if_pos rfl, beq_eq_false_iff_ne.2 (hp.2 ';' (by decide))]

/-- The last piece of a lexeme that is no mark. -/
theorem adds_mute {l : Lexeme} (hl : l.Mute) {p : Piece} (hp : p.Mute) (r : Reading) : Adds (some l) r (r.cons p) where
  closed := rfl
  opens := by
    rw [count_cons_of_mute hp (by decide), Option.toList_some, List.count_cons_of_ne (hl "(" (by decide))]
    simp
  closes := by
    rw [count_cons_of_mute hp (by decide), Option.toList_some, List.count_cons_of_ne (hl ")" (by decide))]
    simp
  ends before := by
    rw [ends_cons_of_mute hp, Option.elim_some, beq_eq_false_iff_ne.2 (hl ";" (by decide))]

/-- One piece more in front of the pieces of a lexeme. -/
theorem Adds.cons {l : Lexeme} {r r' : Reading} (h : Adds (some l) r r') {p : Piece} (hp : p.Mute) :
    Adds (some l) r (r'.cons p) where
  closed := h.closed
  opens := (count_cons_of_mute hp (by decide) r').trans h.opens
  closes := (count_cons_of_mute hp (by decide) r').trans h.closes
  ends before := (ends_cons_of_mute hp r' before).trans (h.ends false)

theorem adds_char (c : Char) (r : Reading) : Adds (some (.symbol (String.ofList [c]))) r (r.cons (.char c)) := by
  have hbeq (d : Char) :
      (Lexeme.symbol (String.ofList [c]) == .symbol (String.ofList [d])) = (Piece.char c == .char d) := by
    rw [Bool.eq_iff_iff, beq_iff_eq, beq_iff_eq, Lexeme.symbol.injEq, Piece.char.injEq, String.ofList_inj]
    simp
  have hcount (d : Char) : (r.cons (.char c)).pieces.count (.char d) =
      (some (Lexeme.symbol (String.ofList [c]))).toList.count (.symbol (String.ofList [d])) +
        r.pieces.count (.char d) := by
    rw [cons, List.count_cons, Option.toList_some, List.count_singleton, hbeq, Nat.add_comm]
  exact ⟨rfl, hcount '(', hcount ')', fun before => by rw [ends_cons]; exact congrArg r.ends (hbeq ';').symm⟩

end Reading

theorem ne_of_suffix {c : Char} {cs rest : List Char} (h : rest <:+ cs) : c :: cs ≠ rest := by
  rintro rfl
  exact absurd h.length_le (by simp)

theorem adds_of_passes {l : Lexeme} (hl : l.Mute) {rest cs : List Char} (h : Passes rest cs) (hne : cs ≠ rest) :
    Reading.Adds (some l) (Rules.sql.read rest) (Rules.sql.read cs) := by
  induction h with
  | refl => exact absurd rfl hne
  | @cons c cs hfirst hc h ih =>
    rw [Rules.read_cons_of_some hfirst]
    by_cases hcs : cs = rest
    · rw [hcs]
      exact Reading.adds_mute hl (Piece.mute_char hc) _
    · exact (ih hcs).cons (Piece.mute_char hc)

/-! ## One lexeme -/

namespace Lexeme

section Step

variable {c : Char} {cs rest : List Char} {l : Lexeme}

/-- The sign of an exponent stands in front of a digit and starts no comment. -/
theorem passes_sign {s d : Char} (hs : s = '+' ∨ s = '-') (hd : d.isDigit = true) {r : List Char}
    (h : Passes rest (d :: r)) : Passes rest (s :: d :: r) := by
  rcases hs with rfl | rfl
  · exact h.neutral (by decide)
  · have hdash : d ≠ '-' := (isNeutral_iff.1 (isNeutral_of_isDigit hd)).2.2.2.1
    exact .cons (Rules.first_char (by decide) (by decide) (by simpa using hdash) (by simp)) (by decide) h

theorem passes_readExponent (cs : List Char) : Passes (readExponent cs).2 cs := by
  have hletter {e : Char} (he : (e = 'e' || e = 'E') = true) : isNeutral e = true := by
    simp only [Bool.or_eq_true, decide_eq_true_eq] at he
    rcases he with rfl | rfl <;> decide
  unfold readExponent
  split
  · rename_i e s d r
    split_ifs with he hs hsign
    · exact (Passes.digits (s :: d :: r)).neutral (hletter he)
    · simp only [Bool.and_eq_true, Bool.or_eq_true, decide_eq_true_eq] at hsign
      exact (passes_sign hsign.1 hsign.2 (Passes.digits (d :: r))).neutral (hletter he)
    · exact .refl
    · exact .refl
  · split_ifs with hd
    · simp only [Bool.and_eq_true] at hd
      exact (Passes.refl.neutral (isNeutral_of_isDigit hd.2)).neutral (hletter hd.1)
    · exact .refl
  · exact .refl

/-- The digits behind the point of a number, its exponent and its suffix; a point alone is a symbol. -/
theorem passes_fraction {start mantissa : List Char} {digits : String}
    (h : (if mantissa = ['.'] then (symbol ".", start.dropWhile Char.isDigit)
      else match (readExponent (start.dropWhile Char.isDigit)).2 with
        | 'L' :: r => (number digits true, r)
        | r => (number digits false, r)) = (l, rest)) : l.Mute ∧ Passes rest start := by
  have hdigits := Passes.digits start
  have hexponent := (passes_readExponent (start.dropWhile Char.isDigit)).trans hdigits
  split_ifs at h
  · cases h
    exact ⟨by simp [Mute], hdigits⟩
  · split at h
    · rename_i r hl
      cases h
      rw [hl] at hexponent
      exact ⟨fun _ _ => nofun, (Passes.refl.neutral (by decide)).trans hexponent⟩
    · cases h
      exact ⟨fun _ _ => nofun, hexponent⟩

/-- What stands behind the digits at the start of a number and its point. -/
theorem passes_point (hc : c.isDigit = true ∨ c = '.') {start : List Char}
    (h : (c :: cs).dropWhile Char.isDigit = '.' :: start) : Passes start cs := by
  rcases hc with hc | rfl
  · rw [List.dropWhile_cons_of_pos hc] at h
    have hdigits := Passes.digits cs
    rw [h] at hdigits
    exact (Passes.refl.neutral (by decide)).trans hdigits
  · cases h
    exact .refl

theorem passes_readNumber (hc : c.isDigit = true ∨ c = '.') (h : readNumber (c :: cs) = (l, rest)) :
    l.Mute ∧ Passes rest cs := by
  have hdigits := Passes.digits cs
  unfold readNumber at h
  dsimp only at h
  split at h
  · -- hexadecimal digits behind a zero
    rename_i r hw hr
    cases h
    have hc : c.isDigit = true := by
      by_contra hc
      simp [hc] at hw
    rw [List.dropWhile_cons_of_pos hc] at hr
    rw [hr] at hdigits
    have hhex := (Passes.hexDigits r).neutral (c := 'x') (by decide)
    exact ⟨fun _ _ => nofun, hhex.trans hdigits⟩
  · split at h
    · rename_i start hpoint
      obtain ⟨hl, hrest⟩ := passes_fraction h
      exact ⟨hl, hrest.trans (passes_point hc hpoint)⟩
    · rename_i hpoint
      obtain ⟨hl, hrest⟩ := passes_fraction h
      rcases hc with hc | rfl
      · rw [List.dropWhile_cons_of_pos hc] at hrest
        exact ⟨hl, hrest.trans hdigits⟩
      · exact absurd rfl (hpoint cs)

/-- Whether two characters in a row are not the start of a comment. -/
def Apart (c d : Char) : Prop := ¬(c = '-' ∧ d = '-') ∧ ¬(c = '/' ∧ d = '*')

instance (c d : Char) : Decidable (Apart c d) := inferInstanceAs (Decidable (_ ∧ _))

theorem passes_of_isChain : ∀ {s : List Char}, (∀ c ∈ s, Text.isBlank c = false ∧ c ∉ Rules.sql.quotes ∧ c ∉ marks) →
    (s ++ rest.head?.toList).IsChain Apart → Passes rest (s ++ rest)
  | [], _, _ => .refl
  | c :: s, hs, hchain => by
    rw [List.cons_append, List.isChain_cons] at hchain
    have hhead : (s ++ rest).head? = (s ++ rest.head?.toList).head? := by cases s <;> cases rest <;> rfl
    obtain ⟨hblank, hquotes, hmarks⟩ := hs c List.mem_cons_self
    refine .cons (Rules.first_char hblank hquotes (fun h => ?_) fun h => ?_) hmarks
      (passes_of_isChain (fun d hd => hs d (List.mem_cons_of_mem _ hd)) hchain.2)
    · exact (hchain.1 '-' (hhead ▸ h.2)).1 ⟨h.1, rfl⟩
    · exact (hchain.1 '*' (hhead ▸ h.2)).2 ⟨h.1, rfl⟩

/-- What the answer depends on in a symbol of more than one character. A comment could seem to start only behind
one that ends in a dash or a slash. -/
structure Operator (s : String) : Prop where
  chars : ∀ c ∈ s.toList, Text.isBlank c = false ∧ c ∉ Rules.sql.quotes ∧ c ∉ marks
  chain : s.toList.IsChain Apart
  nonempty : s.toList ≠ []
  unmarked : s ∉ ["(", ")", ";"]
  dash : s.toList.getLast? = some '-' → s = "#-"
  slash : s.toList.getLast? = some '/' → s ∈ ["||/", "|/", "//"]

theorem longSymbols_all : (longSymbols.all fun s =>
    s.toList.all (fun c => !Text.isBlank c && !Rules.sql.quotes.contains c && !marks.contains c) &&
      decide (s.toList.IsChain Apart) && decide (s.toList ≠ []) && decide (s ∉ ["(", ")", ";"]) &&
      decide (s.toList.getLast? = some '-' → s = "#-") &&
      decide (s.toList.getLast? = some '/' → s ∈ ["||/", "|/", "//"])) = true := by decide +kernel

theorem operator_of_mem {s : String} (hs : s ∈ longSymbols) : Operator s := by
  have h := List.all_eq_true.1 longSymbols_all s hs
  simp only [Bool.and_eq_true, decide_eq_true_eq] at h
  obtain ⟨⟨⟨⟨⟨hchars, hchain⟩, hnonempty⟩, hunmarked⟩, hdash⟩, hslash⟩ := h
  refine ⟨fun c hc => ?_, hchain, hnonempty, hunmarked, hdash, hslash⟩
  simpa [and_assoc] using List.all_eq_true.1 hchars c hc

theorem Operator.mute {s : String} (hs : Operator s) : (symbol s).Mute :=
  fun _ hm he => hs.unmarked (Lexeme.symbol.inj he ▸ hm)

theorem Operator.apart {s : String} (hs : Operator s) (hp : Plain (s.toList ++ rest)) :
    ∀ c ∈ s.toList.getLast?, ∀ d ∈ rest.head?, Apart c d := by
  intro c hc d hd
  obtain ⟨r, rfl⟩ := List.head?_eq_some_iff.1 hd
  constructor
  · rintro ⟨rfl, rfl⟩
    rw [hs.dash hc] at hp
    exact hp.operators "#--" (by decide) ⟨[], r, rfl⟩
  · rintro ⟨rfl, rfl⟩
    have hmem := hs.slash hc
    simp only [List.mem_cons, List.not_mem_nil, or_false] at hmem
    rcases hmem with rfl | rfl | rfl
    · exact hp.operators "|/*" (by decide) ⟨['|'], r, rfl⟩
    · exact hp.operators "|/*" (by decide) ⟨[], r, rfl⟩
    · exact hp.operators "//*" (by decide) ⟨[], r, rfl⟩

theorem Operator.passes {s : String} (hs : Operator s) (hp : Plain (s.toList ++ rest)) :
    Passes rest (s.toList ++ rest) := by
  refine passes_of_isChain hs.chars (List.isChain_append.2 ⟨hs.chain, ?_, ?_⟩)
  · cases rest <;> simp
  · have hhead : rest.head?.toList.head? = rest.head? := by cases rest <;> rfl
    rw [hhead]
    exact hs.apart hp

theorem adds_readSymbol (hp : Plain (c :: cs)) (hfirst : Rules.sql.first c cs = (.char c, some cs))
    (h : readSymbol c cs = (l, rest)) : rest <:+ cs ∧
      Reading.Adds (some l) (Rules.sql.read rest) (Rules.sql.read (c :: cs)) := by
  unfold readSymbol at h
  split at h
  · rename_i s hfind
    cases h
    have hs := operator_of_mem (List.mem_of_find?_eq_some hfind)
    have hprefix := List.find?_some hfind
    obtain ⟨t, ht⟩ := List.isPrefixOf_iff_prefix.1 hprefix
    have hsuffix : t <:+ cs := by
      obtain ⟨d, s', hcons⟩ := List.exists_cons_of_ne_nil hs.nonempty
      rw [hcons] at ht
      exact ⟨s', (List.cons.inj ht).2⟩
    rw [← ht] at hp
    have hpasses := hs.passes hp
    rw [← ht, List.drop_left]
    exact ⟨hsuffix, adds_of_passes hs.mute hpasses (ht ▸ ne_of_suffix hsuffix)⟩
  · cases h
    refine ⟨List.suffix_rfl, ?_⟩
    rw [Rules.read_cons_of_some hfirst]
    exact Reading.adds_char c _

/-! ### Words -/

/-- Without backslashes both ways to read a quoted text end at the same place. -/
theorem rest_readEscaped : ∀ {cs : List Char}, '\\' ∉ cs →
    (readEscaped cs).map (·.2) = (readQuoted '\'' cs).map (·.2)
  | [], _ => rfl
  | [c], _ => by
    rw [readEscaped, readQuoted]
  | c :: d :: r, h => by
    have hc : c ≠ '\\' := fun hc => h (hc ▸ List.mem_cons_self)
    have hr : '\\' ∉ r := fun hr => h (List.mem_cons_of_mem _ (List.mem_cons_of_mem _ hr))
    have hdr : '\\' ∉ d :: r := fun hr => h (List.mem_cons_of_mem _ hr)
    rw [readEscaped, readQuoted, if_neg hc]
    split_ifs with hquote htwice
    · rw [Option.map_map, Option.map_map]
      exact rest_readEscaped hr
    · rfl
    · rw [Option.map_map, Option.map_map]
      exact rest_readEscaped hdr

theorem isNeutral_of_isNameStart (hc : isNameStart c = true) : isNeutral c = true := by
  refine isNeutral_of_isNamePart ?_
  simp only [isNameStart, Bool.or_eq_true, decide_eq_true_eq] at hc
  rcases hc with hc | hc <;> simp [isNamePart, hc]

/-- A letter in front of a quoted text, as in the literals that are marked by one. -/
theorem read_marked (hc : isNeutral c = true) {r : List Char} (hr : '\\' ∉ r) : Rules.sql.read (c :: '\'' :: r) =
    (Reading.ofFirst Rules.sql.read (.quoted '\'', (readEscaped r).map (·.2))).cons (.char c) := by
  rw [Rules.read_cons_of_some (Rules.first_neutral hc), Rules.read_cons, Rules.first_quote (by decide),
    rest_readEscaped hr]

theorem adds_readWord (hp : Plain (c :: cs)) (hc : isNameStart c = true) (h : readWord c cs = .ok (l, rest)) :
    rest <:+ cs ∧ Reading.Adds (some l) (Rules.sql.read rest) (Rules.sql.read (c :: cs)) := by
  have hneutral := isNeutral_of_isNameStart hc
  unfold readWord at h
  split at h
  · rename_i r
    have hr : '\\' ∉ r := fun hr => hp.backslash (List.mem_cons_of_mem _ (List.mem_cons_of_mem _ hr))
    split_ifs at h with hescaped hmarked
    · split at h
      · rename_i s rest' hread
        cases h
        have hquoted := (rest_readEscaped hr).symm
        rw [hread] at hquoted
        obtain ⟨⟨s', rest''⟩, hs', rfl⟩ := Option.map_eq_some_iff.1 hquoted
        rw [read_marked hneutral hr, hread]
        exact ⟨(readQuoted_suffix hs').trans (List.suffix_cons _ _),
          (Reading.adds_mute (by simp [Mute]) (Piece.mute_quoted _) _).cons
            (Piece.mute_char (isNeutral_iff.1 hneutral).2.2.1)⟩
      · cases h
    · cases h
      exact ⟨List.suffix_rfl, adds_of_passes (by simp [Mute]) (.neutral hneutral .refl) (ne_of_suffix List.suffix_rfl)⟩
  · cases h
    have hpasses := Passes.nameParts cs
    exact ⟨hpasses.suffix, adds_of_passes (by simp [Mute]) (hpasses.neutral hneutral) (ne_of_suffix hpasses.suffix)⟩

theorem closed_of_readWord_error {e : SyntaxFault} (hp : Plain (c :: cs)) (hc : isNameStart c = true)
    (h : readWord c cs = .error e) : e = .escapedText ∨ (Rules.sql.read (c :: cs)).closed = false := by
  unfold readWord at h
  split at h
  · rename_i r
    have hr : '\\' ∉ r := fun hr => hp.backslash (List.mem_cons_of_mem _ (List.mem_cons_of_mem _ hr))
    split_ifs at h
    · cases h
      exact .inl rfl
    · split at h
      · cases h
      · rename_i hread
        rw [read_marked (isNeutral_of_isNameStart hc) hr, hread]
        exact .inr rfl
  · cases h

/-! ### Any lexeme -/

/-- What the first character of a text leads to: white space or a comment, a quoted text or name, an end inside of
one of these, or one of the other lexemes. -/
inductive Starts (c : Char) (cs : List Char) : Except SyntaxFault (Option Lexeme × List Char) → Prop where
  | skipped {p : Piece} {rest : List Char} (hfirst : Rules.sql.first c cs = (p, some rest)) (hp : p.isToken = false) :
      Starts c cs (.ok (none, rest))
  | quoted {s rest : List Char} {l : Lexeme} (hc : c ∈ Rules.sql.quotes) (hread : readQuoted c cs = some (s, rest))
      (hl : l.Mute) : Starts c cs (.ok (some l, rest))
  | unclosed {p : Piece} {e : SyntaxFault} (hfirst : Rules.sql.first c cs = (p, none)) : Starts c cs (.error e)
  | number {l : Lexeme} {rest : List Char} (hc : c.isDigit = true ∨ c = '.')
      (hread : readNumber (c :: cs) = (l, rest)) : Starts c cs (.ok (some l, rest))
  | word (hc : isNameStart c = true) : Starts c cs (do
      let (l, rest) ← readWord c cs
      return (some l, rest))
  | dollar {r : Except SyntaxFault (Option Lexeme × List Char)} (hc : c = '$') : Starts c cs r
  | parameter (hc : c = '?') {spelling : String} :
      Starts c cs (.ok (some (placeholder spelling), cs.dropWhile Char.isDigit))
  | symbol {l : Lexeme} {rest : List Char} (hfirst : Rules.sql.first c cs = (.char c, some cs))
      (hread : readSymbol c cs = (l, rest)) : Starts c cs (.ok (some l, rest))

theorem starts_quoted {q : Char} (hq : q ∈ Rules.sql.quotes) {e : SyntaxFault} {f : String → Lexeme}
    (hf : ∀ s, (f s).Mute) : Starts q cs (match readQuoted q cs with
      | some (s, rest) => .ok (some (f (String.ofList s)), rest)
      | none => .error e) := by
  have hfirst := Rules.first_quote hq cs
  split
  · rename_i s rest hread
    exact .quoted hq hread (hf _)
  · rename_i hread
    rw [hread] at hfirst
    exact .unclosed hfirst

theorem starts (c : Char) (cs : List Char) : Starts c cs (read c cs) := by
  unfold read
  by_cases hblank : Text.isBlank c = true
  · rw [if_pos hblank]
    exact .skipped (by rw [Rules.first, if_pos hblank]) rfl
  rw [if_neg hblank]
  by_cases hline : (c = '-' && cs.head? = some '-') = true
  · rw [if_pos hline]
    exact .skipped (by rw [Rules.first, if_neg hblank, if_pos hline]) rfl
  rw [if_neg hline]
  by_cases hnested : (c = '/' && cs.head? = some '*') = true
  · rw [if_pos hnested]
    have hfirst : Rules.sql.first c cs = (.comment, skipComment 0 (cs.drop 1)) := by
      rw [Rules.first, if_neg hblank, if_neg hline, if_pos (by simpa [Rules.sql] using hnested)]
    split
    · rename_i hskip
      rw [hskip] at hfirst
      exact .skipped hfirst rfl
    · rename_i hskip
      rw [hskip] at hfirst
      exact .unclosed hfirst
  rw [if_neg hnested]
  by_cases htext : c = '\''
  · rw [if_pos htext]
    exact starts_quoted (by rw [htext]; decide) fun s _ _ => nofun
  rw [if_neg htext]
  by_cases hname : nameQuotes.contains c = true
  · rw [if_pos hname]
    exact starts_quoted (f := fun s => word (.quoted c s))
      (List.mem_cons_of_mem _ (List.contains_iff_mem.1 hname)) fun s _ _ => nofun
  rw [if_neg hname]
  by_cases hnumber : (c.isDigit || c = '.') = true
  · rw [if_pos hnumber]
    exact .number (by simpa using hnumber) rfl
  rw [if_neg hnumber]
  by_cases hword : isNameStart c = true
  · rw [if_pos hword]
    exact .word hword
  rw [if_neg hword]
  by_cases hdollar : c = '$'
  · exact .dollar hdollar
  rw [if_neg hdollar]
  by_cases hparameter : c = '?'
  · rw [if_pos hparameter]
    exact .parameter hparameter
  rw [if_neg hparameter]
  refine .symbol (Rules.first_char (Bool.eq_false_iff.2 hblank) (fun hc => ?_) (by simpa using hline)
    (by simpa using hnested)) rfl
  exact (List.mem_cons.1 hc).elim htext fun hc => hname (List.contains_iff_mem.2 hc)

/-- A lexeme adds its pieces to the reading of what stands behind it. -/
theorem adds_of_read {l : Option Lexeme} (hp : Plain (c :: cs)) (h : read c cs = .ok (l, rest)) :
    rest <:+ cs ∧ Reading.Adds l (Rules.sql.read rest) (Rules.sql.read (c :: cs)) := by
  have hstarts := starts c cs
  rw [h] at hstarts
  generalize hr : (Except.ok (l, rest) : Except SyntaxFault _) = r at hstarts
  cases hstarts with
  | skipped hfirst hnone =>
    cases hr
    rw [Rules.read_cons_of_some hfirst]
    exact ⟨Rules.first_suffix hfirst, Reading.adds_none hnone _⟩
  | quoted hc hread hl =>
    cases hr
    have hfirst := Rules.first_quote hc cs
    rw [hread] at hfirst
    rw [Rules.read_cons_of_some hfirst]
    exact ⟨readQuoted_suffix hread, Reading.adds_mute hl (Piece.mute_quoted c) _⟩
  | unclosed => cases hr
  | number hc hread =>
    cases hr
    obtain ⟨hl, hpasses⟩ := passes_readNumber hc hread
    have hneutral : isNeutral c = true := hc.elim isNeutral_of_isDigit (by rintro rfl; decide)
    exact ⟨hpasses.suffix, adds_of_passes hl (hpasses.neutral hneutral) (ne_of_suffix hpasses.suffix)⟩
  | word hc =>
    obtain ⟨⟨w, rest'⟩, hread, hr⟩ := bind_ok hr.symm
    cases hr
    exact adds_readWord hp hc hread
  | dollar hc => exact absurd (hc ▸ List.mem_cons_self) hp.dollar
  | parameter hc =>
    cases hr
    have hpasses := Passes.digits cs
    have hneutral : isNeutral c = true := by rw [hc]; decide
    exact ⟨hpasses.suffix, adds_of_passes (by simp [Mute]) (hpasses.neutral hneutral) (ne_of_suffix hpasses.suffix)⟩
  | symbol hfirst hread =>
    cases hr
    exact adds_readSymbol hp hfirst hread

/-- A fault ends a text inside of a quote or a comment. -/
theorem closed_of_read_error {e : SyntaxFault} (hp : Plain (c :: cs)) (h : read c cs = .error e) :
    e = .escapedText ∨ (Rules.sql.read (c :: cs)).closed = false := by
  have hstarts := starts c cs
  rw [h] at hstarts
  generalize hr : (Except.error e : Except SyntaxFault (Option Lexeme × List Char)) = r at hstarts
  cases hstarts with
  | unclosed hfirst =>
    rw [Rules.read_cons_of_none hfirst]
    exact .inr rfl
  | word hc =>
    rcases bind_error hr.symm with hword | ⟨a, -, hr⟩
    · exact closed_of_readWord_error hp hc hword
    · cases hr
  | dollar hc => exact absurd (hc ▸ List.mem_cons_self) hp.dollar
  | skipped | quoted | number | parameter | symbol => cases hr

end Step

/-! ## Whole texts -/

theorem readAll_nil (n : Nat) : readAll n [] = .ok [] := by cases n <;> rfl

theorem readAll_cons (n : Nat) (c : Char) (cs : List Char) : readAll (n + 1) (c :: cs) = (do
    let (l, rest) ← read c cs
    return l.toList ++ (← readAll n rest)) := rfl

/-- The last lexeme of a text that starts with `l` or with none. -/
theorem elim_getLast?_append (l : Option Lexeme) (ls : List Lexeme) (before : Bool) :
    (l.toList ++ ls).getLast?.elim before (· == .symbol ";") =
      ls.getLast?.elim (l.elim before (· == .symbol ";")) (· == .symbol ";") := by
  cases l with
  | none => rfl
  | some l => rw [Option.toList_some, List.singleton_append, List.getLast?_cons]; cases ls.getLast? <;> rfl

theorem read_of_readAll : ∀ {n : Nat} {cs : List Char} {ls : List Lexeme}, cs.length ≤ n → Plain cs →
    readAll n cs = .ok ls → (Rules.sql.read cs).closed = true ∧
      (Rules.sql.read cs).pieces.count (.char '(') = ls.count (.symbol "(") ∧
      (Rules.sql.read cs).pieces.count (.char ')') = ls.count (.symbol ")") ∧
      ∀ before, (Rules.sql.read cs).ends before = ls.getLast?.elim before (· == .symbol ";")
  | n, [], ls, _, _, h => by
    rw [readAll_nil] at h
    cases h
    exact ⟨rfl, rfl, rfl, fun _ => rfl⟩
  | n + 1, c :: cs, ls, hn, hp, h => by
    rw [readAll_cons] at h
    obtain ⟨⟨l, rest⟩, hread, h⟩ := bind_ok h
    obtain ⟨ls', hls, h⟩ := bind_ok h
    cases h
    obtain ⟨hsuffix, hadds⟩ := adds_of_read hp hread
    have hlength : rest.length ≤ n := hsuffix.length_le.trans (Nat.le_of_succ_le_succ hn)
    obtain ⟨hclosed, hopens, hcloses, hends⟩ :=
      read_of_readAll hlength (hp.of_suffix (hsuffix.trans (List.suffix_cons c cs))) hls
    refine ⟨hadds.closed.trans hclosed, ?_, ?_, fun before => ?_⟩
    · rw [hadds.opens, hopens, List.count_append]
    · rw [hadds.closes, hcloses, List.count_append]
    · rw [hadds.ends, hends, elim_getLast?_append]

theorem closed_of_readAll_error {e : SyntaxFault} : ∀ {n : Nat} {cs : List Char}, cs.length ≤ n → Plain cs →
    readAll n cs = .error e → e = .escapedText ∨ (Rules.sql.read cs).closed = false
  | n, [], _, _, h => by
    rw [readAll_nil] at h
    cases h
  | n + 1, c :: cs, hn, hp, h => by
    rw [readAll_cons] at h
    rcases bind_error h with h | ⟨⟨l, rest⟩, hread, h⟩
    · exact closed_of_read_error hp h
    · obtain ⟨hsuffix, hadds⟩ := adds_of_read hp hread
      have hlength : rest.length ≤ n := hsuffix.length_le.trans (Nat.le_of_succ_le_succ hn)
      rw [hadds.closed]
      rcases bind_error h with h | ⟨a, -, h⟩
      · exact closed_of_readAll_error hlength (hp.of_suffix (hsuffix.trans (List.suffix_cons c cs))) h
      · cases h

/-- The lexer cuts a text into lexemes with no parenthesis open and a semicolon at the end exactly when the
rules of the language read it so. -/
theorem complete_iff_ofChars {cs : List Char} (hp : Plain cs) (he : ofChars cs ≠ .error .escapedText) :
    (Rules.sql.read cs).Complete ↔ ∃ ls, ofChars cs = .ok ls ∧ ls.count (.symbol "(") ≤ ls.count (.symbol ")") ∧
      ls.getLast? = some (.symbol ";") := by
  rw [Reading.complete_iff_ends]
  cases hread : ofChars cs with
  | error e =>
    rcases closed_of_readAll_error le_rfl hp hread with rfl | hclosed
    · exact absurd hread he
    · simp [hclosed]
  | ok ls =>
    obtain ⟨hclosed, hopens, hcloses, hends⟩ := read_of_readAll le_rfl hp hread
    rw [hclosed, hopens, hcloses, hends]
    cases hlast : ls.getLast? <;> simp [hlast]

end Lexeme

end TableQuery.Sql
