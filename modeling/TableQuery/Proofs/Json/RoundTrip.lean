/-
Reading back what is printed as JSON. Behind every piece that is printed stands a character that is no part of a
number, so the reader finds the tokens that were printed, and they are those of an array with one object for each
row.
-/
import TableQuery.Output.Mode
import TableQuery.Proofs.Json.Reader

namespace TableQuery.Json

open Double (Shows)

/-! ## Strings -/

theorem readText?_plain {c : Char} (hq : c ≠ '"') (hb : c ≠ '\\') (hc : ¬c.toNat < 0x20) (r : List Char) :
    readText? (c :: r) = (readText? r).map fun (cs, r) => (c :: cs, r) := by
  rw [readText?, if_neg hq, if_neg hb, if_neg hc]

theorem readText?_escaped {c : Char} {cs r : List Char} (h : readEscape? cs = some (c, r)) :
    readText? ('\\' :: cs) = (readText? r).map fun (ds, r) => (c :: ds, r) := by
  rw [readText?, if_neg (by decide), if_pos rfl]
  split
  · rename_i hnone
    rw [h] at hnone
    cases hnone
  · rename_i c' r' hsome
    rw [h] at hsome
    cases hsome
    rfl

theorem hexValue?_hexDigit_all : ∀ n < 16, hexValue? (hexDigit n) = some n := by decide

theorem readEscape?_control {c : Char} (hc : c.toNat < 0x20) (r : List Char) :
    readEscape? ('u' :: '0' :: '0' :: hexDigit (c.toNat / 16) :: hexDigit (c.toNat % 16) :: r) = some (c, r) := by
  have h0 : hexValue? '0' = some 0 := by decide
  have hunit : readUnit? ('0' :: '0' :: hexDigit (c.toNat / 16) :: hexDigit (c.toNat % 16) :: r) =
      some (c.toNat, r) := by
    rw [readUnit?, h0, hexValue?_hexDigit_all _ (by omega), hexValue?_hexDigit_all _ (by omega)]
    show some (4096 * 0 + 256 * 0 + 16 * (c.toNat / 16) + c.toNat % 16, r) = _
    rw [show 4096 * 0 + 256 * 0 + 16 * (c.toNat / 16) + c.toNat % 16 = c.toNat by omega]
  rw [readEscape?, if_pos rfl, readUnicode?, hunit]
  show (if c.toNat < 0xD800 ∨ 0xE000 ≤ c.toNat then some (Char.ofNat c.toNat, r) else _) = _
  rw [if_pos (.inl (by omega)), Char.ofNat_toNat]

/-- What is written for a character is read as this character. -/
theorem readText?_escape_append (c : Char) (r : List Char) :
    readText? (escape c ++ r) = (readText? r).map fun (cs, r) => (c :: cs, r) := by
  rw [escape]
  iterate 5
    split
    · rename_i h
      subst h
      exact readText?_escaped rfl
  split
  · rename_i h
    exact readText?_escaped (readEscape?_control h r)
  · exact readText?_plain ‹_› ‹_› ‹_› r

theorem readText?_flatMap_escape (cs r : List Char) : readText? (cs.flatMap escape ++ '"' :: r) = some (cs, r) := by
  induction cs with
  | nil => rw [List.flatMap_nil, List.nil_append, readText?, if_pos rfl]
  | cons c cs ih => rw [List.flatMap_cons, List.append_assoc, readText?_escape_append, ih, Option.map_some]

/-! ## Numbers -/

/-- No digit, point or exponent begins the text. -/
def Ends (r : List Char) : Prop := ∀ c ∈ r.head?, c.isDigit = false ∧ c ≠ '.' ∧ c ≠ 'e' ∧ c ≠ 'E'

theorem readDigits?_append {ds r : List Char} (hds : Double.IsDigits ds) (hr : ∀ c ∈ r.head?, c.isDigit = false) :
    readDigits? (ds ++ r) = some (ds, r) := by
  have htake : r.takeWhile Char.isDigit = [] ∧ r.dropWhile Char.isDigit = r := by
    cases r with
    | nil => exact ⟨rfl, rfl⟩
    | cons c r =>
      have hc : ¬c.isDigit = true := by simp [hr c rfl]
      exact ⟨List.takeWhile_cons_of_neg hc, List.dropWhile_cons_of_neg hc⟩
  rw [readDigits?, List.takeWhile_append_of_pos hds.2, List.dropWhile_append_of_pos hds.2, htake.1, htake.2,
    List.append_nil, if_neg (by simp [hds.1])]

theorem readWhole?_append {ds r : List Char} (hds : Double.IsWhole ds) (hr : ∀ c ∈ r.head?, c.isDigit = false) :
    readWhole? (ds ++ r) = some (ds, r) := by
  rw [readWhole?, readDigits?_append hds.1 hr]
  exact if_neg fun h => h.2 (hds.2 h.1)

theorem readPower?_of_ends {r : List Char} (hr : Ends r) : readPower? r = some (0, r) := by
  cases r with
  | nil => rfl
  | cons c r =>
    obtain ⟨-, -, he, hE⟩ := hr c rfl
    rw [readPower?, if_neg (by simp [he, hE])]

theorem splitMinus_signChars (neg : Bool) {ds : List Char} (hds : Double.IsDigits ds) (r : List Char) :
    splitMinus (Double.signChars neg ++ (ds ++ r)) = (neg, ds ++ r) := by
  cases neg with
  | true => rfl
  | false =>
    obtain ⟨c, cs, rfl⟩ := List.exists_cons_of_ne_nil hds.1
    have hc : c ≠ '-' := by
      rintro rfl
      exact absurd (hds.2 '-' List.mem_cons_self) (by decide)
    show splitMinus (c :: (cs ++ r)) = _
    unfold splitMinus
    split
    · rename_i h
      exact absurd (List.cons.inj h).1 hc
    · rfl

/-- A decimal is read up to what stands behind it. -/
theorem readNumber?_append {cs r : List Char} {q : Rat} (h : Shows cs q) (hr : Ends r) :
    readNumber? (cs ++ r) = some (q, r) := by
  cases h with
  | @whole neg ds hds =>
    -- what stands behind the digits is neither a point nor a power of ten
    have hplaces : readPlaces? r = some ([], r) := by
      unfold readPlaces?
      split
      · exact absurd rfl (hr '.' rfl).2.1
      · rfl
    rw [List.append_assoc, readNumber?, splitMinus_signChars neg hds.1, readWhole?_append hds fun c hc => (hr c hc).1]
    show ((readPlaces? r).bind fun _ => _) = _
    rw [hplaces]
    show ((readPower? r).bind fun _ => _) = _
    rw [readPower?_of_ends hr]
    show some (Double.decimal neg (Double.natOfDigits (ds ++ [])) 0, r) = _
    rw [List.append_nil]
  | @point neg ds ps hds hps =>
    have hpoint : ∀ c ∈ ('.' :: (ps ++ r)).head?, c.isDigit = false := by
      rintro c ⟨⟩
      rfl
    have hplaces : readPlaces? ('.' :: (ps ++ r)) = some (ps, r) := readDigits?_append hps fun c hc => (hr c hc).1
    rw [List.append_assoc, List.append_assoc, List.cons_append, readNumber?, splitMinus_signChars neg hds.1,
      readWhole?_append hds hpoint]
    show ((readPlaces? ('.' :: (ps ++ r))).bind fun _ => _) = _
    rw [hplaces]
    show ((readPower? r).bind fun _ => _) = _
    rw [readPower?_of_ends hr]
    show some (Double.decimal neg (Double.natOfDigits (ds ++ ps)) (0 - ps.length), r) = _
    rw [Int.zero_sub]

theorem exists_cons_of_shows {cs : List Char} {q : Rat} (h : Shows cs q) :
    ∃ c r, cs = c :: r ∧ (c = '-' ∨ c.isDigit = true) := by
  have hfirst (neg : Bool) {ds : List Char} (hds : Double.IsDigits ds) (r : List Char) :
      ∃ c r', Double.signChars neg ++ (ds ++ r) = c :: r' ∧ (c = '-' ∨ c.isDigit = true) := by
    obtain ⟨d, ds, rfl⟩ := List.exists_cons_of_ne_nil hds.1
    cases neg with
    | true => exact ⟨'-', _, rfl, .inl rfl⟩
    | false => exact ⟨d, _, rfl, .inr (hds.2 d List.mem_cons_self)⟩
  cases h with
  | @whole neg ds hds => simpa using hfirst neg hds.1 []
  | @point neg ds ps hds hps => exact hfirst neg hds.1 _

/-! ## Tokens -/

variable {r : List Char} {ts : List Token}

theorem tokens?_space {c : Char} (hc : isSpace c = true) : tokens? (c :: r) = tokens? r := by
  rw [tokens?, if_pos hc]

theorem tokens?_next {c : Char} {cs : List Char} {t : Token} (hc : isSpace c = false)
    (h : nextToken? (c :: cs) = some (t, r)) (hr : tokens? r = some ts) : tokens? (c :: cs) = some (t :: ts) := by
  rw [tokens?, if_neg (by simp [hc])]
  split
  · rename_i hnone
    rw [h] at hnone
    cases hnone
  · rename_i hsome
    rw [h] at hsome
    cases hsome
    rw [hr, Option.map_some]

theorem tokens?_symbol {c : Char} {t : Token} (hc : isSpace c = false) (ht : symbol? c = some t)
    (hr : tokens? r = some ts) : tokens? (c :: r) = some (t :: ts) :=
  tokens?_next hc (by rw [nextToken?, ht]) hr

theorem tokens?_text (s : String) (hr : tokens? r = some ts) :
    tokens? ((ofText s).toList ++ r) = some (.text s :: ts) := by
  have hnext : nextToken? ('"' :: (s.toList.flatMap escape ++ '"' :: r)) = some (.text s, r) := by
    show (readText? _).map _ = _
    rw [readText?_flatMap_escape]
    show some (Token.text (String.ofList s.toList), r) = _
    rw [String.ofList_toList]
  have htext : (ofText s).toList ++ r = '"' :: (s.toList.flatMap escape ++ '"' :: r) := by
    rw [ofText, String.toList_ofList]
    simp
  rw [htext]
  exact tokens?_next rfl hnext hr

theorem ne_of_signOrDigit {c d : Char} (hc : c = '-' ∨ c.isDigit = true) (hd : d ≠ '-' ∧ d.isDigit = false) :
    c ≠ d := by
  rintro rfl
  rcases hc with hc | hc
  · exact hd.1 hc
  · rw [hd.2] at hc
    cases hc

/-- No symbol, word or string begins with a sign or a digit. -/
theorem nextToken?_number {c : Char} {cs : List Char} {q : Rat} (hc : c = '-' ∨ c.isDigit = true)
    (h : readNumber? (c :: cs) = some (q, r)) : nextToken? (c :: cs) = some (.number q, r) := by
  have hne {d : Char} : d ≠ '-' ∧ d.isDigit = false → c ≠ d := ne_of_signOrDigit hc
  have hsymbol : symbol? c = none := by
    unfold symbol?
    split
    case h_7 => rfl
    all_goals exact absurd rfl (hne (by decide))
  have hwords : words.find? (fun w => w.1.isPrefixOf (c :: cs)) = none := by
    have hn : c ≠ 'n' := hne (by decide)
    have ht : c ≠ 't' := hne (by decide)
    have hf : c ≠ 'f' := hne (by decide)
    simp [words, List.isPrefixOf, hn.symm, ht.symm, hf.symm]
  rw [nextToken?, hsymbol, hwords]
  show (if c = '"' then _ else _) = _
  rw [if_neg (hne (by decide)), h]
  rfl

theorem tokens?_number {cs : List Char} {q : Rat} (h : Shows cs q) (hends : Ends r) (hr : tokens? r = some ts) :
    tokens? (cs ++ r) = some (.number q :: ts) := by
  have hnumber := readNumber?_append h hends
  obtain ⟨c, cs, rfl, hc⟩ := exists_cons_of_shows h
  have hspace : isSpace c = false := by
    have hne {d : Char} : d ≠ '-' ∧ d.isDigit = false → c ≠ d := ne_of_signOrDigit hc
    simp [isSpace, hne (d := ' ') (by decide), hne (d := '\t') (by decide), hne (d := '\n') (by decide),
      hne (d := '\r') (by decide)]
  exact tokens?_next hspace (nextToken?_number hc hnumber) hr

/-! ## Values -/

/-- The value that a value of a table stands for: floats that are no numbers are null, all others are the decimals
that they are shown as. -/
def Tree.ofValue : Value → Tree
  | .null => .null
  | .bool b => .bool b
  | .int i => .number i.toInt
  | .float x => if x.isFinite then .number x.shown else .null
  | .text s => .text s

theorem tokens?_value (v : Value) (hends : Ends r) (hr : tokens? r = some ts) :
    tokens? ((ofValue v).toList ++ r) = some ((Tree.ofValue v).tokens ++ ts) := by
  have hnull : tokens? ("null".toList ++ r) = some (.null :: ts) := tokens?_next rfl rfl hr
  cases v with
  | null => exact hnull
  | bool b =>
    cases b with
    | true => exact tokens?_next rfl rfl hr
    | false => exact tokens?_next rfl rfl hr
  | int i => exact tokens?_number (Double.shows_toText i) hends hr
  | float x =>
    rw [ofValue, Tree.ofValue]
    split
    · rename_i hx
      have htext : (Value.float x).toText.toList = x.toChars := String.toList_ofList
      rw [htext]
      exact tokens?_number (Double.shows_toChars hx) hends hr
    · exact hnull
  | text s => exact tokens?_text s hr

/-! ## Tables -/

/-- The object of a row. -/
def Tree.ofRow (fields : List String) (row : Row) : Tree :=
  .object ((fields.zip row).map fun (name, v) => (name, .ofValue v))

def memberChars (m : String × Value) : List Char := (ofText m.1).toList ++ ':' :: ' ' :: (ofValue m.2).toList

theorem tokens?_member (m : String × Value) (hends : Ends r) (hr : tokens? r = some ts) :
    tokens? (memberChars m ++ r) = some (.text m.1 :: .colon :: ((Tree.ofValue m.2).tokens ++ ts)) := by
  have hvalue := tokens?_value m.2 hends hr
  rw [memberChars, List.append_assoc]
  refine tokens?_text m.1 (tokens?_symbol rfl rfl ?_)
  exact (tokens?_space rfl).trans hvalue

theorem ends_of_symbol {c : Char} (hc : c.isDigit = false ∧ c ≠ '.' ∧ c ≠ 'e' ∧ c ≠ 'E') (r : List Char) :
    Ends (c :: r) := by
  rintro _ ⟨⟩
  exact hc

/-- The members of an object up to its closing brace. -/
theorem tokens?_members (hr : tokens? r = some ts) : ∀ (m : String × Value) (ms : List (String × Value)),
    tokens? ([',', ' '].intercalate ((m :: ms).map memberChars) ++ '\x7d' :: r) =
      some (.text m.1 :: .colon :: ((Tree.ofValue m.2).tokens ++
        (moreMembers (ms.map fun (name, v) => (name, Tree.ofValue v)) ++ ts)))
  | m, [] => by
    rw [List.map_singleton, List.intercalate_singleton]
    exact tokens?_member m (ends_of_symbol (by decide) r) (tokens?_symbol rfl rfl hr)
  | m, n :: ms => by
    -- a comma stands behind the first member, and then what the other members are read from
    have hmore := tokens?_members hr n ms
    rw [List.map_cons] at hmore
    simp only [List.map_cons, List.intercalate_cons_cons, moreMembers, List.append_assoc, List.cons_append,
      List.nil_append]
    refine tokens?_member m (ends_of_symbol (by decide) _) (tokens?_symbol rfl rfl ?_)
    exact (tokens?_space rfl).trans hmore

theorem toList_ofRow (fields : List String) (row : Row) : (ofRow fields row).toList =
    '\x7b' :: ([',', ' '].intercalate ((fields.zip row).map memberChars) ++ ['\x7d']) := by
  simp only [ofRow, String.toList_append, String.toList_intercalate, List.map_map, Function.comp_def]
  have hmember : (fun m : String × Value => (ofText m.1).toList ++ ": ".toList ++ (ofValue m.2).toList) =
      memberChars := by
    funext m
    exact List.append_assoc _ _ _
  rw [hmember]
  rfl

theorem tokens?_row (fields : List String) (row : Row) (hr : tokens? r = some ts) :
    tokens? ((ofRow fields row).toList ++ r) = some ((Tree.ofRow fields row).tokens ++ ts) := by
  rw [toList_ofRow, List.cons_append, List.append_assoc, List.singleton_append, Tree.ofRow]
  cases fields.zip row with
  | nil => exact tokens?_symbol rfl rfl (tokens?_symbol rfl rfl hr)
  | cons m ms =>
    refine (tokens?_symbol rfl rfl (tokens?_members hr m ms)).trans ?_
    simp [Tree.tokens]

/-- The lines of the rows up to the closing bracket. -/
theorem tokens?_rows (fields : List String) (hr : tokens? r = some ts) : ∀ (row : Row) (rows : List Row),
    tokens? ([',', '\n'].intercalate ((row :: rows).map fun row => ' ' :: ' ' :: (ofRow fields row).toList) ++
        '\n' :: ']' :: r) =
      some ((Tree.ofRow fields row).tokens ++ (moreItems (rows.map (Tree.ofRow fields)) ++ ts))
  | row, [] => by
    rw [List.map_singleton, List.intercalate_singleton]
    refine (tokens?_space rfl).trans ((tokens?_space rfl).trans (tokens?_row fields row ?_))
    exact (tokens?_space rfl).trans (tokens?_symbol rfl rfl hr)
  | row, row' :: rows => by
    have hmore := tokens?_rows fields hr row' rows
    rw [List.map_cons] at hmore
    simp only [List.map_cons, List.intercalate_cons_cons, moreItems, List.append_assoc, List.cons_append,
      List.nil_append] at hmore ⊢
    refine (tokens?_space rfl).trans ((tokens?_space rfl).trans (tokens?_row fields row ?_))
    exact tokens?_symbol rfl rfl ((tokens?_space rfl).trans hmore)

/-- What is printed for a table as JSON is read as an array with one object for each row, which has the values of
the row under the names of the fields. -/
theorem read_print (t : Table) : read? (t.print .json) =
    some (.array (t.rows.map fun row => .object ((t.fields.zip row).map fun (name, v) => (name, .ofValue v)))) := by
  obtain ⟨fields, rows⟩ := t
  have hend : tokens? ['\n'] = some [] := (tokens?_space rfl).trans (by rw [tokens?])
  have htokens : tokens? (ofTable ⟨fields, rows⟩).toList = some (Tree.array (rows.map (Tree.ofRow fields))).tokens := by
    cases rows with
    | nil =>
      have hlines : (ofTable ⟨fields, []⟩).toList = ['[', '\n', ']', '\n'] := by
        simp [ofTable]
      rw [hlines]
      exact tokens?_symbol rfl rfl ((tokens?_space rfl).trans (tokens?_symbol rfl rfl hend))
    | cons row rows =>
      have hlines : (ofTable ⟨fields, row :: rows⟩).toList = '[' :: '\n' :: ([',', '\n'].intercalate
          ((row :: rows).map fun row => ' ' :: ' ' :: (ofRow fields row).toList) ++ ['\n', ']', '\n']) := by
        simp [ofTable, String.toList_intercalate, Function.comp_def]
      rw [hlines]
      refine (tokens?_symbol rfl rfl ((tokens?_space rfl).trans (tokens?_rows fields hend row rows))).trans ?_
      simp [Tree.tokens]
  exact (congrArg (·.bind ofTokens?) htokens).trans (ofTokens?_eq_some_iff.2 rfl)

end TableQuery.Json
