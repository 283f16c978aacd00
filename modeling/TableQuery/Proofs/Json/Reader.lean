/-
Texts in JSON and the values they stand for. A text is cut into tokens, with every escape of a string and the exact
value of a number; a machine with a stack of the arrays and objects that are open makes a value of the tokens.
-/
import TableQuery.Proofs.Number.Decimal

namespace TableQuery.Json

/-- A value. The members of an object stand in their order, also those of one name. -/
inductive Tree where
  | null
  | bool (b : Bool)
  | number (q : Rat)
  | text (s : String)
  | array (items : List Tree)
  | object (members : List (String × Tree))

inductive Token where
  | openBracket | closeBracket | openBrace | closeBrace | comma | colon
  | null
  | bool (b : Bool)
  | number (q : Rat)
  | text (s : String)
  deriving DecidableEq

/-! ## Strings -/

def hexValue? (c : Char) : Option Nat :=
  if c.isDigit then some (c.toNat - '0'.toNat)
  else if 'a' ≤ c ∧ c ≤ 'f' then some (c.toNat - 'a'.toNat + 10)
  else if 'A' ≤ c ∧ c ≤ 'F' then some (c.toNat - 'A'.toNat + 10)
  else none

/-- The code unit that four hexadecimal digits stand for. -/
def readUnit? : List Char → Option (Nat × List Char)
  | a :: b :: c :: d :: r => do
    let a ← hexValue? a
    let b ← hexValue? b
    let c ← hexValue? c
    let d ← hexValue? d
    return (4096 * a + 256 * b + 16 * c + d, r)
  | _ => none

/-- The second unit of a pair, an escape of its own. -/
def readLow? : List Char → Option (Nat × List Char)
  | '\\' :: 'u' :: r => do
    let (n, r) ← readUnit? r
    if 0xDC00 ≤ n ∧ n < 0xE000 then return (n, r) else none
  | _ => none

/-- The character of a pair of code units. -/
def ofPair (high low : Nat) : Char := Char.ofNat (0x10000 + 0x400 * (high - 0xD800) + (low - 0xDC00))

/-- The character that a code unit or a pair of them stands for; half a pair stands for none. -/
def readUnicode? (cs : List Char) : Option (Char × List Char) := do
  let (n, r) ← readUnit? cs
  if n < 0xD800 ∨ 0xE000 ≤ n then return (Char.ofNat n, r)
  else if n < 0xDC00 then (readLow? r).map fun (m, r) => (ofPair n m, r)
  else none

/-- What a letter behind a backslash stands for. -/
def escaped? : Char → Option Char
  | '"' => some '"'
  | '\\' => some '\\'
  | '/' => some '/'
  | 'b' => some '\x08'
  | 'f' => some '\x0c'
  | 'n' => some '\n'
  | 'r' => some '\r'
  | 't' => some '\t'
  | _ => none

/-- What an escape stands for; the text begins behind the backslash. -/
def readEscape? : List Char → Option (Char × List Char)
  | [] => none
  | c :: r => if c = 'u' then readUnicode? r else (escaped? c).map fun c => (c, r)

theorem readUnit?_length {cs r : List Char} {n : Nat} (h : readUnit? cs = some (n, r)) : r.length < cs.length := by
  rcases cs with _ | ⟨a, _ | ⟨b, _ | ⟨c, _ | ⟨d, r⟩⟩⟩⟩ <;> simp [readUnit?, Option.bind_eq_some_iff] at h
  obtain ⟨_, -, _, -, _, -, _, -, -, rfl⟩ := h
  simp only [List.length_cons]
  omega

theorem readLow?_length {cs r : List Char} {n : Nat} (h : readLow? cs = some (n, r)) : r.length < cs.length := by
  unfold readLow? at h
  split at h
  · simp only [Option.bind_eq_bind, Option.bind_eq_some_iff] at h
    obtain ⟨⟨m, r'⟩, hm, h⟩ := h
    have hlen := readUnit?_length hm
    simp only [Option.ite_none_right_eq_some, Option.pure_def, Option.some_inj, Prod.mk.injEq] at h
    obtain ⟨-, -, rfl⟩ := h
    simp only [List.length_cons]
    omega
  · cases h

theorem readUnicode?_length {cs r : List Char} {c : Char} (h : readUnicode? cs = some (c, r)) :
    r.length < cs.length := by
  simp only [readUnicode?, Option.bind_eq_bind, Option.bind_eq_some_iff] at h
  obtain ⟨⟨n, r'⟩, hn, h⟩ := h
  have hlen := readUnit?_length hn
  simp only at h
  split at h
  · simp only [Option.pure_def, Option.some_inj, Prod.mk.injEq] at h
    exact h.2 ▸ hlen
  · split at h
    · obtain ⟨⟨m, r''⟩, hm, h⟩ := Option.map_eq_some_iff.1 h
      have hlow := readLow?_length hm
      simp only [Prod.mk.injEq] at h
      exact h.2 ▸ Nat.lt_trans hlow hlen
    · cases h

theorem readEscape?_length {cs r : List Char} {c : Char} (h : readEscape? cs = some (c, r)) :
    r.length < cs.length := by
  unfold readEscape? at h
  split at h
  · cases h
  · split at h
    · exact Nat.lt_succ_of_lt (readUnicode?_length h)
    · obtain ⟨d, -, h⟩ := Option.map_eq_some_iff.1 h
      cases h
      exact Nat.lt_succ_self _

/-- The characters of a string up to the closing quote, and what stands behind it. -/
def readText? (cs : List Char) : Option (List Char × List Char) :=
  match cs with
  | [] => none
  | c :: r =>
    if c = '"' then some ([], r)
    else if c = '\\' then
      match _h : readEscape? r with
      | none => none
      | some (c, r) => (readText? r).map fun (cs, r) => (c :: cs, r)
    else if c.toNat < 0x20 then none
    else (readText? r).map fun (cs, r) => (c :: cs, r)
termination_by cs.length
decreasing_by
  · exact Nat.lt_succ_of_lt (readEscape?_length _h)
  · exact Nat.lt_succ_self _

theorem readText?_length {cs ds r : List Char} (h : readText? cs = some (ds, r)) : r.length < cs.length := by
  fun_induction readText? cs generalizing ds r with
  | case1 => cases h
  | case2 => cases h; exact Nat.lt_succ_self _
  | case3 => cases h
  | case4 _ _ _ he _ ih =>
    obtain ⟨⟨ds', r'⟩, hr, h⟩ := Option.map_eq_some_iff.1 h
    cases h
    exact Nat.lt_succ_of_lt (Nat.lt_trans (ih hr) (readEscape?_length he))
  | case5 => cases h
  | case6 _ _ _ _ _ ih =>
    obtain ⟨⟨ds', r'⟩, hr, h⟩ := Option.map_eq_some_iff.1 h
    cases h
    exact Nat.lt_succ_of_lt (ih hr)

/-! ## Numbers -/

/-- All the digits that a text begins with, of which there has to be one. -/
def readDigits? (cs : List Char) : Option (List Char × List Char) :=
  if (cs.takeWhile Char.isDigit).isEmpty then none else some (cs.takeWhile Char.isDigit, cs.dropWhile Char.isDigit)

/-- The digits before the point; only a lone zero begins with a zero. -/
def readWhole? (cs : List Char) : Option (List Char × List Char) := do
  let (ds, r) ← readDigits? cs
  if ds.head? = some '0' ∧ ds ≠ ['0'] then none else return (ds, r)

/-- A point and the digits behind it, or nothing. -/
def readPlaces? : List Char → Option (List Char × List Char)
  | '.' :: r => readDigits? r
  | r => some ([], r)

/-- The letter `e`, perhaps a sign, and the digits of a power of ten, or nothing. -/
def readPower? : List Char → Option (Int × List Char)
  | [] => some (0, [])
  | c :: r =>
    if c = 'e' ∨ c = 'E' then do
      let (ds, r') ← readDigits? (Double.splitSign r).2
      return (Double.signed (Double.splitSign r).1 (Double.natOfDigits ds), r')
    else some (0, c :: r)

def splitMinus : List Char → Bool × List Char
  | '-' :: r => (true, r)
  | r => (false, r)

def readNumber? (cs : List Char) : Option (Rat × List Char) := do
  let (whole, r) ← readWhole? (splitMinus cs).2
  let (places, r) ← readPlaces? r
  let (e, r) ← readPower? r
  return (Double.decimal (splitMinus cs).1 (Double.natOfDigits (whole ++ places)) (e - places.length), r)

theorem readDigits?_length {cs ds r : List Char} (h : readDigits? cs = some (ds, r)) : r.length < cs.length := by
  unfold readDigits? at h
  split at h
  · cases h
  · rename_i hne
    cases h
    have hlen := congrArg List.length (List.takeWhile_append_dropWhile (p := Char.isDigit) (l := cs))
    rw [List.isEmpty_iff, ← List.length_eq_zero_iff] at hne
    rw [List.length_append] at hlen
    omega

theorem readPlaces?_length {cs ds r : List Char} (h : readPlaces? cs = some (ds, r)) : r.length ≤ cs.length := by
  unfold readPlaces? at h
  split at h
  · exact Nat.le_succ_of_le (Nat.le_of_lt (readDigits?_length h))
  · cases h
    exact Nat.le_refl _

theorem splitSign_length (cs : List Char) : (Double.splitSign cs).2.length ≤ cs.length := by
  unfold Double.splitSign
  split <;> simp

theorem splitMinus_length (cs : List Char) : (splitMinus cs).2.length ≤ cs.length := by
  unfold splitMinus
  split <;> simp

theorem readPower?_length {cs r : List Char} {e : Int} (h : readPower? cs = some (e, r)) : r.length ≤ cs.length := by
  unfold readPower? at h
  split at h
  · cases h
    exact Nat.le_refl _
  · rename_i c cs
    split at h
    · simp only [Option.bind_eq_bind, Option.bind_eq_some_iff] at h
      obtain ⟨⟨ds, r'⟩, hds, h⟩ := h
      cases h
      have hlen : r'.length < (Double.splitSign cs).2.length := readDigits?_length hds
      exact Nat.le_succ_of_le (Nat.le_trans (Nat.le_of_lt hlen) (splitSign_length cs))
    · cases h
      exact Nat.le_refl _

theorem readNumber?_length {cs r : List Char} {q : Rat} (h : readNumber? cs = some (q, r)) : r.length < cs.length := by
  simp only [readNumber?, readWhole?, Option.bind_eq_bind, Option.bind_eq_some_iff] at h
  obtain ⟨⟨whole, r₁⟩, ⟨⟨ds, r₀⟩, hds, hwhole⟩, ⟨places, r₂⟩, hplaces, ⟨e, r₃⟩, hpower, h⟩ := h
  simp only [Option.ite_none_left_eq_some, Option.pure_def, Option.some_inj, Prod.mk.injEq] at hwhole h
  have hminus := splitMinus_length cs
  have h₁ : r₁.length < (splitMinus cs).2.length := hwhole.2.2 ▸ readDigits?_length hds
  have h₂ : r₂.length ≤ r₁.length := readPlaces?_length hplaces
  have h₃ : r₃.length ≤ r₂.length := readPower?_length hpower
  rw [← h.2]
  omega

/-! ## Tokens -/

def isSpace (c : Char) : Bool := c == ' ' || c == '\t' || c == '\n' || c == '\r'

def symbol? : Char → Option Token
  | '[' => some .openBracket
  | ']' => some .closeBracket
  | '\x7b' => some .openBrace
  | '\x7d' => some .closeBrace
  | ',' => some .comma
  | ':' => some .colon
  | _ => none

/-- The words, each with the value that it names. -/
def words : List (List Char × Token) :=
  [("null".toList, .null), ("true".toList, .bool true), ("false".toList, .bool false)]

/-- The token at the start of a text that does not begin with white space, and what stands behind it. -/
def nextToken? : List Char → Option (Token × List Char)
  | [] => none
  | c :: r =>
    match symbol? c, words.find? fun w => w.1.isPrefixOf (c :: r) with
    | some t, _ => some (t, r)
    | none, some w => some (w.2, (c :: r).drop w.1.length)
    | none, none =>
      if c = '"' then (readText? r).map fun (cs, r) => (.text (String.ofList cs), r)
      else (readNumber? (c :: r)).map fun (q, r) => (.number q, r)

theorem nextToken?_length {cs r : List Char} {t : Token} (h : nextToken? cs = some (t, r)) : r.length < cs.length := by
  unfold nextToken? at h
  split at h
  · cases h
  · split at h
    · cases h
      exact Nat.lt_succ_self _
    · rename_i w _ hw
      cases h
      have hlen : 0 < w.1.length := by
        have hmem := List.mem_of_find?_eq_some hw
        simp only [words, List.mem_cons, List.not_mem_nil, or_false] at hmem
        rcases hmem with rfl | rfl | rfl <;> decide
      rw [List.length_drop]
      exact Nat.sub_lt (Nat.succ_pos _) hlen
    · split at h
      · obtain ⟨⟨ds, r'⟩, hr, h⟩ := Option.map_eq_some_iff.1 h
        cases h
        exact Nat.lt_succ_of_lt (readText?_length hr)
      · obtain ⟨⟨q, r'⟩, hr, h⟩ := Option.map_eq_some_iff.1 h
        cases h
        exact readNumber?_length hr

/-- The tokens of a text, between which white space may stand. -/
def tokens? (cs : List Char) : Option (List Token) :=
  match cs with
  | [] => some []
  | c :: r =>
    if isSpace c then tokens? r
    else
      match _h : nextToken? (c :: r) with
      | none => none
      | some (t, r') => (tokens? r').map (t :: ·)
termination_by cs.length
decreasing_by
  · exact Nat.lt_succ_self _
  · exact nextToken?_length _h

/-! ## Values -/

/-- What has to come next. -/
inductive State where
  | value
  /-- A value or the end of the array that has just been opened. -/
  | firstItem
  /-- A name or the end of the object that has just been opened. -/
  | firstName
  /-- The name of the member after these, of which the last one stands first. -/
  | name (members : List (String × Tree))
  | colon (members : List (String × Tree)) (name : String)
  /-- What may follow a value. -/
  | done (v : Tree)

/-- An array or an object that is open, with what stands in it so far, the last one first. -/
inductive Frame where
  | items (items : List Tree)
  | members (members : List (String × Tree)) (name : String)

/-- Begins a value. -/
def start (stack : List Frame) : Token → Option (State × List Frame)
  | .null => some (.done .null, stack)
  | .bool b => some (.done (.bool b), stack)
  | .number q => some (.done (.number q), stack)
  | .text s => some (.done (.text s), stack)
  | .openBracket => some (.firstItem, stack)
  | .openBrace => some (.firstName, stack)
  | .closeBracket | .closeBrace | .comma | .colon => none

/-- Goes on behind a value. -/
def goOn (v : Tree) : List Frame → Token → Option (State × List Frame)
  | .items vs :: stack, .comma => some (.value, .items (v :: vs) :: stack)
  | .items vs :: stack, .closeBracket => some (.done (.array (v :: vs).reverse), stack)
  | .members ms name :: stack, .comma => some (.name ((name, v) :: ms), stack)
  | .members ms name :: stack, .closeBrace => some (.done (.object ((name, v) :: ms).reverse), stack)
  | _, _ => none

def step : State × List Frame → Token → Option (State × List Frame)
  | (.value, stack), t => start stack t
  | (.firstItem, stack), .closeBracket => some (.done (.array []), stack)
  | (.firstItem, stack), t => start (.items [] :: stack) t
  | (.firstName, stack), .closeBrace => some (.done (.object []), stack)
  | (.firstName, stack), .text name => some (.colon [] name, stack)
  | (.name ms, stack), .text name => some (.colon ms name, stack)
  | (.colon ms name, stack), .colon => some (.value, .members ms name :: stack)
  | (.done v, stack), t => goOn v stack t
  | _, _ => none

/-- The value that all the tokens together stand for. -/
def ofTokens? (ts : List Token) : Option Tree :=
  match ts.foldlM step (.value, []) with
  | some (.done v, []) => some v
  | _ => none

/-- The value that a text stands for, if it is JSON. -/
def read? (s : String) : Option Tree := (tokens? s.toList).bind ofTokens?

/-! ## The tokens of a value -/

mutual

/-- The tokens of a value, the only ones that stand for it. -/
def Tree.tokens : Tree → List Token
  | .null => [.null]
  | .bool b => [.bool b]
  | .number q => [.number q]
  | .text s => [.text s]
  | .array [] => [.openBracket, .closeBracket]
  | .array (v :: vs) => .openBracket :: (v.tokens ++ moreItems vs)
  | .object [] => [.openBrace, .closeBrace]
  | .object ((name, v) :: ms) => .openBrace :: .text name :: .colon :: (v.tokens ++ moreMembers ms)

/-- What stands behind an item of an array. -/
def moreItems : List Tree → List Token
  | [] => [.closeBracket]
  | v :: vs => .comma :: (v.tokens ++ moreItems vs)

/-- What stands behind a member of an object. -/
def moreMembers : List (String × Tree) → List Token
  | [] => [.closeBrace]
  | (name, v) :: ms => .comma :: .text name :: .colon :: (v.tokens ++ moreMembers ms)

end

theorem foldlM_cons {c c' : State × List Frame} {t : Token} (h : step c t = some c') (ts : List Token) :
    (t :: ts).foldlM step c = ts.foldlM step c' := by
  rw [List.foldlM_cons, h]
  rfl

/-- No value begins with the end of an array. -/
theorem foldlM_firstItem (v : Tree) (stack : List Frame) (ts : List Token) :
    (v.tokens ++ ts).foldlM step (.firstItem, stack) = (v.tokens ++ ts).foldlM step (.value, .items [] :: stack) := by
  rcases v with _ | _ | _ | _ | (_ | _) | (_ | _) <;> rfl

mutual

/-- All tokens of a value are read as this value. -/
theorem foldlM_tokens : ∀ (v : Tree) (stack : List Frame) (ts : List Token),
    (v.tokens ++ ts).foldlM step (.value, stack) = ts.foldlM step (.done v, stack)
  | .null, _, _ | .bool _, _, _ | .number _, _, _ | .text _, _, _ => rfl
  | .array [], _, _ | .object [], _, _ => rfl
  | .array (v :: vs), stack, ts => by
    rw [Tree.tokens, List.cons_append, foldlM_cons rfl, List.append_assoc]
    rw [foldlM_firstItem v, foldlM_tokens v, foldlM_moreItems vs]
    rfl
  | .object ((name, v) :: ms), stack, ts => by
    rw [Tree.tokens, List.cons_append, foldlM_cons rfl, List.cons_append, foldlM_cons rfl, List.cons_append,
      foldlM_cons rfl, List.append_assoc, foldlM_tokens v, foldlM_moreMembers ms]
    rfl

theorem foldlM_moreItems : ∀ (vs : List Tree) {v : Tree} {us : List Tree} (stack : List Frame) (ts : List Token),
    (moreItems vs ++ ts).foldlM step (.done v, .items us :: stack) =
      ts.foldlM step (.done (.array (us.reverse ++ v :: vs)), stack)
  | [], v, us, stack, ts => by
    rw [moreItems, List.singleton_append, foldlM_cons rfl, List.reverse_cons]
  | w :: vs, v, us, stack, ts => by
    rw [moreItems, List.cons_append, foldlM_cons rfl, List.append_assoc, foldlM_tokens w, foldlM_moreItems vs,
      List.reverse_cons, List.append_assoc]
    rfl

theorem foldlM_moreMembers : ∀ (ms : List (String × Tree)) {name : String} {v : Tree} {us : List (String × Tree)}
    (stack : List Frame) (ts : List Token),
    (moreMembers ms ++ ts).foldlM step (.done v, .members us name :: stack) =
      ts.foldlM step (.done (.object (us.reverse ++ (name, v) :: ms)), stack)
  | [], name, v, us, stack, ts => by
    rw [moreMembers, List.singleton_append, foldlM_cons rfl, List.reverse_cons]
  | (name', w) :: ms, name, v, us, stack, ts => by
    rw [moreMembers, List.cons_append, foldlM_cons rfl, List.cons_append, foldlM_cons rfl, List.cons_append,
      foldlM_cons rfl, List.append_assoc, foldlM_tokens w, foldlM_moreMembers ms, List.reverse_cons,
      List.append_assoc]
    rfl

end

/-! ## What the machine has read -/

def readItems (vs : List Tree) : List Token :=
  .openBracket :: vs.reverse.flatMap fun v => v.tokens ++ [.comma]

def readMembers (ms : List (String × Tree)) : List Token :=
  .openBrace :: ms.reverse.flatMap fun m => .text m.1 :: .colon :: (m.2.tokens ++ [.comma])

def Frame.tokens : Frame → List Token
  | .items vs => readItems vs
  | .members ms name => readMembers ms ++ [.text name, .colon]

def State.tokens : State → List Token
  | .value => []
  | .firstItem => [.openBracket]
  | .firstName => [.openBrace]
  | .name ms => readMembers ms
  | .colon ms key => readMembers ms ++ [.text key]
  | .done v => v.tokens

/-- The tokens that lead to a state and a stack. -/
def soFar (c : State × List Frame) : List Token := c.2.reverse.flatMap Frame.tokens ++ c.1.tokens

theorem soFar_mk (s : State) (stack : List Frame) :
    soFar (s, stack) = stack.reverse.flatMap Frame.tokens ++ s.tokens := rfl

theorem moreItems_append (vs : List Tree) (v : Tree) : moreItems (vs ++ [v]) =
    .comma :: ((vs.flatMap fun w => w.tokens ++ [.comma]) ++ (v.tokens ++ [.closeBracket])) := by
  induction vs with
  | nil => rfl
  | cons w vs ih => simp [moreItems, ih]

theorem moreMembers_append (ms : List (String × Tree)) (name : String) (v : Tree) : moreMembers (ms ++ [(name, v)]) =
    .comma :: ((ms.flatMap fun m => .text m.1 :: .colon :: (m.2.tokens ++ [.comma])) ++
      .text name :: .colon :: (v.tokens ++ [.closeBrace])) := by
  induction ms with
  | nil => rfl
  | cons m ms ih => simp [moreMembers, ih]

theorem tokens_array (vs : List Tree) (v : Tree) :
    (Tree.array (vs.reverse ++ [v])).tokens = readItems vs ++ (v.tokens ++ [.closeBracket]) := by
  rw [readItems]
  cases vs.reverse with
  | nil => simp [Tree.tokens, moreItems]
  | cons w ws => simp [Tree.tokens, moreItems_append]

theorem tokens_object (ms : List (String × Tree)) (name : String) (v : Tree) :
    (Tree.object (ms.reverse ++ [(name, v)])).tokens =
      readMembers ms ++ .text name :: .colon :: (v.tokens ++ [.closeBrace]) := by
  rw [readMembers]
  cases ms.reverse with
  | nil => simp [Tree.tokens, moreMembers]
  | cons m ms => simp [Tree.tokens, moreMembers_append]

theorem soFar_start {stack : List Frame} {t : Token} {c : State × List Frame} (h : start stack t = some c) :
    soFar c = stack.reverse.flatMap Frame.tokens ++ [t] := by
  cases t <;> cases h <;> simp [soFar_mk, State.tokens, Tree.tokens]

theorem soFar_goOn {v : Tree} {stack : List Frame} {t : Token} {c : State × List Frame}
    (h : goOn v stack t = some c) : soFar c = stack.reverse.flatMap Frame.tokens ++ (v.tokens ++ [t]) := by
  unfold goOn at h
  split at h <;> cases h
  · simp [soFar_mk, State.tokens, Frame.tokens, readItems]
  · simp [soFar_mk, State.tokens, Frame.tokens, tokens_array]
  · simp [soFar_mk, State.tokens, Frame.tokens, readMembers]
  · simp [soFar_mk, State.tokens, Frame.tokens, tokens_object]

theorem soFar_step {c c' : State × List Frame} {t : Token} (h : step c t = some c') : soFar c' = soFar c ++ [t] := by
  unfold step at h
  split at h
  -- a value begins, as one of its own or as the first item of an array, or it has ended
  case h_1 => simp [soFar_start h, soFar_mk, State.tokens]
  case h_3 => simp [soFar_start h, soFar_mk, State.tokens, Frame.tokens, readItems]
  case h_8 => simp [soFar_goOn h, soFar_mk, State.tokens]
  all_goals cases h <;> simp [soFar_mk, State.tokens, Frame.tokens, readMembers, Tree.tokens]

theorem soFar_foldlM {ts : List Token} {c c' : State × List Frame} (h : ts.foldlM step c = some c') :
    soFar c' = soFar c ++ ts := by
  induction ts generalizing c with
  | nil =>
    cases h
    rw [List.append_nil]
  | cons t ts ih =>
    rw [List.foldlM_cons, Option.bind_eq_bind, Option.bind_eq_some_iff] at h
    obtain ⟨c₁, hstep, h⟩ := h
    rw [ih h, soFar_step hstep, List.append_assoc, List.singleton_append]

/-- The machine accepts the tokens of values and nothing else. -/
theorem ofTokens?_eq_some_iff {ts : List Token} {v : Tree} : ofTokens? ts = some v ↔ ts = v.tokens := by
  constructor
  · intro h
    unfold ofTokens? at h
    split at h
    · rename_i hrun
      cases h
      exact (soFar_foldlM hrun).symm
    · cases h
  · rintro rfl
    have hrun := foldlM_tokens v [] []
    rw [List.append_nil] at hrun
    rw [ofTokens?, hrun]
    rfl

example : ofTokens? [.openBracket, .null, .comma, .closeBracket] = none := rfl

end TableQuery.Json
