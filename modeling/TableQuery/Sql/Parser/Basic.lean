/-
Parsers over lists of lexemes: keywords, symbols, names and lists. A parser that fails leaves no
trace when it is attempted, unless it fails for depth.
-/
import TableQuery.Sql.Keyword
import TableQuery.Sql.Printer

namespace TableQuery.Sql

abbrev Parser := StateT (List Lexeme) (Except SyntaxFault)

namespace Parser

def fail {α : Type} : Parser α := fun _ => .error .unexpected

def tooDeep {α : Type} : Parser α := fun _ => .error .tooDeep

/-- Nothing is read if the parser fails; a text that is too deep stays so. -/
def attempt {α : Type} (p : Parser α) : Parser (Option α) := fun ls =>
  match p ls with
  | .ok (a, rest) => .ok (some a, rest)
  | .error .tooDeep => .error .tooDeep
  | .error _ => .ok (none, ls)

/-! ## Single lexemes -/

def peek : Parser (Option Lexeme) := do return (← get).head?

def next : Parser (Option Lexeme) := do
  let ls ← get
  set (ls.drop 1)
  return ls.head?

def atEnd : Parser Bool := do return (← get).isEmpty

/-- The keyword that a lexeme is, if it is an unquoted word. -/
def keywordOf : Option Lexeme → String
  | some (.word w) => w.keyword
  | _ => ""

def peekKeyword : Parser String := do return keywordOf (← peek)

/-- The keyword of the lexeme behind the next `n`. -/
def peekKeywordAt (n : Nat) : Parser String := do return keywordOf (← get)[n]?

def peekSymbol (s : String) : Parser Bool := do return (← peek) == some (.symbol s)

/-- Reads a symbol if it is there. -/
def symbol (s : String) : Parser Bool := do
  if ← peekSymbol s then
    let _ ← next
    return true
  else return false

/-- Reads a keyword if it is there. -/
def keyword (k : String) : Parser Bool := do
  if (← peekKeyword) == k then
    let _ ← next
    return true
  else return false

/-- Reads all of the keywords or nothing. -/
def keywords (ks : List String) : Parser Bool := do
  let ls ← get
  if (ls.take ks.length).map (keywordOf ∘ some) == ks then
    set (ls.drop ks.length)
    return true
  else return false

/-- Reads one of the keywords if one is there. -/
def oneOf (ks : List String) : Parser (Option String) := do
  let k ← peekKeyword
  if ks.contains k then
    let _ ← next
    return some k
  else return none

def require (p : Parser Bool) : Parser Unit := do
  if ← p then return () else fail

def expectSymbol (s : String) : Parser Unit := require (symbol s)

def expectKeyword (k : String) : Parser Unit := require (keyword k)

def expectKeywords (ks : List String) : Parser Unit := require (keywords ks)

def expectOneOf (ks : List String) : Parser Unit := do
  if (← oneOf ks).isSome then return () else fail

/-- The text of what was read since the parser stood before `start`. -/
def spellingSince (start : List Lexeme) : Parser String := do
  return Lexeme.spellAll (start.take (start.length - (← get).length))

/-- Runs a parser for the text of what it reads. -/
def spellingOf {α : Type} (p : Parser α) : Parser String := do
  let start ← get
  let _ ← p
  spellingSince start

/-! ## Lists -/

/-- Whether a list ends here. A comma before the end of a list is read over. -/
def listEnds : Parser Bool := do
  if !(← symbol ",") then return true
  match ← peek with
  | none => return true
  | some (.symbol s) => return [")", ";", "]", "\x7d"].contains s
  | some (.word w) => return Keyword.endsItem.contains w.keyword
  | some _ => return false

def listUpTo {α : Type} (p : Parser α) : Nat → Parser (List α)
  | 0 => fail
  | n + 1 => do
    let a ← p
    if ← listEnds then return [a]
    return a :: (← listUpTo p n)

/-- One or more, separated by commas. -/
def list {α : Type} (p : Parser α) : Parser (List α) := do
  listUpTo p ((← get).length + 1)

/-- None or more, separated by commas, before a closing symbol that is not read. -/
def listBefore {α : Type} (close : String) (p : Parser α) : Parser (List α) := do
  if ← peekSymbol close then return []
  let ls ← get
  if ls.take 2 == [.symbol ",", .symbol close] then
    set (ls.drop 1)
    return []
  list p

def parenthesized {α : Type} (p : Parser α) : Parser α := do
  expectSymbol "("
  let a ← p
  expectSymbol ")"
  return a

/-! ## Names -/

/-- Any word and any text can be a name. -/
def ident : Parser Ident := do
  match ← next with
  | some (.word w) => return w.ident
  | some (.text s) => return ⟨s, some '\''⟩
  | _ => fail

def nameUpTo : Nat → Parser Name
  | 0 => fail
  | n + 1 => do
    let i ← ident
    if ← symbol "." then return i :: (← nameUpTo n) else return [i]

def name : Parser Name := do nameUpTo ((← get).length + 1)

/-- An alias with or without `AS`; without it, not one of the reserved words. -/
def aliasUnless (reserved : List String) : Parser (Option Ident) := do
  let named ← keyword "AS"
  match ← peek with
  | some (.word w) =>
    if named || !reserved.contains w.keyword then
      let _ ← next
      return some w.ident
    else return none
  | some (.text s) =>
    let _ ← next
    return some ⟨s, some '\''⟩
  | _ => if named then fail else return none

/-- A text, or a word that is no keyword. -/
def textLiteral : Parser String := do
  match ← next with
  | some (.text s) => return s
  | some (.word w) => if Keyword.isKeyword w.keyword then fail else return w.text
  | _ => fail

/-- A whole number of 64 bits. -/
def count : Parser Nat := do
  match ← next with
  | some (.number digits _) =>
    match digits.toList.all Char.isDigit, digits.toNat? with
    | true, some n => if n < UInt64.size then return n else fail
    | _, _ => fail
  | _ => fail

end Parser

end TableQuery.Sql
