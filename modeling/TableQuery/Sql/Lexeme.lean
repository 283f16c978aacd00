/-
Lexemes of the query language, and cutting a text into them. White space and comments separate
lexemes and are dropped.
-/
import TableQuery.Sql.Fault
import TableQuery.Text.Alphabetic
import TableQuery.Text.Blank

namespace TableQuery.Sql

/-- A name or keyword. Only an unquoted word can be a keyword, in any letter case. -/
structure Word where
  text : String
  quote : Option Char := none
  /-- The upper-case spelling of an unquoted word, else empty. -/
  keyword : String := ""
  deriving DecidableEq, Inhabited

def Word.plain (text : String) : Word := ⟨text, none, Text.upper text⟩

def Word.quoted (q : Char) (text : String) : Word := ⟨text, some q, ""⟩

inductive Lexeme where
  | word (w : Word)
  | number (digits : String) (long : Bool)
  | text (s : String)
  /-- Literals without a value here: national and hexadecimal texts, texts between dollars. -/
  | literal (spelling : String)
  | placeholder (spelling : String)
  | symbol (spelling : String)
  deriving DecidableEq, Inhabited

namespace Lexeme

/-! ## Quotes and comments -/

/-- Reads up to the closing quote; a quote inside is written twice. -/
def readQuoted (q : Char) : List Char → Option (List Char × List Char)
  | [] => none
  | [c] => if c = q then some ([], []) else none
  | c :: d :: r =>
    if c = q then
      if d = q then (readQuoted q r).map fun (s, rest) => (q :: s, rest) else some ([], d :: r)
    else (readQuoted q (d :: r)).map fun (s, rest) => (c :: s, rest)

/-- Reads up to the closing quote; a backslash takes the next character with it. -/
def readEscaped : List Char → Option (List Char × List Char)
  | [] => none
  | [c] => if c = '\'' then some ([], []) else none
  | c :: d :: r =>
    if c = '\'' then
      if d = '\'' then (readEscaped r).map fun (s, rest) => (c :: d :: s, rest)
      else some ([], d :: r)
    else if c = '\\' then (readEscaped r).map fun (s, rest) => (c :: d :: s, rest)
    else (readEscaped (d :: r)).map fun (s, rest) => (c :: s, rest)

/-- What stands behind a comment that ends with its line. -/
def skipLine (cs : List Char) : List Char := (cs.dropWhile (· != '\n')).drop 1

/-- What stands behind the end of nested comments, of which `depth + 1` are open. -/
def skipComment (depth : Nat) : List Char → Option (List Char)
  | [] | [_] => none
  | c :: d :: r =>
    if c = '*' && d = '/' then
      match depth with
      | 0 => some r
      | n + 1 => skipComment n r
    else if c = '/' && d = '*' then skipComment (depth + 1) r
    else skipComment depth (d :: r)

/-- Splits a text before the first occurrence of a mark, which is dropped. -/
def splitAtMark (mark : List Char) : List Char → Option (List Char × List Char)
  | [] => none
  | c :: r =>
    if mark.isPrefixOf (c :: r) then some ([], (c :: r).drop mark.length)
    else (splitAtMark mark r).map fun (s, rest) => (c :: s, rest)

/-! ## Words and numbers -/

/-- The double quote and the grave accent. -/
def nameQuotes : List Char := ['\x22', '\x60']

def isNameStart (c : Char) : Bool := Text.isAlphabetic c || c = '_'

def isNamePart (c : Char) : Bool := Text.isAlphabetic c || c.isDigit || c = '$' || c = '_'

def isHexDigit (c : Char) : Bool := c.isDigit || ('a' ≤ c && c ≤ 'f') || ('A' ≤ c && c ≤ 'F')

/-- An exponent, if a digit follows the letter and the sign. -/
def readExponent : List Char → List Char × List Char
  | e :: s :: d :: r =>
    if e = 'e' || e = 'E' then
      if s.isDigit then (e :: (s :: d :: r).takeWhile Char.isDigit, (s :: d :: r).dropWhile Char.isDigit)
      else if (s = '+' || s = '-') && d.isDigit then
        (e :: s :: (d :: r).takeWhile Char.isDigit, (d :: r).dropWhile Char.isDigit)
      else ([], e :: s :: d :: r)
    else ([], e :: s :: d :: r)
  | [e, d] => if (e = 'e' || e = 'E') && d.isDigit then ([e, d], []) else ([], [e, d])
  | cs => ([], cs)

/-- A number starts with a digit or with a period; a period alone is a symbol. -/
def readNumber (cs : List Char) : Lexeme × List Char :=
  let whole := cs.takeWhile Char.isDigit
  let rest := cs.dropWhile Char.isDigit
  match whole, rest with
  | ['0'], 'x' :: r =>
    (literal ("X'" ++ String.ofList (r.takeWhile isHexDigit) ++ "'"), r.dropWhile isHexDigit)
  | _, _ =>
    let (point, rest) : List Char × List Char :=
      match rest with
      | '.' :: r => (['.'], r)
      | r => ([], r)
    let mantissa := whole ++ point ++ rest.takeWhile Char.isDigit
    let rest := rest.dropWhile Char.isDigit
    if mantissa = ['.'] then (symbol ".", rest)
    else
      let (exponent, rest) := readExponent rest
      let digits := String.ofList (mantissa ++ exponent)
      match rest with
      | 'L' :: r => (number digits true, r)
      | r => (number digits false, r)

/-! ## Symbols -/

/-- The symbols of more than one character, longer ones first. -/
def longSymbols : List String :=
  ["!~~*", "||/", "->>", "<=>", "!~*", "!~~", "~~*", "#>>", "||", "|/", "//", "->", "=>", "==",
    "!=", "!!", "!~", "<=", "<>", "<<", "<@", ">=", ">>", "::", ":=", "&&", "^@", "~*", "~~", "#-",
    "#>", "@>", "@?", "@@"]

def readSymbol (c : Char) (cs : List Char) : Lexeme × List Char :=
  match longSymbols.find? fun s => s.toList.isPrefixOf (c :: cs) with
  | some s => (symbol s, (c :: cs).drop s.toList.length)
  | none => (symbol (String.ofList [c]), cs)

/-- A dollar starts a text between two equal marks, or else the name of a parameter. -/
def readDollar (cs : List Char) : Except SyntaxFault (Lexeme × List Char) :=
  let isTagPart (c : Char) : Bool := Text.isAlphabetic c || c.isDigit || c = '_'
  let tag := cs.takeWhile isTagPart
  match cs.dropWhile isTagPart with
  | '$' :: r =>
    let mark := '$' :: tag ++ ['$']
    match splitAtMark mark r with
    | some (s, rest) => .ok (literal (String.ofList (mark ++ s ++ mark)), rest)
    | none => .error .unclosedText
  | rest => .ok (placeholder (String.ofList ('$' :: tag)), rest)

/-! ## Whole texts -/

/-- The word, or the marked text, that starts with a letter. -/
def readWord (c : Char) (cs : List Char) : Except SyntaxFault (Lexeme × List Char) :=
  match cs with
  | '\'' :: r =>
    if c = 'e' || c = 'E' then .error .escapedText
    else if c = 'n' || c = 'N' || c = 'x' || c = 'X' then
      match readEscaped r with
      | some (s, rest) => .ok (literal (String.ofList (c :: '\'' :: s ++ ['\''])), rest)
      | none => .error .unclosedText
    else .ok (word (.plain (String.ofList [c])), cs)
  | _ => .ok (word (.plain (String.ofList (c :: cs.takeWhile isNamePart))), cs.dropWhile isNamePart)

/-- The lexeme at the start of a text, if it is not white space or a comment, and the rest. -/
def read (c : Char) (cs : List Char) : Except SyntaxFault (Option Lexeme × List Char) :=
  if Text.isBlank c then .ok (none, cs)
  else if c = '-' && cs.head? = some '-' then .ok (none, skipLine cs)
  else if c = '/' && cs.head? = some '*' then
    match skipComment 0 (cs.drop 1) with
    | some rest => .ok (none, rest)
    | none => .error .unclosedComment
  else if c = '\'' then
    match readQuoted c cs with
    | some (s, rest) => .ok (some (text (String.ofList s)), rest)
    | none => .error .unclosedText
  else if nameQuotes.contains c then
    match readQuoted c cs with
    | some (s, rest) => .ok (some (word (.quoted c (String.ofList s))), rest)
    | none => .error .unclosedName
  else if c.isDigit || c = '.' then
    let (l, rest) := readNumber (c :: cs)
    .ok (some l, rest)
  else if isNameStart c then do
    let (l, rest) ← readWord c cs
    return (some l, rest)
  else if c = '$' then do
    let (l, rest) ← readDollar cs
    return (some l, rest)
  else if c = '?' then
    .ok (some (placeholder (String.ofList ('?' :: cs.takeWhile Char.isDigit))), cs.dropWhile Char.isDigit)
  else
    let (l, rest) := readSymbol c cs
    .ok (some l, rest)

/-- Every step reads a character, so as many steps as characters are enough. -/
def readAll : Nat → List Char → Except SyntaxFault (List Lexeme)
  | _, [] | 0, _ => .ok []
  | n + 1, c :: cs => do
    let (l, rest) ← read c cs
    return l.toList ++ (← readAll n rest)

def ofChars (cs : List Char) : Except SyntaxFault (List Lexeme) := readAll cs.length cs

def ofString (s : String) : Except SyntaxFault (List Lexeme) := ofChars s.toList

end Lexeme

end TableQuery.Sql
