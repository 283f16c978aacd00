/-
Terms that start with a word: forms with a syntax of their own, names and calls, and values with
the name of their type before them.
-/
import TableQuery.Sql.Parser.Call
import TableQuery.Sql.Parser.Type

namespace TableQuery.Sql.Grammar

open Sql.Parser

variable (g : Grammar)

/-- Reads on with `p` and keeps the whole, from `start` on, as its spelling. -/
def spelled {α : Type} (start : List Lexeme) (p : Parser α) : Parser Term := do
  let _ ← p
  return .other (← spellingSince start)

/-! ## Forms that start with a word of their own -/

def caseTerm (start : List Lexeme) : Parser Term := spelled start do
  if !(← keyword "WHEN") then
    let _ ← g.anyTerm
    expectKeyword "WHEN"
  let rec branches : Nat → Parser Unit
    | 0 => fail
    | n + 1 => do
      let _ ← g.anyTerm
      expectKeyword "THEN"
      let _ ← g.anyTerm
      if ← keyword "WHEN" then branches n
  branches ((← get).length + 1)
  if ← keyword "ELSE" then
    let _ ← g.anyTerm
  expectKeyword "END"

def castTerm (form : CastForm) : Parser Term := parenthesized do
  let t ← g.anyTerm
  expectKeyword "AS"
  let type ← typeName
  if ← keyword "FORMAT" then
    let _ ← literal
  return .cast form t type

def convertTerm (start : List Lexeme) : Parser Term := spelled start <| parenthesized do
  let _ ← g.anyTerm
  if ← keyword "USING" then
    let _ ← name
  else
    expectSymbol ","
    let _ ← typeName
    if ← keywords ["CHARACTER", "SET"] then
      let _ ← name

def existsTerm (start : List Lexeme) : Parser Term :=
  spelled start (parenthesized g.query)

def extractTerm (start : List Lexeme) : Parser Term := spelled start <| parenthesized do
  let _ ← timeField
  expectKeyword "FROM"
  let _ ← g.anyTerm

def roundedTerm (up : Bool) : Parser Term := parenthesized do
  let t ← g.anyTerm
  if ← keyword "TO" then return .rounded up t (" TO " ++ (← timeField))
  if ← symbol "," then
    match ← literal with
    | .number digits long => return .rounded up t (", " ++ (Literal.number digits long).spelling)
    | _ => fail
  return .rounded up t ""

def positionTerm (start : List Lexeme) (w : Word) : Parser Term := do
  let t ← attempt <| spelled start <| parenthesized do
    let _ ← g.term betweenStrength
    expectKeyword "IN"
    let _ ← g.anyTerm
  match t with
  | some t => return t
  | none => g.call [w.ident]

def substringTerm (start : List Lexeme) : Parser Term := spelled start <| parenthesized do
  let _ ← g.anyTerm
  if (← symbol ",") || (← keyword "FROM") then
    let _ ← g.anyTerm
  if (← keyword "FOR") || (← symbol ",") then
    let _ ← g.anyTerm

def overlayTerm (start : List Lexeme) : Parser Term := spelled start <| parenthesized do
  let _ ← g.anyTerm
  expectKeyword "PLACING"
  let _ ← g.anyTerm
  expectKeyword "FROM"
  let _ ← g.anyTerm
  if ← keyword "FOR" then
    let _ ← g.anyTerm

/-- Only the plain form has a meaning: no side and no characters are given. -/
def trimTerm (start : List Lexeme) : Parser Term := do
  expectSymbol "("
  let side ← oneOf ["BOTH", "LEADING", "TRAILING"]
  let t ← g.anyTerm
  if ← keyword "FROM" then
    let _ ← g.anyTerm
    expectSymbol ")"
    return .other (← spellingSince start)
  let _ ← symbol ","
  expectSymbol ")"
  if side.isSome then return .other (← spellingSince start)
  return .trim t

def notTerm (start : List Lexeme) : Parser Term := do
  if ← keyword "EXISTS" then g.existsTerm start
  else return .unary .not (← g.term notStrength)

def arrayTerm (start : List Lexeme) : Parser Term := spelled start do
  let _ ← listBefore "]" g.anyTerm
  expectSymbol "]"

/-- A dictionary from its opening brace on. -/
def braceTerm (start : List Lexeme) (key : Parser Unit) : Parser Term := spelled start do
  expectSymbol "\x7b"
  let _ ← listBefore "\x7d" do
    key
    expectSymbol ":"
    let _ ← g.anyTerm
  expectSymbol "\x7d"

/-- The units behind the value of an interval. -/
def intervalUnit : Parser Unit := do
  if intervalUnits.contains (← peekKeyword) then
    let k ← timeField
    if k = "SECOND" then
      let _ ← precisionAndScale
    else
      let _ ← precision
      if ← keyword "TO" then
        let last ← timeField
        if last = "SECOND" then
          let _ ← precision

/-- A call without parentheses has no arguments. -/
def timeCall (w : Word) : Parser Term := do
  if ← symbol "(" then
    let (args, d, inner) ← g.arguments
    return .call [w.ident] { duplicates := d, inner := inner } args
  else return .call [w.ident] { parens := false } []

/-- The form that a word starts, if it starts one. `start` is where the word stands, `first` reads
a term without operators. -/
def wordForm (first : Parser Term) (start : List Lexeme) (w : Word) : Parser (Option Term) := do
  let onSymbol (s : String) (p : Parser Term) : Parser (Option Term) := do
    if ← peekSymbol s then return some (← p) else return none
  match w.keyword with
  | "TRUE" => return some (.literal (.bool true))
  | "FALSE" => return some (.literal (.bool false))
  | "NULL" => return some (.literal .null)
  | "CURRENT_TIMESTAMP" | "CURRENT_TIME" | "CURRENT_DATE" | "LOCALTIME" | "LOCALTIMESTAMP" =>
    return some (← g.timeCall w)
  | "CASE" => return some (← g.caseTerm start)
  | "CONVERT" => return some (← g.convertTerm start)
  | "CAST" => return some (← g.castTerm .cast)
  | "TRY_CAST" => return some (← g.castTerm .tryCast)
  | "SAFE_CAST" => return some (← g.castTerm .safeCast)
  | "EXISTS" => return some (← g.existsTerm start)
  | "EXTRACT" => return some (← g.extractTerm start)
  | "CEIL" => return some (← g.roundedTerm true)
  | "FLOOR" => return some (← g.roundedTerm false)
  | "POSITION" => onSymbol "(" (g.positionTerm start w)
  | "SUBSTRING" => return some (← g.substringTerm start)
  | "OVERLAY" => return some (← g.overlayTerm start)
  | "TRIM" => return some (← g.trimTerm start)
  | "INTERVAL" => return some (← spelled start do let _ ← first; intervalUnit)
  | "ARRAY" =>
    if ← symbol "[" then return some (← g.arrayTerm start)
    onSymbol "(" do
      let query ← spellingOf (parenthesized g.query)
      return .callQuery [w.ident] (String.ofList (query.toList.drop 1).dropLast)
  | "NOT" => return some (← g.notTerm start)
  | "MAP" => onSymbol "\x7b" (g.braceTerm start do let _ ← g.anyTerm)
  | _ => return none

/-- A word as a name: of a column, of a column in a table, of a function, or of the parameter of a
function value. -/
def wordName (start : List Lexeme) (w : Word) : Parser Term := do
  match ← peek with
  | some (.symbol "(") => g.call [w.ident]
  | some (.symbol ".") =>
    let _ ← next
    let parts := w.ident :: (← name)
    if ← peekSymbol "(" then g.call parts else return .path parts
  | some (.symbol "->") => spelled start do
    let _ ← next
    g.anyTerm
  | some (.text _) | some (.literal _) =>
    if w.text.toList.head? = some '_' then spelled start next else return .column w.ident
  | _ => return .column w.ident

/-- A special form comes first; where it does not fit, most words can still be names. -/
def wordTerm (first : Parser Term) (start : List Lexeme) (w : Word) : Parser Term := do
  let behind ← get
  match g.wordForm first start w behind with
  | .ok (some t, rest) => set rest; return t
  | .ok (none, _) => g.wordName start w
  | .error fault =>
    if !Keyword.alwaysSpecial.contains w.keyword then
      if let some t ← attempt (g.wordName start w) then return t
    fun _ => .error fault

/-- A value with the name of its type before it. -/
def typedTerm (first : Parser Term) (start : List Lexeme) : Parser Term := spelled start do
  let (type, known) ← knownOrNamedType
  if !known then fail
  if type.text = "INTERVAL" then
    let _ ← first
    intervalUnit
  else
    let _ ← textLiteral

end TableQuery.Sql.Grammar
