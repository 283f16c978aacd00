/-
Calls: arguments, the clauses among them, and the clauses behind them. Each level of terms and
queries takes one of a bounded number of levels; the parsers for the level below are passed on as
a `Grammar`.
-/
import TableQuery.Sql.Parser.Literal
import TableQuery.Sql.Parser.Operator

namespace TableQuery.Sql

/-- The parsers that parts of a level are read with. -/
structure Grammar where
  /-- A term of operators that bind more strongly than a bound. -/
  term : Nat → Parser Term
  query : Parser QueryExpr
  statement : Parser Statement

namespace Grammar

open Sql.Parser

variable (g : Grammar)

def anyTerm : Parser Term := g.term 0

/-- Whether a query stands here that starts with a keyword. -/
def startsQuery : Parser Bool := do return ["SELECT", "WITH"].contains (← peekKeyword)

def orderItem : Parser OrderItem := do
  let t ← g.anyTerm
  let ascending := (← oneOf ["ASC", "DESC"]).map (· == "ASC")
  let nullsFirst ←
    if ← keywords ["NULLS", "FIRST"] then pure (some true)
    else if ← keywords ["NULLS", "LAST"] then pure (some false)
    else pure none
  return ⟨t, ascending, nullsFirst⟩

/-! ## Arguments -/

def namedArgument (value : Parser Unit) : Parser Arg := do
  let start ← get
  let _ ← ident
  match ← next with
  | some (.symbol s) => if !(["=>", "=", ":="].contains s) then fail
  | _ => fail
  value
  return .other (← spellingSince start)

/-- Names joined by periods with a star behind the last one; `none` if there is no star. -/
def starredNameUpTo : Nat → Parser (Option Name)
  | 0 => fail
  | n + 1 => do
    if ← symbol "*" then return some []
    let i ← ident
    if ← symbol "." then return (← starredNameUpTo n).map (i :: ·) else return none

/-- The table whose columns stand here, if a name with a period behind it starts a star. -/
def starredName : Parser (Option Name) := do
  let start ← get
  match start with
  | l :: .symbol "." :: _ =>
    let isName := match l with
      | .word _ | .text _ => true
      | _ => false
    if !isName then return none
    match ← starredNameUpTo (start.length + 1) with
    | some table => return some table
    | none =>
      set start
      return none
  | _ => return none

/-- A star, all columns of a table, or a term. -/
def starOrTerm : Parser Arg := do
  let start ← get
  if ← symbol "*" then return .star
  match ← starredName with
  | some _ => return .other (← spellingSince start)
  | none => return .term (← g.anyTerm)

def argument : Parser Arg := do
  match ← attempt (namedArgument do let _ ← g.starOrTerm) with
  | some a => return a
  | none => g.starOrTerm

def duplicates : Parser Duplicates := do
  if ← keyword "ALL" then
    if ← keyword "DISTINCT" then fail else return .all
  else if ← keyword "DISTINCT" then return .distinct
  else return .unsaid

def nullTreatment : Parser Unit := do
  match ← oneOf ["RESPECT", "IGNORE"] with
  | some _ => expectKeyword "NULLS"
  | none => return ()

def overflowClause : Parser Unit := do
  if ← keywords ["ON", "OVERFLOW"] then
    if ← keyword "ERROR" then return ()
    expectKeyword "TRUNCATE"
    match ← peek with
    | some (.text _) => let _ ← next
    | _ => pure ()
    expectOneOf ["WITH", "WITHOUT"]
    expectKeyword "COUNT"

/-- The clauses between the last argument and the closing parenthesis. -/
def innerClauses : Parser String := spellingOf do
  nullTreatment
  if ← keywords ["ORDER", "BY"] then
    let _ ← list g.orderItem
  if ← keyword "LIMIT" then
    let _ ← g.anyTerm
  overflowClause

/-- The arguments behind an opening parenthesis, up to the closing one. -/
def arguments : Parser (List Arg × Duplicates × String) := do
  if ← symbol ")" then return ([], .unsaid, "")
  let d ← duplicates
  let args ← list g.argument
  let inner ← g.innerClauses
  expectSymbol ")"
  return (args, d, inner)

def frameBound : Parser Unit := do
  if ← keywords ["CURRENT", "ROW"] then return ()
  if ← keyword "UNBOUNDED" then return ← expectOneOf ["PRECEDING", "FOLLOWING"]
  let _ ← g.anyTerm
  expectOneOf ["PRECEDING", "FOLLOWING"]

def frameClause : Parser Unit := do
  expectOneOf ["ROWS", "RANGE", "GROUPS"]
  if ← keyword "BETWEEN" then
    g.frameBound
    expectKeyword "AND"
    g.frameBound
  else g.frameBound

/-- What stands in the parentheses of a window, with the closing one. -/
def windowSpec : Parser Unit := do
  match ← peek with
  | some (.word w) => if !Keyword.isKeyword w.keyword then let _ ← next
  | _ => pure ()
  if ← keywords ["PARTITION", "BY"] then
    let _ ← list g.anyTerm
  if ← keywords ["ORDER", "BY"] then
    let _ ← list g.orderItem
  if !(← symbol ")") then
    g.frameClause
    expectSymbol ")"

/-- A filter stands in parentheses; one that does not is read over as far as it fits. -/
def filterClause : Parser Bool := do
  if ← keyword "FILTER" then
    if ← symbol "(" then
      if ← keyword "WHERE" then
        let _ ← g.anyTerm
        expectSymbol ")"
        return true
  return false

def overClause : Parser Bool := do
  if ← keyword "OVER" then
    if ← symbol "(" then g.windowSpec
    else let _ ← ident
    return true
  else return false

/-- A call from its opening parenthesis on. -/
def call (nm : Name) : Parser Term := do
  expectSymbol "("
  let (args, d, inner) ← g.arguments
  let start ← get
  if ← keywords ["WITHIN", "GROUP"] then
    parenthesized do
      expectKeywords ["ORDER", "BY"]
      let _ ← list g.orderItem
  let filtered ← g.filterClause
  nullTreatment
  let windowed ← g.overClause
  return .call nm ⟨d, true, filtered, windowed, inner, ← spellingSince start⟩ args

end Grammar

end TableQuery.Sql
