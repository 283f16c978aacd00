/-
What stands after `FROM`: tables, table functions, queries in parentheses and joins of them.
-/
import TableQuery.Sql.Parser.Form

namespace TableQuery.Sql.Grammar

open Sql.Parser

variable (g : Grammar)

/-! ## Aliases -/

/-- Columns in parentheses, with or without types. -/
def columnNames : Parser Unit := do
  if ← symbol "(" then
    let _ ← list do
      let _ ← ident
      let _ ← attempt typeName
    expectSymbol ")"

def tableAlias : Parser Unit := do
  if (← aliasUnless Keyword.endsTable).isSome then columnNames

/-! ## Clauses of a table -/

/-- Hints in parentheses behind `WITH`, which otherwise belongs to what follows. -/
def tableHints : Parser Unit := do
  let start ← get
  if ← keyword "WITH" then
    if ← symbol "(" then
      let _ ← list g.anyTerm
      expectSymbol ")"
    else set start

/-- The size of a sample: a number of rows, a share, a number of buckets or a word. -/
def sampleSize (inParens : Bool) : Parser Unit := do
  if inParens && (← keyword "BUCKET") then
    let _ ← literal
    expectKeywords ["OUT", "OF"]
    let _ ← literal
    if ← keyword "ON" then
      let _ ← g.anyTerm
  else
    match ← attempt g.anyTerm with
    | some _ => pure ()
    | none =>
      match ← next with
      | some (.word _) => pure ()
      | _ => fail
    let _ ← oneOf ["ROWS", "PERCENT"]

def sampleClause : Parser Unit := do
  if (← oneOf ["TABLESAMPLE", "SAMPLE"]).isSome then
    let _ ← oneOf ["BERNOULLI", "ROW", "SYSTEM", "BLOCK"]
    if ← symbol "(" then
      g.sampleSize true
      expectSymbol ")"
    else g.sampleSize false
    if (← oneOf ["REPEATABLE", "SEED"]).isSome then
      let _ ← parenthesized literal
    if ← keyword "OFFSET" then
      let _ ← g.anyTerm

/-- A term with or without an alias. -/
def aliasedTerm : Parser Unit := do
  let _ ← g.anyTerm
  if ← keyword "AS" then
    let _ ← ident
  else
    match ← peek with
    | some (.word w) => if !Keyword.isKeyword w.keyword then let _ ← next
    | _ => pure ()

/-- Values turned into columns, behind `PIVOT`. -/
def pivotClause : Parser Unit := do
  parenthesized do
    let _ ← list g.aliasedTerm
    expectKeyword "FOR"
    let _ ← name
    expectKeyword "IN"
    parenthesized do
      if ← keyword "ANY" then
        if ← keywords ["ORDER", "BY"] then
          let _ ← list g.orderItem
      else if ← startsQuery then
        let _ ← g.query
      else
        let _ ← list g.aliasedTerm
    if ← keywords ["DEFAULT", "ON", "NULL"] then
      let _ ← parenthesized g.anyTerm
  tableAlias

/-- Columns turned into rows, behind `UNPIVOT`. -/
def unpivotClause : Parser Unit := do
  parenthesized do
    let _ ← ident
    expectKeyword "FOR"
    let _ ← ident
    expectKeyword "IN"
    let _ ← parenthesized (list ident)
  tableAlias

/-- Whether the table is turned at all. -/
def pivotsUpTo : Nat → Parser Bool
  | 0 => return false
  | n + 1 => do
    match ← oneOf ["PIVOT", "UNPIVOT"] with
    | some "PIVOT" =>
      g.pivotClause
      let _ ← pivotsUpTo n
      return true
    | some _ =>
      unpivotClause
      let _ ← pivotsUpTo n
      return true
    | none => return false

def pivots : Parser Bool := do g.pivotsUpTo (← get).length

/-! ## Tables and joins -/

/-- One member of a join. -/
structure Member where
  source : Source
  /-- Whether it is a join in parentheses. -/
  isJoin : Bool := false

/-- Keeps a source unless it is turned. -/
def unlessPivoted (start : List Lexeme) (source : String → Source) : Parser Member := do
  let rest ← get
  tableAlias
  g.tableHints
  g.sampleClause
  let text ← spellingSince rest
  if ← g.pivots then return ⟨.other (← spellingSince start), false⟩
  return ⟨source text, false⟩

/-- A query in parentheses, behind the opening one. -/
def derivedTable (start : List Lexeme) : Parser Member := do
  let q ← g.query
  expectSymbol ")"
  let rest ← get
  tableAlias
  let text ← spellingSince rest
  if ← g.pivots then return ⟨.other (← spellingSince start), false⟩
  return ⟨.query q text, false⟩

/-- A table or a table function by name. -/
def namedTable (start : List Lexeme) : Parser Member := do
  let nm ← name
  if ← symbol "(" then
    let args ← if ← symbol ")" then pure [] else do
      let args ← list g.argument
      expectSymbol ")"
      pure args
    let _ ← keywords ["WITH", "ORDINALITY"]
    g.unlessPivoted start (.function nm args)
  else
    let _ ← keywords ["WITH", "ORDINALITY"]
    g.unlessPivoted start (.table nm)

/-- The condition of a join. -/
def joinCondition (natural : Bool) : Parser Unit := do
  if natural then return ()
  if ← keyword "ON" then
    let _ ← g.anyTerm
  else if ← keyword "USING" then
    let _ ← parenthesized (list ident)

/-- The words that start a join; `none` if no join starts here. The result says whether a
condition may follow. -/
def joinWords (natural : Bool) : Parser (Option Bool) := do
  match ← peekKeyword with
  | "INNER" | "JOIN" =>
    let _ ← keyword "INNER"
    expectKeyword "JOIN"
    return some true
  | "LEFT" | "RIGHT" =>
    let _ ← next
    if (← oneOf ["OUTER", "SEMI", "ANTI"]).isSome then expectKeyword "JOIN"
    else expectKeyword "JOIN"
    return some true
  | "ANTI" | "SEMI" =>
    let _ ← next
    expectKeyword "JOIN"
    return some true
  | "FULL" =>
    let _ ← next
    let _ ← keyword "OUTER"
    expectKeyword "JOIN"
    return some true
  | "CROSS" =>
    if natural then fail
    let _ ← next
    expectOneOf ["JOIN", "APPLY"]
    return some false
  | "OUTER" =>
    if natural then fail
    let _ ← next
    expectKeyword "APPLY"
    return some false
  | _ => if natural then fail else return none

/-- The joins behind a member, given the parser of a member. Whether there are any. -/
def joinsUpTo (member : Parser Member) : Nat → Parser Bool
  | 0 => fail
  | n + 1 => do
    let _ ← keyword "GLOBAL"
    if ← keyword "ASOF" then
      expectKeyword "JOIN"
      let _ ← member
      expectKeyword "MATCH_CONDITION"
      let _ ← parenthesized g.anyTerm
      g.joinCondition false
      let _ ← joinsUpTo member n
      return true
    let natural ← keyword "NATURAL"
    match ← joinWords natural with
    | none => return false
    | some conditioned =>
      let _ ← member
      if conditioned then g.joinCondition natural
      let _ ← joinsUpTo member n
      return true

/-- A member; joins in parentheses nest, so the steps are counted. -/
def memberUpTo : Nat → Parser Member
  | 0 => fail
  | n + 1 => do
    let start ← get
    if ← keyword "LATERAL" then
      if ← symbol "(" then g.derivedTable start
      else
        let _ ← name
        expectSymbol "("
        let _ ← g.arguments
        tableAlias
        return ⟨.other (← spellingSince start), false⟩
    else if ← keyword "TABLE" then
      let _ ← parenthesized g.anyTerm
      tableAlias
      return ⟨.other (← spellingSince start), false⟩
    else if ← symbol "(" then
      if let some m ← attempt (g.derivedTable start) then return m
      let m ← memberUpTo n
      let joined ← g.joinsUpTo (memberUpTo n) (start.length + 1)
      if joined || m.isJoin then
        expectSymbol ")"
        tableAlias
        return ⟨.other (← spellingSince start), true⟩
      else fail
    else g.namedTable start

def member : Parser Member := do g.memberUpTo ((← get).length + 1)

/-- A member with the joins behind it. -/
def joinedMember : Parser Source := do
  let start ← get
  let m ← g.member
  if ← g.joinsUpTo g.member (start.length + 1) then return .joined (← spellingSince start)
  return m.source

/-- The sources behind `FROM`. -/
def source : Parser Source := do
  let start ← get
  match ← list g.joinedMember with
  | [s] => return s
  | _ => return .several (← spellingSince start)

end TableQuery.Sql.Grammar
