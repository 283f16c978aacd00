/-
Queries: selections with their clauses, set operations, and the clauses around them. Clauses that
have no meaning here are read over.
-/
import TableQuery.Sql.Parser.Source

namespace TableQuery.Sql.Grammar

open Sql.Parser

variable (g : Grammar)

/-! ## Selections -/

def distinctClause : Parser Distinct := do
  let all ← keyword "ALL"
  let start ← get
  if ← keyword "DISTINCT" then
    if all then fail
    if ← keyword "ON" then
      expectSymbol "("
      if !(← symbol ")") then
        let _ ← list g.anyTerm
        expectSymbol ")"
      return .on (← spellingSince start)
    else return .yes
  else return .no

def topClause : Parser Unit := do
  if ← keyword "TOP" then
    if ← symbol "(" then
      let _ ← g.anyTerm
      expectSymbol ")"
    else let _ ← count
    let _ ← keyword "PERCENT"
    let _ ← keywords ["WITH", "TIES"]

/-- Columns left out of a star or replaced in it. -/
def starOptions : Parser Unit := do
  if ← keyword "EXCLUDE" then
    if ← symbol "(" then
      let _ ← list ident
      expectSymbol ")"
    else let _ ← ident
  if ← keyword "REPLACE" then
    let _ ← parenthesized <| list do
      let _ ← g.anyTerm
      let _ ← keyword "AS"
      ident

/-- The word `FROM` is no column: it says that an item is missing. -/
def isMissing : Term → Bool
  | .column i => i.quote.isNone && Text.lower i.text == "from"
  | _ => false

def item : Parser Item := do
  if ← symbol "*" then
    g.starOptions
    return .star
  match ← starredName with
  | some table =>
    g.starOptions
    return .tableStar table
  | none =>
    let t ← g.anyTerm
    if isMissing t then fail
    return .term t (← aliasUnless Keyword.endsItem)

def intoClause : Parser Unit := do
  if ← keyword "INTO" then
    let _ ← oneOf ["TEMP", "TEMPORARY"]
    let _ ← keyword "UNLOGGED"
    let _ ← keyword "TABLE"
    let _ ← name

def lateralViewsUpTo : Nat → Parser Unit
  | 0 => return ()
  | n + 1 => do
    if ← keywords ["LATERAL", "VIEW"] then
      let _ ← keyword "OUTER"
      let _ ← g.anyTerm
      let _ ← name
      let _ ← list (aliasUnless ["WHERE", "GROUP", "CLUSTER", "HAVING", "LATERAL"])
      lateralViewsUpTo n

/-- Terms in parentheses, possibly none. -/
def termRow : Parser Unit := do
  expectSymbol "("
  if !(← symbol ")") then
    let _ ← list g.anyTerm
    expectSymbol ")"

/-- A term, or terms in parentheses. -/
def termOrRow : Parser Unit := do
  if ← peekSymbol "(" then g.termRow else let _ ← g.anyTerm

def groupTerm : Parser Term := do
  let start ← get
  if ← keywords ["GROUPING", "SETS"] then
    spelled start (parenthesized (list g.termRow))
  else if (← oneOf ["CUBE", "ROLLUP"]).isSome then
    spelled start (parenthesized (list g.termOrRow))
  else if start.take 2 == [.symbol "(", .symbol ")"] then
    set (start.drop 2)
    return .other "()"
  else g.anyTerm

def groupClause : Parser Grouping := do
  if ← keywords ["GROUP", "BY"] then
    if ← keyword "ALL" then return .all
    return .by (← list g.groupTerm)
  else return .by []

def optionalClause (k : String) : Parser (Option Term) := do
  if ← keyword k then return some (← g.anyTerm) else return none

def termsBehind (ks : List String) : Parser Unit := do
  if ← keywords ks then
    let _ ← list g.anyTerm

def windowClause : Parser Unit := do
  if ← keyword "WINDOW" then
    let _ ← list do
      let _ ← ident
      expectKeyword "AS"
      expectSymbol "("
      g.windowSpec

/-- A selection from its first keyword on. -/
def selection : Parser Body := do
  expectKeyword "SELECT"
  let distinct ← g.distinctClause
  g.topClause
  let items ← list g.item
  intoClause
  let source ← if ← keyword "FROM" then g.source else pure .nothing
  g.lateralViewsUpTo (← get).length
  let filter ← g.optionalClause "WHERE"
  let grouping ← g.groupClause
  g.termsBehind ["CLUSTER", "BY"]
  g.termsBehind ["DISTRIBUTE", "BY"]
  g.termsBehind ["SORT", "BY"]
  let having ← g.optionalClause "HAVING"
  if (← peekKeyword) = "QUALIFY" then
    let _ ← g.optionalClause "QUALIFY"
    g.windowClause
  else
    g.windowClause
    let _ ← g.optionalClause "QUALIFY"
  return .select ⟨distinct, items, filter, grouping, having⟩ source

/-! ## Set operations -/

def setOp? : String → Option (SetOp × Nat)
  | "UNION" => some (.union, 10)
  | "EXCEPT" => some (.except, 10)
  | "INTERSECT" => some (.intersect, 20)
  | _ => none

def setQuantifier (op : SetOp) : Parser Unit := do
  if op = .union && (← keywords ["DISTINCT", "BY", "NAME"]) then return ()
  if op = .union && (← keywords ["BY", "NAME"]) then return ()
  if ← keyword "ALL" then
    if op = .union then
      let _ ← keywords ["BY", "NAME"]
  else
    let _ ← keyword "DISTINCT"

/-- The rows of a list of values. -/
def valuesBody : Parser Unit := do
  let _ ← list do
    let _ ← keyword "ROW"
    parenthesized (list g.anyTerm)

/-- A table as a query. Three lexemes are read, whatever stands behind the name. -/
def tableBody : Parser Unit := do
  match (← get).take 3 with
  | [.word _, .symbol ".", .word _] => pure ()
  | .word _ :: l :: _ => if l = .symbol "." then fail
  | .word _ :: _ => pure ()
  | _ => fail
  modify (·.drop 3)

/-- A body without set operations around it. -/
def firstBody : Parser Body := do
  let start ← get
  match ← peekKeyword with
  | "SELECT" => g.selection
  | "VALUES" =>
    let _ ← next
    g.valuesBody
    return .other (← spellingSince start)
  | "TABLE" =>
    let _ ← next
    tableBody
    return .other (← spellingSince start)
  | _ =>
    expectSymbol "("
    let q ← g.query
    expectSymbol ")"
    return .parens q

/-- The set operations behind a body that bind more strongly than the bound. -/
def setOperationsUpTo (start : List Lexeme) (bound : Nat) (right : Nat → Parser Body) :
    Nat → Body → Parser Body
  | 0, _ => fail
  | n + 1, left => do
    match setOp? (← peekKeyword) with
    | some (op, strength) =>
      if strength ≤ bound then return left
      let _ ← next
      setQuantifier op
      let _ ← right strength
      setOperationsUpTo start bound right n (.setOperation op (← spellingSince start))
    | none => return left

/-- Set operations bind with two strengths, so bodies nest to a depth of three. -/
def bodyAbove : Nat → Nat → Parser Body
  | 0, _ => fail
  | n + 1, bound => do
    let start ← get
    let left ← g.firstBody
    setOperationsUpTo start bound (bodyAbove n) (start.length + 1) left

def body : Parser Body := g.bodyAbove 3 0

/-! ## Around the body -/

def commonTable : Parser Unit := do
  let _ ← ident
  if !(← keyword "AS") then
    columnNames
    expectKeyword "AS"
  let _ ← parenthesized g.query
  if ← keyword "FROM" then
    let _ ← ident

def withClause : Parser (Option String) := do
  let start ← get
  if ← keyword "WITH" then
    let _ ← keyword "RECURSIVE"
    let _ ← list g.commonTable
    return some (← spellingSince start)
  else return none

def orderClause : Parser (List OrderItem) := do
  if ← keywords ["ORDER", "BY"] then list g.orderItem else return []

def limitClause (limit : Option Term) : Parser (Option Term) := do
  if limit.isNone && (← keyword "LIMIT") then
    if ← keyword "ALL" then return none
    return some (← g.anyTerm)
  else return limit

def offsetClause (offset : Option String) : Parser (Option String) := do
  let start ← get
  if offset.isNone && (← keyword "OFFSET") then
    let _ ← g.anyTerm
    let _ ← oneOf ["ROW", "ROWS"]
    return some (← spellingSince start)
  else return offset

def fetchClause : Parser (Option String) := do
  let start ← get
  if ← keyword "FETCH" then
    expectOneOf ["FIRST", "NEXT"]
    if (← oneOf ["ROW", "ROWS"]).isNone then
      let _ ← literal
      let _ ← keyword "PERCENT"
      expectOneOf ["ROW", "ROWS"]
    if !(← keyword "ONLY") then expectKeywords ["WITH", "TIES"]
    return some (← spellingSince start)
  else return none

/-- The options of a written form, each behind a comma. -/
def formOptionsUpTo : Nat → Parser Unit
  | 0 => fail
  | n + 1 => do
    if ← symbol "," then
      if ← keywords ["BINARY", "BASE64"] then pure ()
      else if ← keyword "ROOT" then
        let _ ← parenthesized textLiteral
      else expectOneOf ["ELEMENTS", "TYPE", "INCLUDE_NULL_VALUES", "WITHOUT_ARRAY_WRAPPER"]
      formOptionsUpTo n

/-- Locks, or the written form of the result. -/
def forClausesUpTo : Nat → Parser Unit
  | 0 => fail
  | n + 1 => do
    if ← keyword "FOR" then
      match ← oneOf ["BROWSE", "JSON", "XML", "UPDATE", "SHARE"] with
      | some "BROWSE" => return ()
      | some "JSON" =>
        expectOneOf ["AUTO", "PATH"]
        formOptionsUpTo (n + 1)
      | some "XML" =>
        match ← oneOf ["RAW", "PATH", "AUTO", "EXPLICIT"] with
        | some k =>
          if (k = "RAW" || k = "PATH") && (← peekSymbol "(") then
            let _ ← parenthesized textLiteral
          formOptionsUpTo (n + 1)
        | none => fail
      | some _ =>
        if ← keyword "OF" then
          let _ ← name
        if !(← keyword "NOWAIT") then
          let _ ← keywords ["SKIP", "LOCKED"]
        forClausesUpTo n
      | none => fail

/-- A query: a body with the clauses around it. A limit and an offset stand in either order. -/
def queryExpr : Parser QueryExpr := do
  let withClause ← g.withClause
  if ["INSERT", "UPDATE"].contains (← peekKeyword) then
    let text ← spellingOf g.statement
    return .mk { withClause := withClause } (.other text)
  let body ← g.body
  let orderBy ← g.orderClause
  let limit ← g.limitClause none
  let offset ← g.offsetClause none
  let limit ← g.limitClause limit
  let offset ← g.offsetClause offset
  let fetch ← fetchClause
  forClausesUpTo ((← get).length + 1)
  return .mk ⟨withClause, orderBy, limit, offset, fetch⟩ body

end TableQuery.Sql.Grammar
