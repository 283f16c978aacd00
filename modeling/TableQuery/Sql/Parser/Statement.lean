/-
Statements, and texts of statements separated by semicolons. Of statements that have no meaning
here only the outline is read.
-/
import TableQuery.Sql.Parser.Query
import TableQuery.Sql.Parser.Term

namespace TableQuery.Sql.Grammar

open Sql.Parser

variable (g : Grammar)

/-! ## Definitions of tables -/

def columnList : Parser Unit := do
  let _ ← parenthesized (list ident)

def reference : Parser Unit := do
  let _ ← name
  if ← peekSymbol "(" then columnList

/-- A constraint of a column, if one stands here. -/
def columnOption : Parser Bool := do
  if ← keyword "CONSTRAINT" then
    let _ ← ident
  match ← oneOf ["NOT", "NULL", "DEFAULT", "PRIMARY", "UNIQUE", "REFERENCES", "CHECK", "COLLATE"] with
  | some "NOT" => expectKeyword "NULL"; return true
  | some "DEFAULT" => let _ ← g.anyTerm; return true
  | some "PRIMARY" => expectKeyword "KEY"; return true
  | some "REFERENCES" => reference; return true
  | some "CHECK" => let _ ← parenthesized g.anyTerm; return true
  | some "COLLATE" => let _ ← name; return true
  | some _ => return true
  | none => return false

def columnOptionsUpTo : Nat → Parser Unit
  | 0 => fail
  | n + 1 => do
    if ← g.columnOption then columnOptionsUpTo n

/-- A constraint of a table, if one stands here. -/
def tableConstraint : Parser Bool := do
  let named ← keyword "CONSTRAINT"
  if named then
    let _ ← ident
  match ← oneOf ["PRIMARY", "UNIQUE", "FOREIGN", "CHECK"] with
  | some "PRIMARY" => expectKeyword "KEY"; columnList; return true
  | some "UNIQUE" => columnList; return true
  | some "FOREIGN" =>
    expectKeyword "KEY"
    columnList
    expectKeyword "REFERENCES"
    reference
    return true
  | some _ => let _ ← parenthesized g.anyTerm; return true
  | none => if named then fail else return false

def columnDefinition : Parser Unit := do
  if !(← g.tableConstraint) then
    match ← next with
    | some (.word _) =>
      let _ ← typeName
      g.columnOptionsUpTo ((← get).length + 1)
    | _ => fail

/-- The columns of a table, with a comma between two and possibly behind the last. -/
def columnDefinitions : Parser Unit := do
  if ← symbol "(" then
    if !(← symbol ")") then
      let _ ← list g.columnDefinition
      expectSymbol ")"

/-- The definition of a table, behind the word `TABLE`. -/
def tableDefinition (orReplace temporary : Bool) : Parser Statement := do
  let ifNotExists ← keywords ["IF", "NOT", "EXISTS"]
  let nm ← name
  let start ← get
  if (← oneOf ["LIKE", "ILIKE", "CLONE"]).isSome then
    let _ ← name
  g.columnDefinitions
  let columns ← spellingSince start
  let query ← if ← keyword "AS" then do pure (some (← g.query)) else pure none
  return .createTable ⟨orReplace, temporary, ifNotExists, nm, columns, query⟩

/-! ## Other statements -/

/-- Reads up to the end of the statement; at least one lexeme if `some`. -/
def outline (nonempty : Bool) : Parser Unit := do
  let ls ← get
  let rest := ls.dropWhile (· != .symbol ";")
  if nonempty && rest.length = ls.length then fail
  set rest

def createStatement (start : List Lexeme) : Parser Statement := do
  let orReplace ← keywords ["OR", "REPLACE"]
  let _ ← oneOf ["LOCAL", "GLOBAL"]
  let _ ← keyword "TRANSIENT"
  let temporary := (← oneOf ["TEMP", "TEMPORARY"]).isSome
  let _ ← keyword "PERSISTENT"
  if ← keyword "TABLE" then g.tableDefinition orReplace temporary
  else
    expectOneOf ["VIEW", "MATERIALIZED", "EXTERNAL", "FUNCTION", "TRIGGER", "MACRO", "SECRET",
      "EXTENSION", "INDEX", "UNIQUE", "VIRTUAL", "SCHEMA", "DATABASE", "ROLE", "SEQUENCE", "TYPE",
      "PROCEDURE", "STAGE", "POLICY"]
    outline true
    return .other (← spellingSince start)

/-- The names and the behaviour behind the kind of what is dropped. -/
def dropped : Parser (Bool × List Name) := do
  let ifExists ← keywords ["IF", "EXISTS"]
  let names ← list name
  let cascade ← keyword "CASCADE"
  let restrict ← keyword "RESTRICT"
  let _ ← keyword "PURGE"
  if cascade && restrict then fail
  return (ifExists, names)

def dropStatement (start : List Lexeme) : Parser Statement := do
  let _ ← keyword "TEMPORARY"
  let _ ← keyword "PERSISTENT"
  match ← oneOf ["TABLE", "VIEW", "INDEX", "ROLE", "SCHEMA", "DATABASE", "SEQUENCE", "STAGE", "TYPE",
    "MATERIALIZED", "FUNCTION", "POLICY", "PROCEDURE", "SECRET", "TRIGGER"] with
  | some "TABLE" =>
    let (ifExists, names) ← dropped
    return .dropTable ifExists names
  | some k =>
    if k = "MATERIALIZED" then expectKeyword "VIEW"
    if ["FUNCTION", "POLICY", "PROCEDURE", "SECRET", "TRIGGER"].contains k then outline true
    else let _ ← dropped
    return .other (← spellingSince start)
  | none => fail

def returningClause : Parser Unit := do
  if ← keyword "RETURNING" then
    let _ ← list g.item

def insertStatement : Parser Unit := do
  if ← keyword "OR" then expectOneOf ["REPLACE", "ROLLBACK", "ABORT", "FAIL", "IGNORE"]
  let _ ← keyword "IGNORE"
  expectOneOf ["INTO", "OVERWRITE"]
  let _ ← keyword "TABLE"
  let _ ← name
  if ← keyword "AS" then
    let _ ← ident
  if ← keywords ["DEFAULT", "VALUES"] then return ← g.returningClause
  if ← peekSymbol "(" then
    let _ ← attempt columnList
  let _ ← g.query
  if ← keywords ["ON", "CONFLICT"] then outline true
  else g.returningClause

def assignment : Parser Unit := do
  if ← peekSymbol "(" then columnList else let _ ← name
  expectSymbol "="
  let _ ← g.anyTerm

def updateStatement : Parser Unit := do
  let _ ← g.joinedMember
  expectKeyword "SET"
  let _ ← list g.assignment
  if ← keyword "FROM" then
    let _ ← g.source
  let _ ← g.optionalClause "WHERE"
  g.returningClause

def deleteStatement : Parser Unit := do
  if !(← keyword "FROM") then
    let _ ← list name
    expectKeyword "FROM"
  let _ ← g.source
  if ← keyword "USING" then
    let _ ← g.source
  let _ ← g.optionalClause "WHERE"
  g.returningClause
  let _ ← g.orderClause
  let _ ← g.limitClause none

/-- The statement to be explained, or the table to be described. -/
def explainStatement (explained : Bool) : Parser Unit := do
  let _ ← keywords ["QUERY", "PLAN"]
  let analyze ← keyword "ANALYZE"
  let verbose ← keyword "VERBOSE"
  if ← keyword "FORMAT" then
    let _ ← ident
  if explained && !analyze && !verbose && (← peekSymbol "(") then
    let _ ← attempt (parenthesized (list do let _ ← ident; let _ ← attempt ident))
  match ← attempt g.statement with
  | some _ => return ()
  | none =>
    let _ ← oneOf ["EXTENDED", "FORMATTED"]
    let _ ← keyword "TABLE"
    let _ ← name

/-- The first words of statements of which only the outline is read, and whether more than the
first word is needed. -/
def outlines : List (String × Bool) :=
  [("ALTER", true), ("ANALYZE", true), ("ASSERT", true), ("ATTACH", true), ("BEGIN", false),
    ("CACHE", true), ("CALL", true), ("CLOSE", true), ("COMMENT", true), ("COMMIT", false),
    ("COPY", true), ("DEALLOCATE", true), ("DECLARE", true), ("DETACH", true), ("DISCARD", true),
    ("END", false), ("EXECUTE", true), ("FETCH", true), ("FLUSH", true), ("GRANT", true), ("INSTALL", true),
    ("KILL", true), ("LISTEN", true), ("LOAD", true), ("MERGE", true), ("MSCK", true),
    ("NOTIFY", true), ("OPTIMIZE", true), ("PRAGMA", true), ("PREPARE", true), ("RELEASE", true),
    ("REVOKE", true), ("ROLLBACK", false), ("SAVEPOINT", true), ("SET", true), ("SHOW", true),
    ("START", true), ("TRUNCATE", true), ("UNCACHE", true), ("UNLISTEN", true), ("UNLOAD", true),
    ("USE", true)]

/-- One statement. -/
def anyStatement : Parser Statement := do
  let start ← get
  let other (p : Parser Unit) : Parser Statement := do
    p
    return .other (← spellingSince start)
  if ← peekSymbol "(" then return .query (← g.query)
  let k ← peekKeyword
  if ["SELECT", "WITH", "VALUES"].contains k then return .query (← g.query)
  let _ ← next
  match k with
  | "CREATE" => g.createStatement start
  | "DROP" => dropStatement start
  | "INSERT" | "REPLACE" => other g.insertStatement
  | "UPDATE" => other g.updateStatement
  | "DELETE" => other g.deleteStatement
  | "EXPLAIN" => other (g.explainStatement true)
  | "DESCRIBE" | "DESC" => other (g.explainStatement false)
  | _ =>
    match outlines.lookup k with
    | some nonempty => other (outline nonempty)
    | none => fail

/-! ## The levels -/

/-- The parsers with a number of levels left: terms, queries and statements take one each. -/
def ofLevels : Nat → Grammar
  | 0 => ⟨fun _ => tooDeep, tooDeep, tooDeep⟩
  | n + 1 =>
    let below := ofLevels n
    ⟨below.termAbove, below.queryExpr, below.anyStatement⟩

end TableQuery.Sql.Grammar

namespace TableQuery.Sql.Statement

open Sql.Parser

def maxLevels : Nat := 50

/-- Reads semicolons; whether there were any. -/
def skipEmpty : Parser Bool := do
  let ls ← get
  let rest := ls.dropWhile (· == .symbol ";")
  set rest
  return rest.length < ls.length

/-- Statements with semicolons between them. The word `END` behind one ends the text. -/
def listUpTo (statement : Parser Statement) : Nat → Parser (List Statement)
  | 0 => fail
  | n + 1 => do
    if ← atEnd then return []
    let s ← statement
    let separated ← skipEmpty
    if separated then return s :: (← listUpTo statement n)
    if (← atEnd) || (← peekKeyword) = "END" then return [s]
    fail

/-- The statements of a list of lexemes. -/
def ofLexemes (ls : List Lexeme) : Except SyntaxFault (List Statement) :=
  let p : Parser (List Statement) := do
    let _ ← skipEmpty
    listUpTo (Grammar.ofLevels maxLevels).statement (ls.length + 1)
  (p ls).map (·.1)

/-- The statements of a text. -/
def ofString (s : String) : Except SyntaxFault (List Statement) := do
  ofLexemes (← Lexeme.ofString s)

end TableQuery.Sql.Statement
