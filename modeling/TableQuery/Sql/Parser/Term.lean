/-
Terms: a first term, then operators as long as they bind more strongly than the bound.
-/
import TableQuery.Sql.Parser.Form

namespace TableQuery.Sql.Grammar

open Sql.Parser

variable (g : Grammar)

/-! ## First terms -/

/-- The closing parenthesis, and access to a field behind it. -/
def closeParen (start : List Lexeme) (t : Term) : Parser Term := do
  expectSymbol ")"
  if ← symbol "." then
    match ← next with
    | some (.word _) => return .other (← spellingSince start)
    | _ => fail
  else return t

/-- The parameters and the body of a function value, behind an opening parenthesis. -/
def lambda : Parser Unit := do
  let _ ← list ident
  expectSymbol ")"
  expectSymbol "->"
  let _ ← g.anyTerm

/-- What stands behind an opening parenthesis: a query, a function value, a term or a row of
terms. -/
def parenTerm (start : List Lexeme) : Parser Term := do
  if ← startsQuery then
    let _ ← g.query
    let _ ← closeParen start default
    return .other (← spellingSince start)
  if let some _ ← attempt g.lambda then return .other (← spellingSince start)
  match ← list g.anyTerm with
  | [t] => closeParen start (.parens t)
  | _ =>
    let _ ← closeParen start default
    return .other (← spellingSince start)

/-- A term without operators, as far as its first lexeme decides. -/
def firstBySymbol (first : Parser Term) (start : List Lexeme) : Parser Term := do
  match ← next with
  | some (.word w) => g.wordTerm first start w
  | some (.number digits long) => return .literal (.number digits long)
  | some (.text s) => return .literal (.text s)
  | some (.literal s) | some (.placeholder s) => return .literal (.other s)
  | some (.symbol s) =>
    match s with
    | "+" => return .unary .plus (← g.term signStrength)
    | "-" => return .unary .minus (← g.term signStrength)
    | "(" => g.parenTerm start
    | "[" => g.arrayTerm start
    | "\x7b" =>
      set start
      braceTerm g start do let _ ← ident
    | ":" | "@" =>
      set start
      return .literal (← literal)
    | _ => fail
  | none => fail

/-- A term without operators. The value of an interval is one too, so the steps are counted. -/
def firstUpTo : Nat → Parser Term
  | 0 => fail
  | n + 1 => do
    let start ← get
    if let some t ← attempt (typedTerm (firstUpTo n) start) then return t
    let t ← g.firstBySymbol (firstUpTo n) start
    if ← keyword "COLLATE" then spelled start name else return t

def first : Parser Term := do g.firstUpTo ((← get).length + 1)

/-! ## Operators -/

/-- A comparison with any or all of the values in parentheses. -/
def quantified (start : List Lexeme) (op : BinaryOp) (strength : Nat) : Parser Term := spelled start do
  expectSymbol "("
  if ← startsQuery then
    modify (.symbol "(" :: ·)
    let _ ← g.term strength
  else
    let _ ← g.term strength
    expectSymbol ")"
  match op with
  | .relation _ => return ()
  | _ => fail

/-- The predicates behind `IS`. -/
def isTerm (start : List Lexeme) (left : Term) : Parser Term := do
  let negated ← keyword "NOT"
  if ← keyword "NULL" then return .isNull negated left
  if (← oneOf ["TRUE", "FALSE", "UNKNOWN"]).isSome then return .other (← spellingSince start)
  expectKeywords ["DISTINCT", "FROM"]
  spelled start g.anyTerm

def inTerm (start : List Lexeme) (left : Term) (negated : Bool) : Parser Term := do
  if ← keyword "UNNEST" then return ← spelled start (parenthesized g.anyTerm)
  expectSymbol "("
  match ← attempt g.query with
  | some _ => spelled start (expectSymbol ")")
  | none =>
    let items ← list g.anyTerm
    expectSymbol ")"
    return .inList negated left items

def likeTerm (left : Term) (negated anyCase : Bool) : Parser Term := do
  let any ← keyword "ANY"
  let pattern ← g.term likeStrength
  let escape ← if ← keyword "ESCAPE" then do pure (some (← textLiteral)) else pure none
  return .like ⟨negated, anyCase, any, escape⟩ left pattern

/-- The predicates that `NOT` can stand before. -/
def negatableTerm (start : List Lexeme) (left : Term) : Parser Term := do
  let negated ← keyword "NOT"
  match ← oneOf negatable with
  | some "IN" => g.inTerm start left negated
  | some "BETWEEN" =>
    let low ← g.term betweenStrength
    expectKeyword "AND"
    return .between negated left low (← g.term betweenStrength)
  | some "LIKE" => g.likeTerm left negated false
  | some "ILIKE" => g.likeTerm left negated true
  | some "SIMILAR" =>
    expectKeyword "TO"
    spelled start do
      let _ ← g.term likeStrength
      if ← keyword "ESCAPE" then
        let _ ← textLiteral
  | some _ => spelled start (g.term likeStrength)
  | none => fail

/-- An index or a slice, behind an opening bracket. -/
def subscript : Parser Unit := do
  let lower ← if ← symbol ":" then pure false else do let _ ← g.anyTerm; pure true
  if ← symbol "]" then return ()
  if lower then expectSymbol ":"
  if ← symbol "]" then return ()
  let _ ← g.anyTerm
  if ← symbol "]" then return ()
  expectSymbol ":"
  if ← symbol "]" then return ()
  let _ ← g.anyTerm
  expectSymbol "]"

/-- The operator that stands next, applied to the term on its left, which started at `start`. -/
def operation (start : List Lexeme) (left : Term) (strength : Nat) : Parser Term := do
  let behind ← get
  match ← next with
  | none => fail
  | some l =>
    if let some op := binaryOp? l then
      match ← oneOf ["ANY", "ALL", "SOME"] with
      | some _ => g.quantified start op strength
      | none => return .binary op left (← g.term strength)
    else if l = .symbol "::" then return .cast .colons left (← typeName)
    else if l = .symbol "[" then spelled start g.subscript
    else
      match keywordOf (some l) with
      | "IS" => g.isTerm start left
      | "AT" =>
        expectKeywords ["TIME", "ZONE"]
        spelled start (g.term strength)
      | _ =>
        set behind
        g.negatableTerm start left

def operationsUpTo (start : List Lexeme) (bound : Nat) : Nat → Term → Parser Term
  | 0, _ => fail
  | n + 1, left => do
    let strength ← nextStrength
    if strength ≤ bound then return left
    operationsUpTo start bound n (← g.operation start left strength)

/-- A term whose operators bind more strongly than the bound. -/
def termAbove (bound : Nat) : Parser Term := do
  let start ← get
  let left ← g.first
  g.operationsUpTo start bound (start.length + 1) left

end TableQuery.Sql.Grammar
