/-
Operators between terms and how strongly they bind.
-/
import TableQuery.Sql.Parser.Basic

namespace TableQuery.Sql.Parser

/-! ## Binding strength -/

def strengthOfWord : String → Nat
  | "OR" => 5
  | "AND" => 10
  | "IS" => 17
  | "LIKE" | "ILIKE" | "RLIKE" | "REGEXP" | "SIMILAR" => 19
  | "IN" | "BETWEEN" | "OPERATOR" => 20
  | "XOR" => 24
  | "DIV" => 40
  | _ => 0

def strengthOfSymbol (s : String) : Nat :=
  if ["=", "==", "<", "<=", "!=", "<>", ">", ">=", "<=>", "~", "~*", "!~", "!~*", "~~", "~~*",
    "!~~", "!~~*"].contains s then 20
  else if s = "|" then 21
  else if ["^", "#", "<<", ">>"].contains s then 22
  else if s = "&" then 23
  else if ["+", "-"].contains s then 30
  else if ["*", "/", "//", "%", "||"].contains s then 40
  else if ["::", "!", "[", "&&", "^@"].contains s then 50
  else if ["->", "->>", "#>", "#>>", "@>", "<@", "#-", "@?", "@@"].contains s then 16
  else 0

/-- The words that `NOT` can stand before between two operands. -/
def negatable : List String := ["IN", "BETWEEN", "LIKE", "ILIKE", "RLIKE", "REGEXP", "SIMILAR"]

def notStrength : Nat := 15
def likeStrength : Nat := 19
def betweenStrength : Nat := 20
def signStrength : Nat := 40
def zoneStrength : Nat := 41

/-- How strongly the next lexeme binds as an operator between terms; 0 if it is none. -/
def nextStrength : Parser Nat := do
  match ← peek with
  | some (.word w) =>
    match w.keyword with
    | "NOT" =>
      let k ← peekKeywordAt 1
      return if negatable.contains k then strengthOfWord k else 0
    | "AT" =>
      return if (← peekKeywordAt 1) = "TIME" && (← peekKeywordAt 2) = "ZONE" then zoneStrength else 0
    | k => return strengthOfWord k
  | some (.symbol s) => return strengthOfSymbol s
  | _ => return 0

/-- The operators that combine two terms, with their spelling in messages. -/
def binaryOp? : Lexeme → Option BinaryOp
  | .symbol s =>
    match s with
    | "+" => some (.arith .add)
    | "-" => some (.arith .sub)
    | "*" => some (.arith .mul)
    | "/" => some (.arith .div)
    | "%" => some (.arith .rem)
    | "=" | "==" => some (.relation .eq)
    | "!=" | "<>" => some (.relation .ne)
    | "<" => some (.relation .lt)
    | "<=" => some (.relation .le)
    | ">" => some (.relation .gt)
    | ">=" => some (.relation .ge)
    | "||" => some .join
    | _ =>
      if ["<=>", "|", "^", "&", "//", "<<", ">>", "~", "~*", "!~", "!~*", "~~", "~~*", "!~~", "!~~*",
        "->", "->>", "#>", "#>>", "@>", "<@", "#-", "@?", "@@"].contains s then some (.other s)
      else none
  | .word w =>
    match w.keyword with
    | "AND" => some .and
    | "OR" => some .or
    | "XOR" => some (.other "XOR")
    | _ => none
  | _ => none

end TableQuery.Sql.Parser
