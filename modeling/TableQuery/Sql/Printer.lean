/-
Writing lexemes, terms, queries and statements out as text.
-/
import TableQuery.Sql.Syntax

namespace TableQuery.Sql

/-! ## Quotes -/

/-- Doubles the quotes of a text. A quote behind a backslash and a quote that is doubled already
are left as they are; `before` is the last character that is no such quote. -/
def escapeQuotes (q : Char) (before : Char) : List Char → List Char
  | [] => []
  | [c] => if c = q && before ≠ '\\' then [q, q] else [c]
  | c :: d :: r =>
    if c = q then
      if before = '\\' then c :: escapeQuotes q before (d :: r)
      else if d = q then q :: q :: escapeQuotes q c r
      else q :: q :: escapeQuotes q c (d :: r)
    else c :: escapeQuotes q c (d :: r)

def quoteText (q : Char) (s : String) : String :=
  String.ofList (q :: escapeQuotes q '\x00' s.toList ++ [q])

/-! ## Names and lexemes -/

def Ident.spelling (i : Ident) : String :=
  match i.quote with
  | some q => quoteText q i.text
  | none => i.text

def Name.spelling (n : Name) : String := ".".intercalate (n.map (·.spelling))

namespace Lexeme

def spelling : Lexeme → String
  | word w => w.ident.spelling
  | number digits long => digits ++ (if long then "L" else "")
  | text s => quoteText '\'' s
  | literal s | placeholder s | symbol s => s

/-- Whether no space stands between two lexemes. -/
def joins : Lexeme → Lexeme → Bool
  | symbol a, b =>
    ["(", "[", ".", "::"].contains a || (match b with
      | symbol b => [",", ")", "]", ".", ";", "::"].contains b
      | _ => false)
  | word _, symbol b => [",", ")", "]", ".", ";", "::", "(", "["].contains b
  | _, symbol b => [",", ")", "]", ".", ";", "::", "["].contains b
  | _, _ => false

/-- The lexemes of a part that has no meaning of its own, as one text. -/
def spellAll : List Lexeme → String
  | [] => ""
  | [a] => a.spelling
  | a :: b :: r => a.spelling ++ (if joins a b then "" else " ") ++ spellAll (b :: r)

end Lexeme

/-! ## Terms -/

def Literal.spelling : Literal → String
  | number digits long => digits ++ (if long then "L" else "")
  | text s => quoteText '\'' s
  | bool b => if b then "true" else "false"
  | null => "NULL"
  | other s => s

def UnaryOp.spelling : UnaryOp → String
  | plus => "+"
  | minus => "-"
  | not => "NOT "

def BinaryOp.spelling : BinaryOp → String
  | arith op => op.symbol
  | relation .ne => "<>"
  | relation r => r.symbol
  | and => "AND"
  | or => "OR"
  | join => "||"
  | other s => s

def negation (negated : Bool) : String := if negated then "NOT " else ""

def LikeForm.spelling (f : LikeForm) : String :=
  negation f.negated ++ (if f.anyCase then "ILIKE " else "LIKE ") ++ (if f.any then "ANY " else "")

def LikeForm.escapeSpelling (f : LikeForm) : String :=
  match f.escape with
  | some c => " ESCAPE " ++ quoteText '\'' c
  | none => ""

def Duplicates.spelling : Duplicates → String
  | unsaid => ""
  | all => "ALL "
  | distinct => "DISTINCT "

/-- A clause behind a space, if there is one. -/
def spaced (clause : String) : String := if clause = "" then "" else " " ++ clause

def CallForm.spelling (f : CallForm) (name : String) (args : List String) : String :=
  (if f.parens then
    name ++ "(" ++ f.duplicates.spelling ++ ", ".intercalate args ++ spaced f.inner ++ ")"
  else name) ++ spaced f.outer

def CastForm.spelling (form : CastForm) (term type : String) : String :=
  match form with
  | cast => "CAST(" ++ term ++ " AS " ++ type ++ ")"
  | tryCast => "TRY_CAST(" ++ term ++ " AS " ++ type ++ ")"
  | safeCast => "SAFE_CAST(" ++ term ++ " AS " ++ type ++ ")"
  | colons => term ++ "::" ++ type

mutual

def Term.spelling : Term → String
  | .column i => i.spelling
  | .path parts => Name.spelling parts
  | .literal l => l.spelling
  | .parens t => "(" ++ t.spelling ++ ")"
  | .unary op t => op.spelling ++ t.spelling
  | .binary op l r => l.spelling ++ " " ++ op.spelling ++ " " ++ r.spelling
  | .isNull negated t => t.spelling ++ " IS " ++ negation negated ++ "NULL"
  | .between negated t low high =>
    t.spelling ++ " " ++ negation negated ++ "BETWEEN " ++ low.spelling ++ " AND " ++ high.spelling
  | .inList negated t items =>
    t.spelling ++ " " ++ negation negated ++ "IN (" ++ ", ".intercalate (termSpellings items) ++ ")"
  | .like form t pattern =>
    t.spelling ++ " " ++ form.spelling ++ pattern.spelling ++ form.escapeSpelling
  | .cast form t type => form.spelling t.spelling type.text
  | .rounded up t extra => (if up then "CEIL(" else "FLOOR(") ++ t.spelling ++ extra ++ ")"
  | .trim t => "TRIM(" ++ t.spelling ++ ")"
  | .call name form args => form.spelling (Name.spelling name) (argSpellings args)
  | .callQuery name query => Name.spelling name ++ "(" ++ query ++ ")"
  | .other s => s

def termSpellings : List Term → List String
  | [] => []
  | t :: r => t.spelling :: termSpellings r

def Arg.spelling : Arg → String
  | .term t => t.spelling
  | .star => "*"
  | .other s => s

def argSpellings : List Arg → List String
  | [] => []
  | a :: r => a.spelling :: argSpellings r

end

/-! ## Queries -/

def Item.spelling : Item → String
  | star => "*"
  | tableStar table => Name.spelling table ++ ".*"
  | term t none => t.spelling
  | term t (some name) => t.spelling ++ " AS " ++ name.spelling

def Distinct.spelling : Distinct → String
  | no => ""
  | yes => "DISTINCT "
  | on s => s ++ " "

def OrderItem.spelling (o : OrderItem) : String :=
  o.term.spelling ++
    (match o.ascending with
      | some true => " ASC"
      | some false => " DESC"
      | none => "") ++
    (match o.nullsFirst with
      | some true => " NULLS FIRST"
      | some false => " NULLS LAST"
      | none => "")

/-- A clause that starts with a keyword, if there is one. -/
def clause (keyword : String) : Option String → String
  | some s => " " ++ keyword ++ " " ++ s
  | none => ""

/-- A list after a keyword, if there are any members. -/
def listClause (keyword : String) (members : List String) : String :=
  clause keyword (if members.isEmpty then none else some (", ".intercalate members))

def Selection.spelling (s : Selection) (source : String) : String :=
  "SELECT " ++ s.distinct.spelling ++ ", ".intercalate (s.items.map (·.spelling)) ++ source ++
    clause "WHERE" (s.filter.map (·.spelling)) ++
    (match s.grouping with
      | .all => " GROUP BY ALL"
      | .by terms => listClause "GROUP BY" (terms.map (·.spelling))) ++
    clause "HAVING" (s.having.map (·.spelling))

def Frame.spelling (f : Frame) (body : String) : String :=
  (match f.withClause with
    | some s => s ++ " "
    | none => "") ++ body ++
    listClause "ORDER BY" (f.orderBy.map (·.spelling)) ++
    clause "LIMIT" (f.limit.map (·.spelling)) ++
    spaced (f.offset.getD "") ++ spaced (f.fetch.getD "")

mutual

def QueryExpr.spelling : QueryExpr → String
  | .mk frame body => frame.spelling body.spelling

def Body.spelling : Body → String
  | .select s source => s.spelling source.spelling
  | .parens q => "(" ++ q.spelling ++ ")"
  | .setOperation _ s => s
  | .other s => s

def Source.spelling : Source → String
  | .nothing => ""
  | .table name rest => " FROM " ++ Name.spelling name ++ spaced rest
  | .function name args rest =>
    " FROM " ++ Name.spelling name ++ "(" ++ ", ".intercalate (argSpellings args) ++ ")" ++ spaced rest
  | .query q rest => " FROM (" ++ q.spelling ++ ")" ++ spaced rest
  | .joined s => " FROM " ++ s
  | .several s => " FROM " ++ s
  | .other s => " FROM " ++ s

end

/-! ## Statements -/

def CreateTable.spelling (c : CreateTable) : String :=
  "CREATE " ++ (if c.orReplace then "OR REPLACE " else "") ++
    (if c.temporary then "TEMPORARY " else "") ++ "TABLE " ++
    (if c.ifNotExists then "IF NOT EXISTS " else "") ++ Name.spelling c.name ++
    spaced c.columns ++ clause "AS" (c.query.map (·.spelling))

def Statement.spelling : Statement → String
  | query q => q.spelling
  | createTable c => c.spelling
  | dropTable ifExists names =>
    "DROP TABLE " ++ (if ifExists then "IF EXISTS " else "") ++
      ", ".intercalate (names.map Name.spelling)
  | other s => s

end TableQuery.Sql
