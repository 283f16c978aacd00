/-
The syntax of statements as far as their meaning depends on it. What has no meaning here is kept
as its spelling, so that a statement can still be written out.
-/
import TableQuery.Scalar
import TableQuery.Sql.Lexeme

namespace TableQuery.Sql

/-! ## Names, literals, operators -/

structure Ident where
  text : String
  quote : Option Char := none
  deriving DecidableEq, Inhabited

def Word.ident (w : Word) : Ident := ⟨w.text, w.quote⟩

/-- Parts joined by periods. -/
abbrev Name := List Ident

/-- The name without its quotes. -/
def Name.text (n : Name) : String := ".".intercalate (n.map (·.text))

inductive Literal where
  /-- A number has no sign. -/
  | number (digits : String) (long : Bool)
  | text (s : String)
  | bool (b : Bool)
  | null
  | other (spelling : String)
  deriving DecidableEq, Inhabited

inductive UnaryOp where
  | plus | minus | not
  deriving DecidableEq, Repr

inductive BinaryOp where
  | arith (op : ArithOp)
  | relation (r : Relation)
  | and | or | join
  | other (symbol : String)
  deriving DecidableEq, Repr

/-! ## Types -/

/-- The kinds of values that a conversion can give. -/
inductive CastTarget where
  | int | float | text
  deriving DecidableEq, Repr

structure TypeName where
  text : String
  target : Option CastTarget
  deriving DecidableEq, Inhabited

/-- The ways to write a conversion. -/
inductive CastForm where
  | cast | tryCast | safeCast | colons
  deriving DecidableEq, Repr

/-! ## Terms -/

structure LikeForm where
  negated : Bool
  /-- `ILIKE`: letters match in any case. -/
  anyCase : Bool
  any : Bool
  escape : Option String
  deriving DecidableEq, Inhabited

inductive Duplicates where
  | unsaid | all | distinct
  deriving DecidableEq, Repr, Inhabited

/-- What a call has beside its name and arguments. -/
structure CallForm where
  duplicates : Duplicates := .unsaid
  /-- Whether there are parentheses at all. -/
  parens : Bool := true
  filtered : Bool := false
  windowed : Bool := false
  /-- Clauses behind the arguments, and clauses behind the call. -/
  inner : String := ""
  outer : String := ""
  deriving DecidableEq, Inhabited

mutual

/-- Written expressions. -/
inductive Term where
  | column (name : Ident)
  | path (parts : Name)
  | literal (l : Literal)
  | parens (t : Term)
  | unary (op : UnaryOp) (t : Term)
  | binary (op : BinaryOp) (l r : Term)
  | isNull (negated : Bool) (t : Term)
  | between (negated : Bool) (t low high : Term)
  | inList (negated : Bool) (t : Term) (items : List Term)
  | like (form : LikeForm) (t pattern : Term)
  | cast (form : CastForm) (t : Term) (type : TypeName)
  /-- The numbers next above or next below; the field or scale has no meaning. -/
  | rounded (up : Bool) (t : Term) (extra : String)
  | trim (t : Term)
  | call (name : Name) (form : CallForm) (args : List Arg)
  /-- A query as the only argument. -/
  | callQuery (name : Name) (query : String)
  | other (spelling : String)

inductive Arg where
  | term (t : Term)
  | star
  | other (spelling : String)

end

instance : Inhabited Term := ⟨.other ""⟩
instance : Inhabited Arg := ⟨.star⟩

/-! ## Queries -/

inductive Item where
  | star
  /-- All columns of one table. -/
  | tableStar (table : Name)
  | term (t : Term) (label : Option Ident)
  deriving Inhabited

inductive Distinct where
  | no | yes
  | on (spelling : String)
  deriving DecidableEq, Inhabited

inductive Grouping where
  | by (terms : List Term)
  | all
  deriving Inhabited

structure OrderItem where
  term : Term
  ascending : Option Bool := none
  nullsFirst : Option Bool := none
  deriving Inhabited

/-- The clauses of one `SELECT` beside its source. -/
structure Selection where
  distinct : Distinct := .no
  items : List Item
  filter : Option Term := none
  grouping : Grouping := .by []
  having : Option Term := none
  deriving Inhabited

/-- What stands around the body of a query. -/
structure Frame where
  withClause : Option String := none
  orderBy : List OrderItem := []
  limit : Option Term := none
  offset : Option String := none
  fetch : Option String := none
  deriving Inhabited

inductive SetOp where
  | union | except | intersect
  deriving DecidableEq, Repr

def SetOp.name : SetOp → String
  | union => "UNION"
  | except => "EXCEPT"
  | intersect => "INTERSECT"

mutual

inductive QueryExpr where
  | mk (frame : Frame) (body : Body)

inductive Body where
  | select (s : Selection) (source : Source)
  | parens (q : QueryExpr)
  | setOperation (op : SetOp) (spelling : String)
  | other (spelling : String)

/-- What stands after `FROM`; `rest` is the alias and what belongs to it. -/
inductive Source where
  | nothing
  | table (name : Name) (rest : String)
  | function (name : Name) (args : List Arg) (rest : String)
  | query (q : QueryExpr) (rest : String)
  | joined (spelling : String)
  | several (spelling : String)
  | other (spelling : String)

end

instance : Inhabited QueryExpr := ⟨.mk {} (.other "")⟩

/-! ## Statements -/

structure CreateTable where
  orReplace : Bool
  temporary : Bool
  ifNotExists : Bool
  name : Name
  columns : String
  query : Option QueryExpr

inductive Statement where
  | query (q : QueryExpr)
  | createTable (c : CreateTable)
  | dropTable (ifExists : Bool) (names : List Name)
  | other (spelling : String)

instance : Inhabited Statement := ⟨.other ""⟩

end TableQuery.Sql
