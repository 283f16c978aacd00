/-
The columns that expressions refer to, as a set in order of first mention. A star absorbs all
columns.
-/
import TableQuery.Expr

namespace TableQuery

inductive Token where
  | column (name : String)
  | wildcard
  deriving DecidableEq, Repr

/-- No token occurs twice, and a star stands alone. -/
structure TokenSet where
  tokens : List Token
  deriving DecidableEq, Repr

namespace TokenSet

def empty : TokenSet := ⟨[]⟩

def all : TokenSet := ⟨[.wildcard]⟩

def isWildcard (s : TokenSet) : Bool := s.tokens.head? == some .wildcard

def contains (s : TokenSet) (t : Token) : Bool := s.tokens.contains t

def insert (s : TokenSet) (t : Token) : TokenSet :=
  if s.isWildcard || s.contains t then s
  else if t = .wildcard then all
  else ⟨s.tokens ++ [t]⟩

def insertMany (s : TokenSet) (ts : List Token) : TokenSet := ts.foldl insert s

def union (s u : TokenSet) : TokenSet := s.insertMany u.tokens

def size (s : TokenSet) : Nat := s.tokens.length

def isEmpty (s : TokenSet) : Bool := s.tokens.isEmpty

/-- The names of the columns; none for the star. -/
def columns (s : TokenSet) : List String :=
  s.tokens.filterMap fun
    | .column name => some name
    | .wildcard => none

end TokenSet

namespace Expr

mutual

/-- The columns and stars of an expression from left to right. -/
def leaves : Expr → List Token
  | lit _ => []
  | column name => [.column name]
  | wildcard => [.wildcard]
  | call _ args => leavesOf args

def leavesOf : List Expr → List Token
  | [] => []
  | e :: r => leaves e ++ leavesOf r

end

mutual

/-- Adds the columns and stars of an expression to a set. -/
def collect (s : TokenSet) : Expr → TokenSet
  | lit _ => s
  | column name => s.insert (.column name)
  | wildcard => s.insert .wildcard
  | call _ args => collectAll s args

def collectAll (s : TokenSet) : List Expr → TokenSet
  | [] => s
  | e :: r => collectAll (collect s e) r

end

/-- The tokens that a list of expressions refers to. -/
def tokens (es : List Expr) : TokenSet := collectAll .empty es

/-- No column or star stands outside an aggregate call. -/
def allInAggregate (es : List Expr) : Bool := !haveBareToken es

end Expr

end TableQuery
