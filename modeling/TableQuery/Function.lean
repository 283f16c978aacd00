/-
The functions that a query can call, by name. Whether a call is an aggregate is a property of its
name alone.
-/
import TableQuery.Aggregate
import TableQuery.Scalar

namespace TableQuery

inductive Function where
  | aggregate (op : Aggregate)
  | scalar (op : Scalar)
  deriving DecidableEq, Repr

def Aggregate.name : Aggregate → String
  | count => "count"
  | countDistinct => "count_distinct"
  | sum => "sum"
  | avg => "avg"
  | min => "min"
  | max => "max"
  | first => "first"
  | last => "last"

namespace Function

def name : Function → String
  | aggregate op => op.name
  | scalar op => op.name

def isAggregate : Function → Bool
  | aggregate _ => true
  | scalar _ => false

def arity : Function → Arity
  | aggregate _ => .exactly 1
  | scalar op => op.arity

def checkArity (f : Function) (n : Nat) : Except Error Unit :=
  if f.arity.accepts n then .ok ()
  else .error (.invalidArgument (.arity f.name n))

/-! ## The registry -/

def aggregates : List Aggregate :=
  [.count, .countDistinct, .sum, .avg, .min, .max, .first, .last]

def scalars : List Scalar :=
  [.arith .add, .arith .sub, .arith .mul, .arith .div, .arith .rem, .neg,
    .relation .eq, .relation .ne, .relation .lt, .relation .le, .relation .gt, .relation .ge,
    .and, .or, .not, .join, .like, .isNull,
    .abs, .round, .floor, .ceil, .sqrt,
    .lower, .upper, .trim, .length, .concat,
    .coalesce, .nullIf, .toInt, .toFloat, .toText]

def registry : List Function := aggregates.map aggregate ++ scalars.map scalar

/-- Names are found in any letter case. -/
def lookup (name : String) : Option Function :=
  (registry.find? (·.name == name)).or (registry.find? (·.name == Text.lowerAscii name))

def isAggregateName (name : String) : Bool := (lookup name).any isAggregate

/-! ## Spelling -/

/-- Words that are operators although they are spelled with letters. -/
def isOperatorWord (name : String) : Bool :=
  ["and", "or", "not", "like", "neg", "is_null"].contains name

/-- Operators that are written between their operands. -/
def isBinaryOperator (name : String) : Bool :=
  ["+", "-", "*", "/", "%", "=", "!=", "<", "<=", ">", ">=", "and", "or", "||", "like"].contains name

/-- The names that are called with parentheses, in order. -/
def callableNames : List String :=
  ((registry.map name).filter fun n => (n.toList.head?.any Char.isAlpha) && !isOperatorWord n).mergeSort
    (fun a b => a ≤ b)

end Function

end TableQuery
