/-
Expression trees, the label of an expression, and where aggregate calls and stars occur in it.
-/
import TableQuery.Function

namespace TableQuery

inductive Expr where
  | lit (v : Value)
  | column (name : String)
  /-- The star: a whole item, or the argument of a count. -/
  | wildcard
  /-- Functions and operators are called by name. -/
  | call (name : String) (args : List Expr)
  deriving Inhabited

namespace Expr

/-! ## Equality -/

mutual

def decEq : (a b : Expr) → Decidable (a = b)
  | lit v, lit w => if h : v = w then isTrue (h ▸ rfl) else isFalse (by simpa using h)
  | column m, column n => if h : m = n then isTrue (h ▸ rfl) else isFalse (by simpa using h)
  | wildcard, wildcard => isTrue rfl
  | call m as, call n bs =>
    if h : m = n then
      match decEqList as bs with
      | isTrue h' => isTrue (h ▸ h' ▸ rfl)
      | isFalse h' => isFalse (by simpa using fun _ => h')
    else isFalse (by simp [h])
  | lit _, column _ | lit _, wildcard | lit _, call _ _ => isFalse (by simp)
  | column _, lit _ | column _, wildcard | column _, call _ _ => isFalse (by simp)
  | wildcard, lit _ | wildcard, column _ | wildcard, call _ _ => isFalse (by simp)
  | call _ _, lit _ | call _ _, column _ | call _ _, wildcard => isFalse (by simp)

def decEqList : (as bs : List Expr) → Decidable (as = bs)
  | [], [] => isTrue rfl
  | a :: as, b :: bs =>
    match decEq a b, decEqList as bs with
    | isTrue h, isTrue h' => isTrue (h ▸ h' ▸ rfl)
    | isFalse h, _ => isFalse (by simp [h])
    | _, isFalse h' => isFalse (by simp [h'])
  | [], _ :: _ => isFalse (by simp)
  | _ :: _, [] => isFalse (by simp)

end

instance : DecidableEq Expr := decEq

/-! ## Analysis -/

def isAggregateCall : Expr → Bool
  | call name _ => Function.isAggregateName name
  | _ => false

mutual

def containsAggregate : Expr → Bool
  | call name args => Function.isAggregateName name || containsAggregates args
  | _ => false

def containsAggregates : List Expr → Bool
  | [] => false
  | e :: r => containsAggregate e || containsAggregates r

end

mutual

def containsWildcard : Expr → Bool
  | wildcard => true
  | call _ args => containsWildcards args
  | _ => false

def containsWildcards : List Expr → Bool
  | [] => false
  | e :: r => containsWildcard e || containsWildcards r

end

mutual

/-- Whether a column or a star occurs outside every aggregate call. -/
def hasBareToken : Expr → Bool
  | lit _ => false
  | column _ | wildcard => true
  | call name args => !Function.isAggregateName name && haveBareToken args

def haveBareToken : List Expr → Bool
  | [] => false
  | e :: r => hasBareToken e || haveBareToken r

end

mutual

/-- Whether a star occurs other than as the only argument of a count. -/
def hasStrayWildcard : Expr → Bool
  | wildcard => true
  | call name [wildcard] => !Text.sameLetters name "count"
  | call _ args => haveStrayWildcard args
  | _ => false

def haveStrayWildcard : List Expr → Bool
  | [] => false
  | e :: r => hasStrayWildcard e || haveStrayWildcard r

end

/-! ## Label -/

/-- Operands of an operator that are operator calls themselves stand in parentheses, and so does
every call of `not`. -/
def inOperand (e : Expr) (label : String) : String :=
  match e with
  | call name args =>
    if (args.length == 2 && Function.isBinaryOperator name) || name == "not" then "(" ++ label ++ ")"
    else label
  | _ => label

mutual

/-- The text under which the values of an expression are shown. -/
def label : Expr → String
  | lit (.text s) => "'" ++ s ++ "'"
  | lit v => v.toText
  | column name => name
  | wildcard => "*"
  | call name args =>
    match args, labels args with
    | [a, b], [la, lb] =>
      if Function.isBinaryOperator name then inOperand a la ++ " " ++ name ++ " " ++ inOperand b lb
      else name ++ "(" ++ la ++ ", " ++ lb ++ ")"
    | [a], [la] =>
      if name = "neg" then "-" ++ inOperand a la
      else if name = "not" then "not " ++ inOperand a la
      else name ++ "(" ++ la ++ ")"
    | _, ls => name ++ "(" ++ ", ".intercalate ls ++ ")"

def labels : List Expr → List String
  | [] => []
  | e :: r => label e :: labels r

end

end Expr

end TableQuery
