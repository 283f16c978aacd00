/-
The meaning of terms: the expression that each one stands for.
-/
import TableQuery.Expr
import TableQuery.Sql.Error
import TableQuery.Sql.Printer

namespace TableQuery

/-! ## Expressions from expressions -/

namespace Expr

def binary (name : String) (a b : Expr) : Expr := .call name [a, b]

def negate (e : Expr) : Expr := .call "not" [e]

def negateIf (negated : Bool) (e : Expr) : Expr := if negated then negate e else e

/-- The sign of a literal is part of it. -/
def minus : Expr → Expr
  | .lit (.int i) => .lit (.int (-i))
  | .lit (.float x) => .lit (.float x.neg)
  | e => .call "neg" [e]

/-- Equal to one of the items. -/
def anyEqual (x : Expr) (negated : Bool) : List Expr → Expr
  | [] => .lit (.bool negated)
  | e :: r =>
    negateIf negated (r.foldl (fun acc e => binary "or" acc (binary "=" x e)) (binary "=" x e))

end Expr

namespace Sql

/-! ## Literals and operators -/

/-- A number is an integer if it is one of 64 bits. -/
def Literal.value : Literal → Except TermFault Value
  | number digits _ =>
    match Integer.ofText? digits with
    | some i => .ok (.int i)
    | none =>
      match Double.ofText? digits with
      | some x => .ok (.float x)
      | none => .error (.number digits)
  | text s => .ok (.text s)
  | bool b => .ok (.bool b)
  | null => .ok .null
  | other s => .error (.value s)

/-- The name under which an operator is called. -/
def BinaryOp.function : BinaryOp → Except TermFault String
  | arith op => .ok op.symbol
  | relation r => .ok r.symbol
  | and => .ok "and"
  | or => .ok "or"
  | join => .ok "||"
  | other s => .error (.operator s)

def CastTarget.function : CastTarget → String
  | int => "to_int"
  | float => "to_float"
  | text => "to_text"

def TypeName.function (t : TypeName) : Except TermFault String :=
  match t.target with
  | some target => .ok target.function
  | none => .error (.type t.text)

/-! ## Functions -/

/-- Other names under which functions are known. -/
def canonicalName : String → String
  | "ceiling" => "ceil"
  | "mean" => "avg"
  | "len" | "char_length" | "character_length" => "length"
  | "ifnull" => "coalesce"
  | f => f

/-- The name of the function for a call, with or without `DISTINCT`. -/
def functionName (name : String) (distinct : Bool) : Except TermFault String :=
  match canonicalName name, distinct with
  | "count", true => .ok "count_distinct"
  | f, true => .error (.distinct f)
  | f, false => .ok f

/-- A call of a known function with as many arguments as it takes. -/
def planCall (name : String) (distinct : Bool) (args : List Expr) : Except Error Expr := do
  let f ← (functionName name distinct).mapError fun e => Error.plan (.term e)
  match Function.lookup f with
  | none => .error (.engine (.unknownFunction name))
  | some callee =>
    (callee.checkArity args.length).mapError Error.engine
    return .call callee.name args

/-! ## Terms -/

mutual

/-- The expression that a term stands for. Of a column in a table only the column counts. -/
def Term.plan : Term → Except Error Expr
  | .column i => .ok (.column i.text)
  | .path [_, i] => .ok (.column i.text)
  | .path parts => .error (.plan (.term (.path (Name.spelling parts))))
  | .literal l =>
    match l.value with
    | .ok v => .ok (.lit v)
    | .error e => .error (.plan (.term e))
  | .parens t => t.plan
  | .unary .plus t => t.plan
  | .unary .minus t => do return Expr.minus (← t.plan)
  | .unary .not t => do return Expr.negate (← t.plan)
  | .binary op l r =>
    match op.function with
    | .ok f => do return Expr.binary f (← l.plan) (← r.plan)
    | .error e => .error (.plan (.term e))
  | .isNull negated t => do return Expr.negateIf negated (.call "is_null" [← t.plan])
  | .between negated t low high => do
    let x ← t.plan
    let ge := Expr.binary ">=" x (← low.plan)
    let le := Expr.binary "<=" x (← high.plan)
    return Expr.negateIf negated (Expr.binary "and" ge le)
  | .inList negated t items => do return Expr.anyEqual (← t.plan) negated (← planAll items)
  | .like form t pattern => do
    let lower (e : Expr) : Expr :=
      if form.anyCase then .call "lower" [e] else e
    let x ← t.plan
    return Expr.negateIf form.negated (Expr.binary "like" (lower x) (lower (← pattern.plan)))
  | .cast _ t type =>
    match type.function with
    | .ok f => do return .call f [← t.plan]
    | .error e => .error (.plan (.term e))
  | .rounded up t _ => do return .call (if up then "ceil" else "floor") [← t.plan]
  | .trim t => do return .call "trim" [← t.plan]
  | .call nm form args =>
    let f := Text.lower (Name.spelling nm)
    if form.windowed then .error (.plan (.term (.window f)))
    else if form.filtered then .error (.plan (.term (.filter f)))
    else do planCall f (form.duplicates = .distinct) (← planArgs f args)
  | .callQuery nm _ => .error (.plan (.term (.query (Text.lower (Name.spelling nm)))))
  | .other s => .error (.plan (.term (.other s)))

def planAll : List Term → Except Error (List Expr)
  | [] => .ok []
  | t :: r => do return (← t.plan) :: (← planAll r)

def planArgs (function : String) : List Arg → Except Error (List Expr)
  | [] => .ok []
  | .term t :: r => do return (← t.plan) :: (← planArgs function r)
  | .star :: r => do return .wildcard :: (← planArgs function r)
  | .other _ :: _ => .error (.plan (.term (.arguments function)))

end

end Sql

end TableQuery
