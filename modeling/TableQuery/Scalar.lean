/-
Scalar functions: operators and functions that map the values of one row to one value.
-/
import TableQuery.Value
import TableQuery.Text.Blank
import TableQuery.Text.Case
import TableQuery.Text.Like

namespace TableQuery

/-- The comparison operators. -/
inductive Relation where
  | eq | ne | lt | le | gt | ge
  deriving DecidableEq, Repr

namespace Relation

def symbol : Relation → String
  | eq => "="
  | ne => "!="
  | lt => "<"
  | le => "<="
  | gt => ">"
  | ge => ">="

def holds : Relation → Ordering → Bool
  | eq, o => o.isEq
  | ne, o => o.isNe
  | lt, o => o.isLT
  | le, o => o.isLE
  | gt, o => o.isGT
  | ge, o => o.isGE

end Relation

inductive Scalar where
  | arith (op : ArithOp)
  | neg
  | relation (r : Relation)
  | and | or | not
  | join | like | isNull
  | abs | round | floor | ceil | sqrt
  | lower | upper | trim | length | concat
  | coalesce | nullIf | toInt | toFloat | toText
  deriving DecidableEq, Repr

/-- The numbers of arguments that a function takes. -/
inductive Arity where
  | exactly (n : Nat)
  | between (least most : Nat)
  | atLeast (n : Nat)
  deriving DecidableEq, Repr

def Arity.accepts : Arity → Nat → Bool
  | exactly k, n => n == k
  | between lo hi, n => lo ≤ n && n ≤ hi
  | atLeast lo, n => lo ≤ n

namespace Scalar

def name : Scalar → String
  | arith op => op.symbol
  | neg => "neg"
  | relation r => r.symbol
  | and => "and"
  | or => "or"
  | not => "not"
  | join => "||"
  | like => "like"
  | isNull => "is_null"
  | abs => "abs"
  | round => "round"
  | floor => "floor"
  | ceil => "ceil"
  | sqrt => "sqrt"
  | lower => "lower"
  | upper => "upper"
  | trim => "trim"
  | length => "length"
  | concat => "concat"
  | coalesce => "coalesce"
  | nullIf => "nullif"
  | toInt => "to_int"
  | toFloat => "to_float"
  | toText => "to_text"

def arity : Scalar → Arity
  | arith _ | relation _ | and | or | join | like | nullIf => .exactly 2
  | round => .between 1 2
  | concat | coalesce => .atLeast 1
  | _ => .exactly 1

/-! ## Comparison and text operators -/

def applyRelation (r : Relation) (a b : Value) : Except Error Value :=
  if a.isNull || b.isNull then .ok .null
  else return .bool (r.holds (← a.compare b))

def applyJoin (a b : Value) : Value :=
  if a.isNull || b.isNull then .null else .text (a.toText ++ b.toText)

def applyLike : Value → Value → Except Error Value
  | .null, _ | _, .null => .ok .null
  | .text s, .text p => .ok (.bool (Text.like s p))
  | a, b => .error (.typeMismatch (.like a.kind b.kind))

/-! ## Numbers -/

def applyAbs : Value → Except Error Value
  | .null => .ok .null
  | .int i =>
    match Integer.ofInt? i.toInt.natAbs with
    | some r => .ok (.int r)
    | none => .error (.invalidArgument (.overflowAbs i))
  | .float x => .ok (.float x.abs)
  | v => .error (.typeMismatch (.argument abs.name v.kind))

/-- The number of decimals to round to: a 32-bit integer, zero where none is given. -/
def precision : List Value → Except Error Int
  | [] => .ok 0
  | .int n :: _ =>
    if Int32.minValue.toInt ≤ n.toInt ∧ n.toInt ≤ Int32.maxValue.toInt then .ok n.toInt
    else .error (.invalidArgument (.precisionRange n))
  | v :: _ => .error (.typeMismatch (.precision v.kind))

def applyRound (digits : Int) : Value → Except Error Value
  | .null => .ok .null
  | .int i => .ok (.int i)
  | .float x =>
    let scale := (Double.ofInt 10).powInt digits
    .ok (.float ((x.mul scale).round.div scale))
  | v => .error (.typeMismatch (.argument round.name v.kind))

/-- Integers are whole already. -/
def applyWhole (op : Scalar) (f : Double → Double) : Value → Except Error Value
  | .null => .ok .null
  | .int i => .ok (.int i)
  | .float x => .ok (.float (f x))
  | v => .error (.typeMismatch (.argument op.name v.kind))

/-- A number below zero has no root; `-0.0` is not below zero. -/
def applySqrt (v : Value) : Except Error Value :=
  match v, v.toDouble? with
  | .null, _ => .ok .null
  | _, some x => .ok (if x.isNeg && !x.isZero && !x.isNaN then .null else .float x.sqrt)
  | _, none => .error (.typeMismatch (.argument sqrt.name v.kind))

/-! ## Text -/

def applyText (op : Scalar) (f : String → Value) : Value → Except Error Value
  | .null => .ok .null
  | .text s => .ok (f s)
  | v => .error (.typeMismatch (.argument op.name v.kind))

/-- Joins the texts of the values that are not null. -/
def applyConcat (vs : List Value) : Value :=
  .text (String.join ((vs.filter (!·.isNull)).map Value.toText))

/-! ## Nulls and conversions -/

def applyCoalesce (vs : List Value) : Value := (vs.find? (!·.isNull)).getD .null

def applyNullIf (a b : Value) : Except Error Value :=
  if a.isNull || b.isNull then .ok a
  else return if (← a.compare b).isEq then .null else a

/-- A float out of range goes to the nearest integer of 64 bits. -/
def clampInt (i : Int) : Int64 :=
  Int64.ofInt (max Int64.minValue.toInt (min i Int64.maxValue.toInt))

def applyToInt : Value → Except Error Value
  | .null => .ok .null
  | .bool b => .ok (.int (if b then 1 else 0))
  | .int i => .ok (.int i)
  | .float x =>
    if x.isFinite then .ok (.int (clampInt x.truncate))
    else .error (.invalidArgument (.notIntFloat x))
  | .text s =>
    match Integer.ofText? (Text.trim s) with
    | some i => .ok (.int i)
    | none => .error (.invalidArgument (.notInt s))

def applyToFloat : Value → Except Error Value
  | .null => .ok .null
  | .bool b => .ok (.float (.ofInt (if b then 1 else 0)))
  | .int i => .ok (.float (.ofInt i.toInt))
  | .float x => .ok (.float x)
  | .text s =>
    match Double.ofText? (Text.trim s) with
    | some x => .ok (.float x)
    | none => .error (.invalidArgument (.notFloat s))

def applyToText : Value → Value
  | .null => .null
  | v => .text v.toText

/-! ## Application -/

/-- Applies a function to its arguments. -/
def apply (op : Scalar) (args : List Value) : Except Error Value :=
  match op, args with
  | arith o, [a, b] => a.arith o b
  | neg, [a] => a.neg
  | relation r, [a, b] => applyRelation r a b
  | and, [a, b] => a.and b
  | or, [a, b] => a.or b
  | not, [a] => a.not
  | join, [a, b] => .ok (applyJoin a b)
  | like, [a, b] => applyLike a b
  | isNull, [a] => .ok (.bool a.isNull)
  | abs, [a] => applyAbs a
  | round, a :: digits => do applyRound (← precision digits) a
  | floor, [a] => applyWhole floor Double.floor a
  | ceil, [a] => applyWhole ceil Double.ceil a
  | sqrt, [a] => applySqrt a
  | lower, [a] => applyText lower (fun s => .text (Text.lower s)) a
  | upper, [a] => applyText upper (fun s => .text (Text.upper s)) a
  | trim, [a] => applyText trim (fun s => .text (Text.trim s)) a
  | length, [a] => applyText length (fun s => .int (Int64.ofNat s.length)) a
  | concat, vs => .ok (applyConcat vs)
  | coalesce, vs => .ok (applyCoalesce vs)
  | nullIf, [a, b] => applyNullIf a b
  | toInt, [a] => applyToInt a
  | toFloat, [a] => applyToFloat a
  | toText, [a] => .ok (applyToText a)
  | op, args => .error (.invalidArgument (.arity op.name args.length))

end Scalar

end TableQuery
