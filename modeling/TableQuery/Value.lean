/-
Values of table cells: kinds, the order on values of one class, three-valued logic, arithmetic,
the key under which equal values are grouped, and the text of a value.
-/
import TableQuery.Error
import TableQuery.Number.Arith
import TableQuery.Text.Ascii

namespace TableQuery

/-- A cell. Equality is structural; the order of values is `Value.compare`. -/
inductive Value where
  | null
  | bool (b : Bool)
  | int (i : Int64)
  | float (x : Double)
  | text (s : String)
  deriving DecidableEq, Inhabited

namespace Value

def kind : Value → Kind
  | null => .null
  | bool _ => .bool
  | int _ => .int
  | float _ => .float
  | text _ => .text

def isNull : Value → Bool
  | null => true
  | _ => false

/-- A number as a floating-point number. -/
def toDouble? : Value → Option Double
  | int i => some (.ofInt i.toInt)
  | float x => some x
  | _ => none

/-! ## Three-valued logic -/

/-- `none` is the unknown truth value. -/
def truth : Value → Except Error (Option Bool)
  | null => .ok none
  | bool b => .ok (some b)
  | v => .error (.typeMismatch (.notBool v.kind))

def ofTruth : Option Bool → Value
  | some b => bool b
  | none => null

/-- Both sides have to be truth values, whatever the other one is. -/
def and (a b : Value) : Except Error Value := do
  match ← a.truth, ← b.truth with
  | some false, _ | _, some false => return bool false
  | some true, some true => return bool true
  | _, _ => return null

def or (a b : Value) : Except Error Value := do
  match ← a.truth, ← b.truth with
  | some true, _ | _, some true => return bool true
  | some false, some false => return bool false
  | _, _ => return null

def not (a : Value) : Except Error Value := do
  return ofTruth ((← a.truth).map (!·))

/-! ## Order -/

/-- `null` comes first and compares with everything. Two integers compare exactly; an integer
and a float compare as floats, in total order. -/
def compare (a b : Value) : Except Error Ordering :=
  match a, b with
  | null, null => .ok .eq
  | null, _ => .ok .lt
  | _, null => .ok .gt
  | bool x, bool y => .ok (Ord.compare x y)
  | int x, int y => .ok (Ord.compare x.toInt y.toInt)
  | text x, text y => .ok (Ord.compare x y)
  | a, b =>
    match a.toDouble?, b.toDouble? with
    | some x, some y => .ok (x.totalCompare y)
    | _, _ => .error (.typeMismatch (.compare a.kind b.kind))

/-- The form in which equal keys are structurally equal: whole floats in the range of the
integers become integers, and all NaNs become one. -/
def groupKey : Value → Value
  | float x =>
    if x.isWhole && (Integer.ofInt? x.truncate).isSome then int (Int64.ofInt x.truncate)
    else if x.isNaN then float (.nan false)
    else float x
  | v => v

/-! ## Arithmetic -/

def isZero : Value → Bool
  | int i => i == 0
  | float x => x.isZero
  | _ => false

end Value

/-- The exact result, if it is in range. A quotient is cut toward zero, and a remainder counts as
out of range where its quotient is. -/
def ArithOp.onInt (op : ArithOp) (a b : Int64) : Option Int64 :=
  let x := a.toInt
  let y := b.toInt
  match op with
  | add => Integer.ofInt? (x + y)
  | sub => Integer.ofInt? (x - y)
  | mul => Integer.ofInt? (x * y)
  | div => Integer.ofInt? (x.tdiv y)
  | rem => (Integer.ofInt? (x.tdiv y)).bind fun _ => Integer.ofInt? (x.tmod y)

def ArithOp.onFloat : ArithOp → Double → Double → Double
  | add => Double.add
  | sub => Double.sub
  | mul => Double.mul
  | div => Double.div
  | rem => Double.rem

/-- The operators for which a zero on the right has no result. -/
def ArithOp.divides : ArithOp → Bool
  | div | rem => true
  | _ => false

namespace Value

/-- Arithmetic on `null` gives `null`, and so does the division of a number by zero. -/
def arith (op : ArithOp) (a b : Value) : Except Error Value :=
  if op.divides && b.isZero && a.toDouble?.isSome then .ok null
  else
    match a, b with
    | null, _ | _, null => .ok null
    | int x, int y =>
      match op.onInt x y with
      | some r => .ok (int r)
      | none => .error (.invalidArgument (.overflow op x y))
    | a, b =>
      match a.toDouble?, b.toDouble? with
      | some x, some y => .ok (float (op.onFloat x y))
      | _, _ => .error (.typeMismatch (.arithmetic op a.kind b.kind))

def neg : Value → Except Error Value
  | null => .ok null
  | int i =>
    match Integer.ofInt? (-i.toInt) with
    | some r => .ok (int r)
    | none => .error (.invalidArgument (.overflowNeg i))
  | float x => .ok (float x.neg)
  | v => .error (.typeMismatch (.negate v.kind))

/-! ## Text -/

def toText : Value → String
  | null => "NULL"
  | bool true => "true"
  | bool false => "false"
  | int i => Integer.toText i
  | float x => x.toText
  | text s => s

/-- The value of a cell of a file. Only text with a digit in it is tried as a float, so that
`inf` and `nan` stay text. -/
def ofCell (s : String) : Value :=
  if s = "" then null
  else if Text.sameLetters s "true" then bool true
  else if Text.sameLetters s "false" then bool false
  else
    match Integer.ofText? s with
    | some i => int i
    | none =>
      if s.toList.any Char.isDigit then
        match Double.ofText? s with
        | some x => float x
        | none => text s
      else text s

end Value

end TableQuery
