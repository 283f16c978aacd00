/-
The meaning of written expressions on the rows of a table, said on the syntax. Lists, ranges, patterns
and negations are tests with three truth values of their own.
-/
import TableQuery.Table
import TableQuery.Sql.Plan.Term
import TableQuery.Proofs.Sql.Truth

namespace TableQuery

/-! ## Meaning -/

/-- Whether a text matches a pattern: unknown with a null, and no answer for other values. -/
def Value.like? : Value → Value → Option (Option Bool)
  | .null, _ | _, .null => some none
  | .text s, .text p => some (some (Text.like s p))
  | _, _ => none

namespace Sql

def CastTarget.scalar : CastTarget → Scalar
  | int => .toInt
  | float => .toFloat
  | text => .toText

def BinaryOp.value? (op : BinaryOp) (a b : Value) : Option Value :=
  match op with
  | arith o => (a.arith o b).toOption
  | relation r => (Value.relate? r a b).map Value.ofTruth
  | and => do return Value.ofTruth (Kleene.and (← a.truth.toOption) (← b.truth.toOption))
  | or => do return Value.ofTruth (Kleene.or (← a.truth.toOption) (← b.truth.toOption))
  | join => some (Scalar.applyJoin a b)
  | other _ => none

/-- The function that a call names. -/
def callee? (name : Name) (form : CallForm) : Option Function :=
  if form.windowed || form.filtered then none
  else (functionName (Text.lower (Name.spelling name)) (form.duplicates = .distinct)).toOption.bind Function.lookup

mutual

/-- Whether an aggregate is called. -/
def Term.hasAggregate : Term → Bool
  | .parens t | .unary _ t | .isNull _ t | .cast _ t _ | .rounded _ t _ | .trim t => t.hasAggregate
  | .binary _ l r => l.hasAggregate || r.hasAggregate
  | .between _ t low high => t.hasAggregate || low.hasAggregate || high.hasAggregate
  | .inList _ t items => t.hasAggregate || Term.haveAggregate items
  | .like _ t pattern => t.hasAggregate || pattern.hasAggregate
  | .call name form args => (callee? name form).any Function.isAggregate || Arg.haveAggregate args
  | _ => false

def Term.haveAggregate : List Term → Bool
  | [] => false
  | t :: r => t.hasAggregate || Term.haveAggregate r

def Arg.haveAggregate : List Arg → Bool
  | [] => false
  | .term t :: r => t.hasAggregate || Arg.haveAggregate r
  | .star :: r | .other _ :: r => Arg.haveAggregate r

end

mutual

/-- The value of a written expression on a row. There is none if an operation in it fails: a
comparison of values of different classes, an overflow, a name that is not found. What the language
gives no meaning to, like the escape character of a pattern, has no influence. -/
def Term.value? (T : Table) : Term → Row → Option Value
  | .column i, row | .path [_, i], row => (T.columnIndex? i.text).map fun j => row.getD j .null
  | .path _, _ => none
  | .literal l, _ => l.value.toOption
  | .parens t, row | .unary .plus t, row => t.value? T row
  | .unary .minus t, row => do (← t.value? T row).neg.toOption
  | .unary .not t, row => do return Value.ofTruth (Kleene.not (← (← t.value? T row).truth.toOption))
  | .binary op l r, row => do op.value? (← l.value? T row) (← r.value? T row)
  | .isNull negated t, row => do return Value.ofTruth (Kleene.notIf negated (some (← t.value? T row).isNull))
  | .between negated t low high, row => do
    let x ← t.value? T row
    let atLeast ← Value.relate? .ge x (← low.value? T row)
    let atMost ← Value.relate? .le x (← high.value? T row)
    return Value.ofTruth (Kleene.notIf negated (Kleene.and atLeast atMost))
  | .inList negated t items, row => do
    let among ← Value.isAmong? (← t.value? T row) (← Term.values? T items row)
    return Value.ofTruth (Kleene.notIf negated among)
  | .like form t pattern, row => do
    let lower (v : Value) : Option Value :=
      if form.anyCase then (Scalar.lower.apply [v]).toOption else some v
    let matches? ← Value.like? (← lower (← t.value? T row)) (← lower (← pattern.value? T row))
    return Value.ofTruth (Kleene.notIf form.negated matches?)
  | .cast _ t type, row => do
    let target ← type.target
    (target.scalar.apply [← t.value? T row]).toOption
  | .rounded up t _, row => do ((if up then Scalar.ceil else Scalar.floor).apply [← t.value? T row]).toOption
  | .trim t, row => do (Scalar.trim.apply [← t.value? T row]).toOption
  | .call name form args, row =>
    match callee? name form with
    | none => none
    | some (.aggregate op) =>
      match op, args with
      | .count, [.star] => some (.int (Int64.ofNat T.size))
      | op, [.term t] =>
        if t.hasAggregate then none else (T.rows.mapM (t.value? T)).bind fun vs => (op.reduce vs).toOption
      | _, _ => none
    | some (.scalar op) =>
      if op.arity.accepts args.length then (Arg.values? T args row).bind fun vs => (op.apply vs).toOption else none
  | .callQuery _ _, _ | .other _, _ => none

def Term.values? (T : Table) : List Term → Row → Option (List Value)
  | [], _ => some []
  | t :: r, row => do
    let v ← t.value? T row
    let vs ← Term.values? T r row
    return v :: vs

def Arg.values? (T : Table) : List Arg → Row → Option (List Value)
  | [], _ => some []
  | .term t :: r, row => do
    let v ← t.value? T row
    let vs ← Arg.values? T r row
    return v :: vs
  | .star :: _, _ | .other _ :: _, _ => none

end

/-! ## Signs -/

/-- A number without a sign. -/
def Literal.unsigned : Literal → Bool
  | number digits _ => digits.toList.head?.all fun c => c != '-' && c != '+'
  | _ => true

mutual

/-- Whether no number in an expression has a sign. -/
def Term.unsigned : Term → Bool
  | .literal l => l.unsigned
  | .parens t | .unary _ t | .isNull _ t | .cast _ t _ | .rounded _ t _ | .trim t => t.unsigned
  | .binary _ l r => l.unsigned && r.unsigned
  | .between _ t low high => t.unsigned && low.unsigned && high.unsigned
  | .inList _ t items => t.unsigned && Term.allUnsigned items
  | .like _ t pattern => t.unsigned && pattern.unsigned
  | .call _ _ args => Arg.allUnsigned args
  | _ => true

def Term.allUnsigned : List Term → Bool
  | [] => true
  | t :: r => t.unsigned && Term.allUnsigned r

def Arg.allUnsigned : List Arg → Bool
  | [] => true
  | .term t :: r => t.unsigned && Arg.allUnsigned r
  | .star :: r | .other _ :: r => Arg.allUnsigned r

end

end Sql

end TableQuery
