/-
Integers of 64 bits: the range, and the decimal reading of one.
-/
import TableQuery.Number.Decimal

namespace TableQuery.Integer

/-- The 64-bit integer equal to `i`, if there is one. -/
def ofInt? (i : Int) : Option Int64 :=
  if Int64.minValue.toInt ≤ i ∧ i ≤ Int64.maxValue.toInt then some (Int64.ofInt i) else none

/-- Reads an optional sign and at least one digit; a number out of range is refused. -/
def ofChars? (cs : List Char) : Option Int64 :=
  let (neg, ds) := Double.splitSign cs
  if ds.isEmpty || !ds.all Char.isDigit then none
  else ofInt? (if neg then -(Double.natOfDigits ds : Int) else Double.natOfDigits ds)

def ofText? (s : String) : Option Int64 := ofChars? s.toList

def toText (i : Int64) : String := toString i.toInt

end TableQuery.Integer
