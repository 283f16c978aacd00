/-
Arithmetic on 64-bit floating-point numbers: every operation rounds its exact result to the
nearest number. An operation on a NaN gives that NaN, one without a result gives the NaN of
negative sign.
-/
import TableQuery.Number.Double

namespace TableQuery.Double

/-- The outcome of an operation that has no number as its result. -/
def invalid : Double := nan true

/-- Answers for operands of which one is a NaN; otherwise the given result. -/
def keepNaN (x y : Double) (result : Double) : Double :=
  if x.isNaN then x else if y.isNaN then y else result

/-! ## Sign -/

def neg (x : Double) : Double := ofMagnitude (!x.isNeg) x.magnitude

def abs (x : Double) : Double := ofMagnitude false x.magnitude

/-! ## Sum and difference -/

/-- A sum that is exactly zero is `-0.0` only if both operands are negative. -/
def addFinite (x y : Double) : Double :=
  let e := min x.exponent y.exponent
  let s := signed x.isNeg (x.mantissa <<< (x.exponent - e).toNat)
    + signed y.isNeg (y.mantissa <<< (y.exponent - e).toNat)
  if s = 0 then ofMagnitude (x.isNeg && y.isNeg) 0
  else ofScaled (s < 0) s.natAbs e

def add (x y : Double) : Double :=
  keepNaN x y <|
    if x.isInfinite then
      if y.isInfinite && x.isNeg != y.isNeg then invalid else x
    else if y.isInfinite then y
    else addFinite x y

def sub (x y : Double) : Double := if y.isNaN then keepNaN x y x else x.add y.neg

/-! ## Product and quotient -/

def mul (x y : Double) : Double :=
  let sign := x.isNeg != y.isNeg
  keepNaN x y <|
    if x.isInfinite || y.isInfinite then
      if x.isZero || y.isZero then invalid else infinity sign
    else ofScaled sign (x.mantissa * y.mantissa) (x.exponent + y.exponent)

def div (x y : Double) : Double :=
  let sign := x.isNeg != y.isNeg
  keepNaN x y <|
    if x.isInfinite then
      if y.isInfinite then invalid else infinity sign
    else if y.isInfinite then ofMagnitude sign 0
    else if y.isZero then
      if x.isZero then invalid else infinity sign
    else
      let e := x.exponent - y.exponent
      ofRatio sign (x.mantissa <<< e.toNat) (y.mantissa <<< (-e).toNat)

/-- The remainder of a division with the quotient cut toward zero; it is exact and has the sign
of the dividend. -/
def rem (x y : Double) : Double :=
  keepNaN x y <|
    if x.isInfinite || y.isZero then invalid
    else if y.isInfinite then x
    else
      let e := min x.exponent y.exponent
      let r := (x.mantissa <<< (x.exponent - e).toNat) % (y.mantissa <<< (y.exponent - e).toNat)
      ofScaled x.isNeg r e

/-! ## Square root -/

/-- The greatest `r` with `r * r ≤ n`. -/
def floorSqrt (n : Nat) : Nat :=
  if h : n = 0 then 0
  else
    let r := 2 * floorSqrt (n / 4)
    if (r + 1) * (r + 1) ≤ n then r + 1 else r
termination_by n
decreasing_by omega

/-- The root is taken with enough bits that one sticky bit below them decides the rounding. -/
def sqrtFinite (x : Double) : Double :=
  let half := (x.exponent - 120) / 2
  let n := x.mantissa <<< (x.exponent - 2 * half).toNat
  let r := floorSqrt n
  let sticky := if r * r = n then 0 else 1
  ofScaled false (2 * r + sticky) (half - 1)

/-- The root of `-0.0` is `-0.0`. -/
def sqrt (x : Double) : Double :=
  if x.isNaN || x.isZero then x
  else if x.isNeg then invalid
  else if x.isInfinite then x
  else sqrtFinite x

/-! ## Rounding to whole numbers -/

/-- A number without its fraction, one unit farther from zero if `away`; the sign stays, also on
zero. -/
def wholeWith (x : Double) (away : Bool) : Double :=
  if x.isFinite && !x.isWhole then
    ofRatio x.isNeg (x.wholePart + if away then 1 else 0) 1
  else x

def floor (x : Double) : Double := x.wholeWith x.isNeg

def ceil (x : Double) : Double := x.wholeWith (!x.isNeg)

/-- To the nearest whole number, a half away from zero. -/
def round (x : Double) : Double :=
  x.wholeWith ((2 * x.mantissa) >>> (-x.exponent).toNat % 2 == 1)

/-! ## Powers -/

/-- `base ^ n` by repeated squaring, each product rounded. -/
def powNatFrom (acc base : Double) (n : Nat) : Double :=
  if h : n = 0 then acc
  else
    let acc := if n % 2 = 1 then acc.mul base else acc
    if n / 2 = 0 then acc else powNatFrom acc (base.mul base) (n / 2)
termination_by n
decreasing_by omega

/-- A negative power is one over the power of the opposite exponent. -/
def powInt (base : Double) (n : Int) : Double :=
  let p := powNatFrom (ofInt 1) base n.natAbs
  if n < 0 then (ofInt 1).div p else p

end TableQuery.Double
