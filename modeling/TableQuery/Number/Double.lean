/-
Binary floating-point numbers of 64 bits, held as bit patterns: the classes, the exact value of a
finite number as a whole mantissa times a power of two, the total order, and the rounding of an
exact quotient to the nearest number. Everything is computed in `Nat` and `Int`.
-/

namespace TableQuery

/-- Equality is equality of bit patterns: the two zeros differ, a NaN equals itself. -/
structure Double where
  bits : UInt64
  deriving DecidableEq, Inhabited

namespace Double

/-! ## Bit fields -/

/-- The weight of the sign bit. -/
def signWeight : Nat := 0x8000000000000000

/-- The weight of the lowest exponent bit, and with it the number of different fractions. -/
def exponentWeight : Nat := 0x10000000000000

def isNeg (x : Double) : Bool := signWeight ≤ x.bits.toNat

/-- The bits below the sign; among numbers of one sign they grow with the distance from zero. -/
def magnitude (x : Double) : Nat := x.bits.toNat % signWeight

def infinityMagnitude : Nat := 2047 * exponentWeight

def ofMagnitude (neg : Bool) (mag : Nat) : Double :=
  ⟨UInt64.ofNat (if neg then signWeight + mag else mag)⟩

def zero : Double := ofMagnitude false 0

def infinity (neg : Bool) : Double := ofMagnitude neg infinityMagnitude

/-- The quiet NaN of the given sign. -/
def nan (neg : Bool) : Double := ofMagnitude neg (infinityMagnitude + exponentWeight / 2)

/-! ## Classes -/

def isNaN (x : Double) : Bool := infinityMagnitude < x.magnitude

def isInfinite (x : Double) : Bool := x.magnitude = infinityMagnitude

def isFinite (x : Double) : Bool := x.magnitude < infinityMagnitude

def isZero (x : Double) : Bool := x.magnitude = 0

/-! ## The exact value -/

/-- A finite number is `± mantissa * 2 ^ exponent`. -/
def mantissa (x : Double) : Nat :=
  if x.magnitude / exponentWeight = 0 then x.magnitude
  else exponentWeight + x.magnitude % exponentWeight

def exponent (x : Double) : Int := max (x.magnitude / exponentWeight : Nat) 1 - 1075

/-- A whole number with a sign. -/
def signed (neg : Bool) (n : Nat) : Int := if neg then -(n : Int) else n

/-- The distance of a finite number from zero, cut to a whole number. -/
def wholePart (x : Double) : Nat :=
  (x.mantissa <<< x.exponent.toNat) >>> (-x.exponent).toNat

/-- A finite number cut toward zero. -/
def truncate (x : Double) : Int := signed x.isNeg x.wholePart

/-- Finite and without a fraction. -/
def isWhole (x : Double) : Bool :=
  x.isFinite && x.mantissa % (1 <<< (-x.exponent).toNat) == 0

/-! ## Order -/

/-- Numbers in total order have increasing keys: negative NaNs, negative numbers with `-0.0` last,
`0.0`, positive numbers, positive NaNs. -/
def orderKey (x : Double) : Int := if x.isNeg then -(x.magnitude : Int) - 1 else x.magnitude

def totalCompare (x y : Double) : Ordering := compare x.orderKey y.orderKey

/-! ## Rounding -/

/-- The quotient rounded to the nearest whole number, a half to the even neighbour. -/
def divRoundEven (num den : Nat) : Nat :=
  let q := num / den
  let r := num % den
  if 2 * r < den then q else if den < 2 * r then q + 1 else q + q % 2

/-- The greatest `k` with `2 ^ k ≤ num / den`, for a positive quotient. -/
def log2Ratio (num den : Nat) : Int :=
  let k : Int := (num.log2 : Int) - (den.log2 : Int)
  if den <<< k.toNat ≤ num <<< (-k).toNat then k else k - 1

/-- The magnitude nearest to `num / den`, ties to the even mantissa; what passes the greatest
finite number becomes infinite. -/
def roundMagnitude (num den : Nat) : Nat :=
  if num = 0 then 0
  else
    let e := max (log2Ratio num den - 52) (-1074)
    let m := divRoundEven (num <<< (-e).toNat) (den <<< e.toNat)
    min ((e + 1074).toNat * exponentWeight + m) infinityMagnitude

def ofRatio (neg : Bool) (num den : Nat) : Double := ofMagnitude neg (roundMagnitude num den)

/-- The number nearest to `± n * 2 ^ e`. -/
def ofScaled (neg : Bool) (n : Nat) (e : Int) : Double :=
  ofRatio neg (n <<< e.toNat) (1 <<< (-e).toNat)

def ofInt (i : Int) : Double := ofRatio (i < 0) i.natAbs 1

end Double

end TableQuery
