/-
Decimal text of 64-bit floating-point numbers: the fewest digits that read back to the same
number, written positionally, and the reading of a decimal with its correct rounding.
-/
import TableQuery.Number.Double

namespace TableQuery.Double

/-! ## The shortest digits -/

/-- The greatest `k` with `10 ^ k ≤ num / den`, for a positive quotient. -/
def log10Ratio (num den : Nat) : Int :=
  let k := log2Ratio num den * 30103 / 100000
  let reaches (k : Int) : Bool := den * Nat.pow 10 k.toNat ≤ num * Nat.pow 10 (-k).toNat
  if reaches (k + 1) then k + 1 else if reaches k then k else k - 1

/-- The reals that round to a positive finite number, in quarters of the number's last place: a
lower end, an upper end, and whether the ends belong to it. -/
def roundingInterval (x : Double) : Nat × Nat × Bool :=
  let m := x.mantissa
  let below := if x.magnitude % exponentWeight = 0 && 1 < x.magnitude / exponentWeight then 1 else 2
  (4 * m - below, 4 * m + 2, m % 2 == 0)

/-- Compares `a * 10 ^ p` with `b * 2 ^ e`. -/
def compareScaled (a : Nat) (p : Int) (b : Nat) (e : Int) : Ordering :=
  compare ((a * Nat.pow 10 p.toNat) <<< (-e).toNat) ((b <<< e.toNat) * Nat.pow 10 (-p).toNat)

/-- Whether `c * 10 ^ p` rounds to the positive number `x`. -/
def roundsTo (x : Double) (c : Nat) (p : Int) : Bool :=
  let (lo, hi, closed) := x.roundingInterval
  let e := x.exponent - 2
  let inside : Ordering → Ordering → Bool := fun o wanted => o == wanted || (closed && o == .eq)
  inside (compareScaled c p lo e) .gt && inside (compareScaled c p hi e) .lt

/-- The multiple of `10 ^ p` next to `x` that rounds to `x`, if there is one; of two the nearer,
and of two equally near the greater. -/
def onGrid? (x : Double) (p : Int) : Option Nat :=
  let num := (x.mantissa <<< x.exponent.toNat) * Nat.pow 10 (-p).toNat
  let den := (1 <<< (-x.exponent).toNat) * Nat.pow 10 p.toNat
  let c := num / den
  match x.roundsTo c p, x.roundsTo (c + 1) p with
  | true, true => some (if 2 * (num % den) < den then c else c + 1)
  | true, false => some c
  | false, true => some (c + 1)
  | false, false => none

/-- The first grid with a hit, from the coarsest on. -/
def searchGrids (x : Double) (p : Int) : Nat → Nat × Int
  | 0 => (x.mantissa, 0)
  | fuel + 1 =>
    match x.onGrid? p with
    | some c => (c, p)
    | none => searchGrids x (p - 1) fuel

/-- Digits `n` and a power `p` of ten such that `n * 10 ^ p` is the shortest decimal that rounds
to the positive number `x`; seventeen digits always suffice. -/
def shortest (x : Double) : Nat × Int :=
  let num := x.mantissa <<< x.exponent.toNat
  let den := 1 <<< (-x.exponent).toNat
  searchGrids x (log10Ratio num den) 17

/-! ## Positional notation -/

def digitsOf (n : Nat) : List Char := Nat.toDigits 10 n

/-- Writes `n * 10 ^ p` without an exponent. -/
def positional (n : Nat) (p : Int) : List Char :=
  let ds := digitsOf n
  if 0 ≤ p then ds ++ List.replicate p.toNat '0'
  else
    let places := (-p).toNat
    let padded := List.replicate (places + 1 - ds.length) '0' ++ ds
    let whole := padded.length - places
    padded.take whole ++ '.' :: padded.drop whole

/-- A grid coarser than the digits may leave zeros at the end of a fraction; they are dropped. -/
def stripZeros (n : Nat) (p : Int) : Nat → Nat × Int
  | 0 => (n, p)
  | fuel + 1 => if p < 0 && n % 10 == 0 then stripZeros (n / 10) (p + 1) fuel else (n, p)

/-- Whole numbers below `10 ^ 15` keep one decimal; other numbers have their shortest digits,
never with an exponent. A NaN shows no sign. -/
def toChars (x : Double) : List Char :=
  if x.isNaN then ['N', 'a', 'N']
  else
    let sign := if x.isNeg then ['-'] else []
    if x.isInfinite then sign ++ ['i', 'n', 'f']
    else if x.isWhole && x.wholePart < Nat.pow 10 15 then
      sign ++ digitsOf x.wholePart ++ ['.', '0']
    else
      let (n, p) := x.shortest
      let (n, p) := stripZeros n p 17
      sign ++ positional n p

def toText (x : Double) : String := String.ofList x.toChars

/-! ## Reading -/

/-- The number nearest to `± n * 10 ^ p`. Far beyond the range the answer is known without
computing the power. -/
def ofDecimal (neg : Bool) (n : Nat) (p : Int) : Double :=
  let order := (digitsOf n).length + p
  if n = 0 || order < -400 then ofMagnitude neg 0
  else if 400 < order then infinity neg
  else ofRatio neg (n * Nat.pow 10 p.toNat) (Nat.pow 10 (-p).toNat)

def natOfDigits (ds : List Char) : Nat :=
  ds.foldl (fun n c => 10 * n + (c.toNat - '0'.toNat)) 0

/-- Splits an optional sign off. -/
def splitSign : List Char → Bool × List Char
  | '-' :: r => (true, r)
  | '+' :: r => (false, r)
  | r => (false, r)

/-- An exponent part up to the end of the text: nothing, or a letter `e`, an optional sign and
digits. -/
def readExponent? : List Char → Option Int
  | [] => some 0
  | c :: r =>
    if c = 'e' || c = 'E' then
      let (neg, ds) := splitSign r
      if ds.isEmpty || !ds.all Char.isDigit then none
      else some (if neg then -(natOfDigits ds : Int) else natOfDigits ds)
    else none

/-- Digits with an optional point among them, then an optional exponent. -/
def readUnsigned? (neg : Bool) (cs : List Char) : Option Double :=
  let whole := cs.takeWhile Char.isDigit
  let rest := cs.dropWhile Char.isDigit
  let (places, rest) :=
    match rest with
    | '.' :: r => (r.takeWhile Char.isDigit, r.dropWhile Char.isDigit)
    | r => ([], r)
  if whole.isEmpty && places.isEmpty then none
  else
    (readExponent? rest).map fun e =>
      ofDecimal neg (natOfDigits (whole ++ places)) (e - places.length)

/-- Reads a decimal number; the words `inf`, `infinity` and `nan` count in any letter case. -/
def ofChars? (cs : List Char) : Option Double :=
  let (neg, r) := splitSign cs
  let word := r.map Char.toLower
  if word = ['n', 'a', 'n'] then some (nan neg)
  else if word = ['i', 'n', 'f'] || word = ['i', 'n', 'f', 'i', 'n', 'i', 't', 'y'] then some (infinity neg)
  else readUnsigned? neg r

def ofText? (s : String) : Option Double := ofChars? s.toList

end TableQuery.Double
