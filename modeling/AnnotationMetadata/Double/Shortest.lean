import AnnotationMetadata.Double.Basic

set_option autoImplicit false

/-!
# The shortest decimal text of a binary64 number

A number is written with the fewest significant digits that still lie closer to
it than to any other number; of several such decimals the nearest is taken.
`Double.shortest` finds the digits in exact arithmetic, `Double.toText` lays
them out.
-/

namespace AnnotationMetadata

/-- The positive decimal `digits * 10 ^ exponent`. -/
structure Decimal where
  digits : Nat
  exponent : Int
  deriving DecidableEq

namespace Double

/-! ## Digits -/

/-- The decimals that read back as one magnitude, in quarters of a unit. -/
structure Interval where
  lower : Nat
  upper : Nat
  /-- Whether the ends belong to the interval. -/
  closed : Bool

/-- The interval around a magnitude. Below a power of two the next smaller
magnitude is only half as far away. -/
def interval (code : Nat) : Interval :=
  let gap := Nat.pow 2 (scale code)
  let below := if significand code = Nat.pow 2 52 ∧ 0 < scale code then gap else 2 * gap
  let middle := 4 * units code
  ⟨middle - below, middle + 2 * gap, significand code % 2 = 0⟩

/-- Whether the interval holds the quotient `num / den` of quarter units. -/
def Interval.holds (range : Interval) (num den : Nat) : Bool :=
  if range.closed then range.lower * den ≤ num && num ≤ range.upper * den
  else range.lower * den < num && num < range.upper * den

/-- The largest `e` up to the bound with `10 ^ e * den ≤ num`, or zero. -/
def tenPowerBelow (num den : Nat) : Nat → Nat
  | 0 => 0
  | e + 1 => if Nat.pow 10 (e + 1) * den ≤ num then e + 1 else tenPowerBelow num den e

/-- The decimal exponent of the leading digit of a positive magnitude. -/
def leadingExponent (code : Nat) : Int :=
  if unitsPerOne ≤ units code then
    tenPowerBelow (units code) unitsPerOne 308
  else
    -- The least `k` with `units * 10 ^ k ≥ unitsPerOne` gives the exponent `-k`.
    let inverse := tenPowerBelow unitsPerOne (units code) 323
    if units code * Nat.pow 10 inverse = unitsPerOne then -(inverse : Int) else -(inverse : Int) - 1

/-- A multiple of `10 ^ exponent` in quarter units, as a quotient. -/
def quarters (digits : Nat) (exponent : Int) : Nat × Nat :=
  if 0 ≤ exponent then (4 * digits * Nat.pow 10 exponent.toNat * unitsPerOne, 1)
  else (4 * digits * unitsPerOne, Nat.pow 10 (-exponent).toNat)

/-- The multiple of `10 ^ exponent` that lies in the interval of the magnitude
and is nearest to it, if one of its two neighbours on that grid does. -/
def gridPoint? (code : Nat) (exponent : Int) : Option Nat :=
  let range := interval code
  let (stepNum, stepDen) := quarters 1 exponent
  let middle := 4 * units code
  let low := middle * stepDen / stepNum
  let remainder := middle * stepDen - low * stepNum
  let lowHolds := range.holds (low * stepNum) stepDen && low != 0
  let highHolds := range.holds ((low + 1) * stepNum) stepDen
  let lowIsNearer := 2 * remainder < stepNum || (2 * remainder == stepNum && low % 2 == 0)
  if lowHolds && (lowIsNearer || !highHolds) then some low
  else if highHolds then some (low + 1)
  else none

/-- The first grid with a point, trying coarse grids before fine ones. -/
def shortestFrom (code : Nat) : Nat → Int → Decimal
  | 0, exponent => ⟨units code, exponent⟩
  | more + 1, exponent =>
    match gridPoint? code exponent with
    | some digits => ⟨digits, exponent⟩
    | none => shortestFrom code more (exponent - 1)

/-- The shortest decimal that reads back as a positive magnitude. -/
def shortest (code : Nat) : Decimal :=
  shortestFrom code 17 (leadingExponent code)

/-! ## Layout -/

/-- Decimal digits without trailing zeros, and the exponent they are scaled by. -/
def trimZeros : List Char → Int → List Char × Int
  | [], exponent => ([], exponent)
  | c :: rest, exponent => if c = '0' then trimZeros rest (exponent + 1) else (c :: rest, exponent)

/-- Positional text of digits whose first one counts `10 ^ leading`. -/
def positional (digits : List Char) (leading : Int) : List Char :=
  if leading < 0 then
    '0' :: '.' :: (List.replicate (-leading - 1).toNat '0' ++ digits)
  else
    let whole := leading.toNat + 1
    let padded := digits ++ List.replicate (whole - digits.length) '0'
    let fraction := padded.drop whole
    padded.take whole ++ '.' :: (if fraction.isEmpty then ['0'] else fraction)

/-- Scientific text of digits whose first one counts `10 ^ leading`; the
exponent always has a sign. -/
def scientific (digits : List Char) (leading : Int) : List Char :=
  let mantissa :=
    match digits with
    | first :: second :: rest => first :: '.' :: second :: rest
    | few => few
  let sign := if leading < 0 then '-' else '+'
  mantissa ++ 'e' :: sign :: Nat.toDigits 10 leading.natAbs

/-- Text of a positive decimal: positional from `10 ^ -5` to below `10 ^ 16`. -/
def decimalText (decimal : Decimal) : List Char :=
  let (reversed, exponent) := trimZeros (Nat.toDigits 10 decimal.digits).reverse decimal.exponent
  let digits := reversed.reverse
  let leading := exponent + digits.length - 1
  if -5 ≤ leading ∧ leading ≤ 15 then positional digits leading else scientific digits leading

/-- The text of a number. Zero keeps its sign. There are no literals for what is not finite. -/
def toText (x : Double) : String :=
  let magnitude := if x.isZero then ['0', '.', '0'] else decimalText (shortest x.code)
  if x.isFinite then String.ofList (if x.negative then '-' :: magnitude else magnitude)
  else "null"

end Double

end AnnotationMetadata
