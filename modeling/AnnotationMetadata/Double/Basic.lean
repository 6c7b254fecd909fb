set_option autoImplicit false

/-!
# Binary64 numbers

A `Double` is a sign and a magnitude code, the other 63 bits of the format. The code of a
finite magnitude counts the smaller magnitudes, so codes are ordered like what they stand for,
and each number but zero has one form. `Double.codeBound` is the code of infinity, and the codes
beyond it are no numbers. All arithmetic is exact arithmetic on finite magnitudes as natural
numbers, rounded once to the nearest magnitude, a tie going to the even code.
-/

namespace AnnotationMetadata

namespace Double

/-- The number of finite magnitudes, which is the code of infinity. -/
def codeBound : Nat := 2047 * Nat.pow 2 52

end Double

structure Double where
  negative : Bool
  code : Nat
  code_lt : code < Nat.pow 2 63 := by decide
  deriving DecidableEq

namespace Double

/-! ## The number of a code -/

/-- The integral significand, below `2 ^ 53`. -/
def significand (code : Nat) : Nat :=
  if code < Nat.pow 2 52 then code else Nat.pow 2 52 + code % Nat.pow 2 52

/-- The power of two by which the significand is scaled, beyond the smallest one. -/
def scale (code : Nat) : Nat :=
  code / Nat.pow 2 52 - 1

/-- The magnitude as a multiple of the smallest positive one. -/
def units (code : Nat) : Nat :=
  significand code * Nat.pow 2 (scale code)

/-- How many smallest magnitudes make one. -/
def unitsPerOne : Nat := Nat.pow 2 1074

/-! ## Rounding -/

/-- The integer nearest to a quotient, the even one of two. -/
def roundHalfEven (num den : Nat) : Nat :=
  let quotient := num / den
  let twice := 2 * (num % den)
  if twice < den then quotient
  else if twice > den then quotient + 1
  else quotient + quotient % 2

/-- The code of the magnitude nearest to a quotient of units. It may lie beyond
the finite codes. -/
def roundUnits (num den : Nat) : Nat :=
  let shift := Nat.log2 (num / den) - 52
  shift * Nat.pow 2 52 + roundHalfEven num (den * Nat.pow 2 shift)

/-- The number nearest to a signed quotient of units; none on overflow. -/
def ofUnits? (negative : Bool) (num den : Nat) : Option Double :=
  if h : roundUnits num den < codeBound then
    some ⟨negative, roundUnits num den, Nat.lt_trans h (by decide)⟩
  else none

/-- The number nearest to a signed natural number. -/
def ofNat? (negative : Bool) (magnitude : Nat) : Option Double :=
  ofUnits? negative (magnitude * unitsPerOne) 1

def zero : Double := ⟨false, 0, by decide⟩

def neg (x : Double) : Double := ⟨!x.negative, x.code, x.code_lt⟩

def isZero (x : Double) : Bool := x.code == 0

def isFinite (x : Double) : Bool := x.code < codeBound

/-- The code stands for no number, neither finite nor infinite. -/
def isNaN (x : Double) : Bool := codeBound < x.code

/-- The product with a natural number, rounded; none on overflow. -/
def timesPower? (x y : Double) : Option Double :=
  ofUnits? (x.negative != y.negative) (units x.code * units y.code) unitsPerOne

/-- The quotient by a nonzero number, rounded; none on overflow. -/
def quotient? (x y : Double) : Option Double :=
  ofUnits? (x.negative != y.negative) (units x.code * unitsPerOne) (units y.code)

/-- Equality of numbers: the two zeros are the same number, and what is no number is not the
same as anything, itself included. -/
def sameNumber (x y : Double) : Bool :=
  (x.isZero && y.isZero) || (!x.isNaN && x.negative == y.negative && x.code == y.code)

end Double

end AnnotationMetadata
