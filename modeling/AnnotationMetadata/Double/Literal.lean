import AnnotationMetadata.Double.Basic

set_option autoImplicit false

/-!
# Reading number literals

A literal is an optional minus sign, digits, and optionally a fraction and an
exponent. Its digits are gathered into a significand of at most 64 bits, which
is rounded to binary64 and then scaled by a power of ten, rounded again.
-/

namespace AnnotationMetadata

inductive Numeral where
  /-- A literal without fraction and exponent, in the range of a signed or an
  unsigned 64-bit word and not negative zero. -/
  | integer (value : Int)
  | double (value : Double)
  /-- Too large for a finite number. -/
  | overflow
  deriving DecidableEq

structure Literal where
  negative : Bool
  whole : List Char
  fraction : Option (List Char)
  exponent : Option (Bool × List Char)
  deriving DecidableEq

namespace Literal

/-! ## Parts -/

/-- The digits of the exponent with its sign; an exponent needs a digit. -/
def exponent? : List Char → Option (Option (Bool × List Char))
  | [] => some none
  | mark :: rest =>
    if mark = 'e' ∨ mark = 'E' then
      let (negative, digits) :=
        match rest with
        | '-' :: digits => (true, digits)
        | '+' :: digits => (false, digits)
        | digits => (false, digits)
      if digits.isEmpty || !digits.all Char.isDigit then none else some (some (negative, digits))
    else none

/-- Splits a literal into its parts. The whole part has no leading zero, and a
fraction needs a digit. -/
def ofChars? (chars : List Char) : Option Literal := do
  let (negative, unsigned) :=
    match chars with
    | '-' :: rest => (true, rest)
    | rest => (false, rest)
  let whole := unsigned.takeWhile Char.isDigit
  let rest := unsigned.dropWhile Char.isDigit
  guard (!whole.isEmpty && (whole.length == 1 || whole.head? != some '0'))
  match rest with
  | '.' :: more =>
    let fraction := more.takeWhile Char.isDigit
    guard (!fraction.isEmpty)
    let exponent ← exponent? (more.dropWhile Char.isDigit)
    return ⟨negative, whole, some fraction, exponent⟩
  | _ =>
    let exponent ← exponent? rest
    return ⟨negative, whole, none, exponent⟩

/-! ## Value -/

def digitValue (c : Char) : Nat := c.toNat - '0'.toNat

def digitsValue (digits : List Char) : Nat :=
  digits.foldl (fun total c => total * 10 + digitValue c) 0

/-- Appends digits to a significand as long as it fits 64 bits. Returns the
significand and the digits left over. -/
def gather : Nat → List Char → Nat × List Char
  | total, [] => (total, [])
  | total, c :: rest =>
    if total * 10 + digitValue c < Nat.pow 2 64 then gather (total * 10 + digitValue c) rest
    else (total, c :: rest)

/-- Divides by `10 ^ power` in steps of at most `10 ^ 308`. -/
def divideByTenPower (x : Double) (power : Nat) : Option Double :=
  if x.isZero then some x
  else if power ≤ 308 then do x.quotient? (← Double.ofNat? false (Nat.pow 10 power))
  else do
    let smaller ← x.quotient? (← Double.ofNat? false (Nat.pow 10 308))
    divideByTenPower smaller (power - 308)
termination_by power
decreasing_by omega

/-- The significand scaled by a power of ten. -/
def scaled? (negative : Bool) (significand : Nat) (exponent : Int) : Option Double := do
  let x ← Double.ofNat? negative significand
  if exponent < 0 then divideByTenPower x (-exponent).toNat
  else if x.isZero then some x
  else if 308 < exponent then none
  else x.timesPower? (← Double.ofNat? false (Nat.pow 10 exponent.toNat))

/-- An exponent that does not fit a signed 32-bit word. -/
def exponentIsHuge (digits : List Char) : Bool := Nat.pow 2 31 ≤ digitsValue digits

/-- A significand with its power of ten and the exponent that is written after it. -/
def withExponent (negative : Bool) (significand : Nat) (power : Int) :
    Option (Bool × List Char) → Option Double
  | none => scaled? negative significand power
  | some (down, digits) =>
    if exponentIsHuge digits then
      if significand ≠ 0 ∧ !down then none else scaled? negative 0 0
    else
      let written : Int := digitsValue digits
      scaled? negative significand (if down then power - written else power + written)

/-- The number nearest to the literal in the sense of this module. -/
def double? (literal : Literal) : Option Double :=
  let (significand, dropped) := gather 0 literal.whole
  match literal.fraction with
  | none => withExponent literal.negative significand dropped.length literal.exponent
  | some fraction =>
    let (significand, ignored) := gather significand fraction
    let used : Int := fraction.length - ignored.length
    withExponent literal.negative significand (dropped.length - used) literal.exponent

def isIntegral (literal : Literal) : Bool :=
  literal.fraction.isNone && literal.exponent.isNone

/-- An integral literal that fits a 64-bit word is an integer, except for
negative zero; every other one is a binary64 number. -/
def numeral (literal : Literal) : Numeral :=
  let magnitude := digitsValue literal.whole
  if literal.isIntegral && !literal.negative && magnitude < Nat.pow 2 64 then
    .integer magnitude
  else if literal.isIntegral && literal.negative && 0 < magnitude &&
      magnitude ≤ Nat.pow 2 63 then
    .integer (-magnitude)
  else
    match literal.double? with
    | some x => .double x
    | none => .overflow

end Literal

end AnnotationMetadata
