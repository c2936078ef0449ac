import PageTemplates.Text.Basic

/-!
Finite binary floating-point numbers of 64 bits, as a sign, a significand and an exponent of two in
their one canonical form, and the rounding of a ratio to the nearest of them.
-/

namespace PageTemplates

namespace Binary64

def pow2 (n : Nat) : Nat :=
  Nat.pow 2 n

def pow10 (n : Nat) : Nat :=
  Nat.pow 10 n

/-- The least significand that has all of its 53 bits, two to the power of 52. -/
def fullBits : Nat := 4503599627370496

end Binary64

/-- Whether a significand and an exponent are the canonical form of a number: 53 bits unless the number
is too small for them. -/
def Binary64.IsCanonical (significand : Nat) (exponent : Int) : Prop :=
  significand < 2 * fullBits ∧ -1074 ≤ exponent ∧ exponent ≤ 971 ∧
    (fullBits ≤ significand ∨ exponent = -1074)

instance (significand : Nat) (exponent : Int) :
    Decidable (Binary64.IsCanonical significand exponent) :=
  inferInstanceAs (Decidable (_ ∧ _))

/-- A finite number `± significand * 2 ^ exponent`. -/
structure Binary64 where
  negative : Bool
  significand : Nat
  exponent : Int
  canonical : Binary64.IsCanonical significand exponent
deriving DecidableEq

namespace Binary64

def zero (negative : Bool) : Binary64 :=
  ⟨negative, 0, -1074, by decide⟩

instance : Inhabited Binary64 :=
  ⟨zero false⟩

/-- Whether a number is zero, of either sign. -/
def isZero (x : Binary64) : Bool :=
  x.significand == 0

/-- Whether two numbers have one value; the zeros of both signs do. -/
def sameValue (x y : Binary64) : Bool :=
  (x.isZero && y.isZero) ||
    (x.negative == y.negative && x.significand == y.significand && x.exponent == y.exponent)

/-- The number with the given parts, when they are canonical. -/
def ofParts? (negative : Bool) (significand : Nat) (exponent : Int) : Option Binary64 :=
  if h : IsCanonical significand exponent then some ⟨negative, significand, exponent, h⟩ else none

/-- The integer nearest to `num / den`; of two, the even one. -/
def roundHalfEven (num den : Nat) : Nat :=
  let quotient := num / den
  let twice := 2 * (num % den)
  if twice < den then quotient
  else if den < twice then quotient + 1
  else if quotient % 2 = 0 then quotient
  else quotient + 1

/-- Numerator and denominator of `num / den / 2 ^ exponent`. -/
def scale (num den : Nat) (exponent : Int) : Nat × Nat :=
  if 0 ≤ exponent then (num, den * pow2 exponent.toNat) else (num * pow2 (-exponent).toNat, den)

/-- The exponent with which `num / den` has 53 bits before the point, or the least one. -/
def exponentOf (num den : Nat) : Int :=
  let guess : Int := (Nat.log2 num : Int) - (Nat.log2 den : Int) - 52
  let (scaled, unit) := scale num den guess
  max (-1074) (if scaled < unit * fullBits then guess - 1 else guess)

/-- The number nearest to `± num / den`, of two the one with the even significand; none when the ratio
is beyond the greatest number. -/
def ofRatio? (negative : Bool) (num den : Nat) : Option Binary64 :=
  if num = 0 then some (zero negative)
  else
    let exponent := exponentOf num den
    let (scaled, unit) := scale num den exponent
    let significand := roundHalfEven scaled unit
    if significand = 2 * fullBits then ofParts? negative fullBits (exponent + 1)
    else ofParts? negative significand exponent

def ofInt? (n : Int) : Option Binary64 :=
  ofRatio? (n < 0) n.natAbs 1

/-- The number nearest to `± digits * 10 ^ power`.  Powers far outside the range are settled by the
count of the digits alone. -/
def ofDecimal? (negative : Bool) (digits : Nat) (power : Int) : Option Binary64 :=
  let magnitude : Int := (Text.ofNat digits).length + power
  if digits = 0 ∨ magnitude < -330 then some (zero negative)
  else if 310 < magnitude then none
  else if 0 ≤ power then ofRatio? negative (digits * pow10 power.toNat) 1
  else ofRatio? negative digits (pow10 (-power).toNat)

example : (ofInt? (2 ^ 53 + 1)).map (·.significand) = some fullBits := by decide +kernel
example : (ofDecimal? false 5 (-324)).map (·.significand) = some 1 := by decide +kernel
example : ofDecimal? false 18 308 = none := by decide +kernel

end Binary64
end PageTemplates
