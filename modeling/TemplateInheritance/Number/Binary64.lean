/-!
# Finite binary64 numbers

A finite double is a sign and an exact value `significand · 2 ^ exponent`, held in the one form
its format allows. Quotients of natural numbers round to the nearest double, and of two equally
near ones to that with the even significand. All arithmetic is exact arithmetic on `Nat`.
-/

namespace TemplateInheritance

/-- A finite double, with its significand as long as the exponent range permits. -/
structure Binary64 where
  negative : Bool
  significand : Nat
  exponent : Int
  canonical : significand < Nat.pow 2 53 ∧ -1074 ≤ exponent ∧ exponent ≤ 971 ∧
    (Nat.pow 2 52 ≤ significand ∨ exponent = -1074)
deriving DecidableEq

/-- The quotient `num / den` rounded to the nearest natural number, ties to the even one. -/
def roundHalfEven (num den : Nat) : Nat :=
  let whole := num / den
  let twice := 2 * (num % den)
  if twice > den ∨ (twice = den ∧ whole % 2 = 1) then whole + 1 else whole

namespace Binary64

/-- Positive zero. -/
def zero : Binary64 := ⟨false, 0, -1074, by decide⟩

instance : Inhabited Binary64 := ⟨zero⟩

/-- A double from its parts, if they are in the form the format allows. -/
def ofParts? (negative : Bool) (significand : Nat) (exponent : Int) : Option Binary64 :=
  if h : significand < Nat.pow 2 53 ∧ -1074 ≤ exponent ∧ exponent ≤ 971 ∧
      (Nat.pow 2 52 ≤ significand ∨ exponent = -1074) then
    some ⟨negative, significand, exponent, h⟩
  else none

/-- The exponent of the largest power of two that is at most `num / den`, for positive numbers. -/
def binaryExponent (num den : Nat) : Int :=
  let guess : Int := (num.log2 : Int) - (den.log2 : Int)
  if den * Nat.pow 2 guess.toNat ≤ num * Nat.pow 2 (-guess).toNat then guess else guess - 1

/-- The double nearest to `num / den` with the given sign, or `none` where it would be infinite. -/
def ofRatio? (negative : Bool) (num den : Nat) : Option Binary64 :=
  if num = 0 then ofParts? negative 0 (-1074) else
    let exponent := max (-1074) (binaryExponent num den - 52)
    let significand :=
      roundHalfEven (num * Nat.pow 2 (-exponent).toNat) (den * Nat.pow 2 exponent.toNat)
    if significand = Nat.pow 2 53 then ofParts? negative (Nat.pow 2 52) (exponent + 1)
    else ofParts? negative significand exponent

/-- The double nearest to `digits · 10 ^ exponent`. -/
def ofDecimal? (negative : Bool) (digits : Nat) (exponent : Int) : Option Binary64 :=
  ofRatio? negative (digits * Nat.pow 10 exponent.toNat) (Nat.pow 10 (-exponent).toNat)

/-- The magnitude as a fraction: numerator and denominator. -/
def ratio (d : Binary64) : Nat × Nat :=
  (d.significand * Nat.pow 2 d.exponent.toNat, Nat.pow 2 (-d.exponent).toNat)

/-- Whether the number is a zero of either sign. -/
def isZero (d : Binary64) : Bool :=
  d.significand == 0

end Binary64

end TemplateInheritance
