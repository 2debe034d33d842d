import TemplateInheritance.Number.Binary64

/-!
# Decimal text of doubles

The written form of a double has the fewest digits that read back as the same double, and of
those the digits nearest to it. Exponents from -5 to 15 are written positionally, always with a
fraction; the others in exponent form with a sign. A second form has a fixed count of places.
-/

namespace TemplateInheritance

namespace Binary64

/-- The exponent of the largest power of ten that is at most `num / den`, for positive numbers. -/
def decimalExponent (num den : Nat) : Int :=
  if den ≤ num then ((Nat.toDigits 10 (num / den)).length : Int) - 1
  else -((Nat.toDigits 10 ((den - 1) / num)).length : Int)

/-- Of the two multiples of `10 ^ scale` around the magnitude of `d`, the nearest that reads back
as `d`. -/
def decimalAt? (d : Binary64) (scale : Int) : Option Nat :=
  let (num, den) := d.ratio
  let num := num * Nat.pow 10 (-scale).toNat
  let den := den * Nat.pow 10 scale.toNat
  let below := num / den
  let nearest := roundHalfEven num den
  let farther := if nearest = below then below + 1 else below
  [nearest, farther].find? fun digits ↦ ofDecimal? d.negative digits scale == some d

/-- Digits without their trailing zeros, and how many zeros were dropped. -/
def stripZeros : List Char → List Char × Nat
  | [] => ([], 0)
  | c :: rest =>
    let (kept, zeros) := stripZeros rest
    if kept.isEmpty && c == '0' then ([], zeros + 1) else (c :: kept, zeros)

/-- The exact decimal digits of the magnitude and their scale: `10 ^ scale` times the digits. -/
def exactDecimal (d : Binary64) : Nat × Int :=
  if 0 ≤ d.exponent then (d.significand * Nat.pow 2 d.exponent.toNat, 0)
  else (d.significand * Nat.pow 5 (-d.exponent).toNat, d.exponent)

/-- The shortest decimal that reads back as `d`: digits and scale. Seventeen digits always do;
beyond them stands the exact value. -/
def shortestDecimal (d : Binary64) : Nat × Int :=
  let (num, den) := d.ratio
  let top := decimalExponent num den
  ((List.range 17).findSome? fun (more : Nat) ↦
    let scale := top - (more : Int)
    (d.decimalAt? scale).map fun digits ↦ (digits, scale)).getD d.exactDecimal

/-- `count` zeros. -/
def zeros (count : Nat) : List Char :=
  List.replicate count '0'

/-- The text of an exponent, with its sign in front. -/
def exponentText (exponent : Int) : List Char :=
  (if exponent < 0 then '-' else '+') :: Nat.toDigits 10 exponent.natAbs

/-- Digits `d₁d₂…` whose first stands for `10 ^ exponent`, laid out as text. -/
def layout (digits : List Char) (exponent : Int) : List Char :=
  if -5 ≤ exponent ∧ exponent < 0 then
    ['0', '.'] ++ zeros ((-exponent).toNat - 1) ++ digits
  else if 0 ≤ exponent ∧ exponent ≤ 15 then
    let whole := exponent.toNat + 1
    if digits.length ≤ whole then digits ++ zeros (whole - digits.length) ++ ['.', '0']
    else digits.take whole ++ ['.'] ++ digits.drop whole
  else
    match digits with
    | [] => []
    | [digit] => digit :: 'e' :: exponentText exponent
    | digit :: rest => digit :: '.' :: rest ++ 'e' :: exponentText exponent

/-- The written form of a double. -/
def text (d : Binary64) : String :=
  let magnitude :=
    if d.isZero then ['0', '.', '0']
    else
      let (digits, scale) := d.shortestDecimal
      let written := Nat.toDigits 10 digits
      layout (stripZeros written).1 (scale + written.length - 1)
  String.ofList (if d.negative then '-' :: magnitude else magnitude)

/-- The text with exactly six places after the point, rounded from the exact value, ties to the
even digit. -/
def sixPlaces (d : Binary64) : String :=
  let (num, den) := d.ratio
  let millionths := roundHalfEven (num * 1000000) den
  let places := Nat.toDigits 10 (millionths % 1000000)
  let sign := if d.negative then ['-'] else []
  String.ofList
    (sign ++ Nat.toDigits 10 (millionths / 1000000) ++ '.' :: zeros (6 - places.length) ++ places)

end Binary64

end TemplateInheritance
