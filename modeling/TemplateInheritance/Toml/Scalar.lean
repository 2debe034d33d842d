import TemplateInheritance.Toml.Value

/-!
# Unquoted TOML scalars

Truth values, integers, floats, dates and times, each recognised from its whole text. Digits may
be grouped by single underscores. Seconds of a time may be left out.

What makes a text an integer is decided apart from the number that it names: a bare base mark is
an integer, and so is a text of grouped digits whose underscores are in order, whatever else
stands between them, tabulators included. Such an integer names no number. A table of settings
refuses it, but an item that nothing reads may be one.
-/

namespace TemplateInheritance.Toml.Scalar

/-- The value of a digit in a base up to sixteen. -/
def digitValue (c : Char) : Nat :=
  if c.isDigit then c.toNat - 48 else if c.isLower then c.toNat - 87 else c.toNat - 55

/-- A digit of a base up to sixteen. -/
def isDigitOf (base : Nat) (c : Char) : Bool :=
  (c.isDigit || ('a' ≤ c && c ≤ 'f') || ('A' ≤ c && c ≤ 'F')) && digitValue c < base

/-- The number that digits of a base name. -/
def valueOf (base : Nat) (digits : List Char) : Nat :=
  digits.foldl (fun value c ↦ value * base + digitValue c) 0

/-- The number that grouped digits of a base name; none if there are no digits, or others too. -/
def number? (base : Nat) (written : List Char) : Option Nat :=
  let digits := written.filter (· ≠ '_')
  if !digits.isEmpty && digits.all (isDigitOf base) then some (valueOf base digits) else none

/-- Whether every underscore stands between two digits; `afterDigit` tells whether a digit stands
in front of the text. -/
def underscoresBetween (isDigit : Char → Bool) (afterDigit : Bool) : List Char → Bool
  | [] => true
  | c :: rest =>
    if c = '_' then
      afterDigit && rest.head?.any isDigit && underscoresBetween isDigit false rest
    else underscoresBetween isDigit (isDigit c) rest

/-- An integer after its base mark: digits of the base, or nothing at all. -/
def marked? (base : Nat) (written : List Char) : Option (Option Int) :=
  if written.all (fun c ↦ isDigitOf base c || c == '_') &&
      underscoresBetween (isDigitOf base) false written then
    some ((number? base written).map Int.ofNat)
  else none

/-- The factor of a sign, and the text after it. -/
def splitSign : List Char → Int × List Char
  | '-' :: rest => (-1, rest)
  | '+' :: rest => (1, rest)
  | written => (1, written)

/-- Whether a text of more than one digit begins with a zero. -/
def hasLeadingZero (written : List Char) : Bool :=
  written.head? == some '0' && (written.filter Char.isDigit).length > 1

/-- Whether a text without its sign is a decimal integer: digits, after which an underscore may
open text that is looked at no further than for points, exponents, spaces and the characters beside
the underscores, which are hexadecimal digits. -/
def isDecimal (written : List Char) : Bool :=
  !written.isEmpty && !(written.head? == some '0' && written.length > 1) &&
    ((written.dropWhile Char.isDigit).head?.all fun c ↦ c == '_') &&
    !written.any (fun c ↦ c == '.' || c == 'e' || c == 'E' || c == ' ') &&
    underscoresBetween (isDigitOf 16) false written

/-- An integer; `some none` where its text names no number. -/
def integer? (written : List Char) : Option (Option Int) :=
  match written with
  | '0' :: 'x' :: digits => marked? 16 digits
  | '0' :: 'o' :: digits => marked? 8 digits
  | '0' :: 'b' :: digits => marked? 2 digits
  | _ =>
    let (sign, written) := splitSign written
    if isDecimal written then some ((number? 10 written).map (sign * ·)) else none

/-- A character that may stand in a group of decimal digits. -/
def isGroupedDigit (c : Char) : Bool := c.isDigit || c == '_'

/-- The text after a group of decimal digits, which holds at least one. -/
def afterDigits? (written : List Char) : Option (List Char) :=
  if (written.takeWhile isGroupedDigit).any Char.isDigit then
    some (written.dropWhile isGroupedDigit)
  else none

/-- Whether a text is the end of a float: nothing, or an exponent. -/
def isExponent : List Char → Bool
  | [] => true
  | c :: exponent =>
    (c == 'e' || c == 'E') && afterDigits? (splitSign exponent).2 == some []

/-- Whether a text without its sign is a float: a whole part with a fraction, an exponent or both,
or one of the named values. -/
def isFloat (written : List Char) : Bool :=
  written == "inf".toList || written == "nan".toList ||
    (underscoresBetween Char.isDigit false written &&
      !hasLeadingZero (written.takeWhile isGroupedDigit) &&
      match afterDigits? written with
      | some ('.' :: fraction) => (afterDigits? fraction).any isExponent
      | some (c :: rest) => isExponent (c :: rest)
      | _ => false)

/-- The number of two decimal digits, within bounds. -/
def two? (a b : Char) (least most : Nat) : Option Nat :=
  let value := valueOf 10 [a, b]
  if a.isDigit && b.isDigit && least ≤ value && value ≤ most then some value else none

/-- How many days a month has. -/
def monthDays (year month : Nat) : Nat :=
  if month = 2 then
    if year % 4 = 0 ∧ (year % 100 ≠ 0 ∨ year % 400 = 0) then 29 else 28
  else if month = 4 ∨ month = 6 ∨ month = 9 ∨ month = 11 then 30
  else 31

/-- A date, answered with the text after it. -/
def date? : List Char → Option (List Char)
  | y1 :: y2 :: y3 :: y4 :: '-' :: m1 :: m2 :: '-' :: d1 :: d2 :: rest => do
    let month ← two? m1 m2 1 12
    let year := valueOf 10 [y1, y2, y3, y4]
    let _ ← two? d1 d2 1 (monthDays year month)
    if [y1, y2, y3, y4].all Char.isDigit then some rest else none
  | _ => none

/-- The fraction of a second, answered with the text after it. -/
def secondFraction? : List Char → Option (List Char)
  | '.' :: rest =>
    if (rest.takeWhile Char.isDigit).isEmpty then none else some (rest.dropWhile Char.isDigit)
  | rest => some rest

/-- A time of day, answered with the text after it. -/
def time? : List Char → Option (List Char)
  | h1 :: h2 :: ':' :: m1 :: m2 :: ':' :: s1 :: s2 :: rest => do
    let _ ← two? h1 h2 0 23
    let _ ← two? m1 m2 0 59
    let _ ← two? s1 s2 0 60
    secondFraction? rest
  | h1 :: h2 :: ':' :: m1 :: m2 :: rest => do
    let _ ← two? h1 h2 0 23
    let _ ← two? m1 m2 0 59
    some rest
  | _ => none

/-- An offset from universal time. -/
def isOffset : List Char → Bool
  | ['Z'] | ['z'] => true
  | [sign, h1, h2, ':', m1, m2] =>
    (sign == '+' || sign == '-') && (two? h1 h2 0 23).isSome && (two? m1 m2 0 59).isSome
  | _ => false

/-- A date, a time, or a date and a time with or without an offset. -/
def isDate (written : List Char) : Bool :=
  match date? written with
  | some [] => true
  | some (separator :: rest) =>
    (separator == 'T' || separator == 't' || separator == ' ') &&
      match time? rest with
      | some rest => rest.isEmpty || isOffset rest
      | none => false
  | none => time? written == some []

/-- The value of an unquoted scalar. -/
def read? (written : List Char) : Option Value :=
  if written = "true".toList then some (.boolean true)
  else if written = "false".toList then some (.boolean false)
  else
    match integer? written with
    | some n => some (.integer n)
    | none =>
      if isFloat (splitSign written).2 then some (.float (String.ofList written))
      else if isDate written then some (.date (String.ofList written))
      else none

end TemplateInheritance.Toml.Scalar
