import TemplateInheritance.Value.Basic

/-!
# Reading values

Values are read from JSON text. A number without fraction and exponent in the range of 64-bit
integers, signed or not, is an integer; every other number is the nearest double, and a text
whose number is too large for one is refused. Each reading step answers what it read together
with the text that is left.
-/

namespace TemplateInheritance

namespace Value.Reader

/-- Text without the blanks in front of it. -/
def skipBlanks (input : List Char) : List Char :=
  input.dropWhile fun c ↦ c == ' ' || c == '\n' || c == '\r' || c == '\t'

/-- The value of a hexadecimal digit. -/
def hexValue? (c : Char) : Option Nat :=
  if '0' ≤ c ∧ c ≤ '9' then some (c.toNat - 48)
  else if 'a' ≤ c ∧ c ≤ 'f' then some (c.toNat - 87)
  else if 'A' ≤ c ∧ c ≤ 'F' then some (c.toNat - 55)
  else none

/-- The code unit that four hexadecimal digits name. -/
def unit? : List Char → Option (Nat × List Char)
  | a :: b :: c :: d :: rest => do
    let a ← hexValue? a
    let b ← hexValue? b
    let c ← hexValue? c
    let d ← hexValue? d
    some (((a * 16 + b) * 16 + c) * 16 + d, rest)
  | _ => none

/-- The character of a `\u` escape; a character beyond the first plane takes two code units. -/
def escapedUnit? (input : List Char) : Option (Char × List Char) := do
  let (first, rest) ← unit? input
  if 0xD800 ≤ first ∧ first < 0xDC00 then
    match rest with
    | '\\' :: 'u' :: rest =>
      let (second, rest) ← unit? rest
      if 0xDC00 ≤ second ∧ second < 0xE000 then
        some (Char.ofNat (0x10000 + (first - 0xD800) * 0x400 + (second - 0xDC00)), rest)
      else none
    | _ => none
  else if 0xDC00 ≤ first ∧ first < 0xE000 then none
  else some (Char.ofNat first, rest)

/-- The character of an escape, after its backslash. -/
def escaped? : List Char → Option (Char × List Char)
  | '"' :: rest => some ('"', rest)
  | '\\' :: rest => some ('\\', rest)
  | '/' :: rest => some ('/', rest)
  | 'b' :: rest => some ('\x08', rest)
  | 'f' :: rest => some ('\x0c', rest)
  | 'n' :: rest => some ('\n', rest)
  | 'r' :: rest => some ('\r', rest)
  | 't' :: rest => some ('\t', rest)
  | 'u' :: rest => escapedUnit? rest
  | _ => none

/-- The rest of a string, after its opening quote; `read` holds its characters in reverse. -/
def string? : Nat → List Char → List Char → Option (String × List Char)
  | 0, _, _ => none
  | _ + 1, read, '"' :: rest => some (String.ofList read.reverse, rest)
  | fuel + 1, read, '\\' :: rest => do
    let (c, rest) ← escaped? rest
    string? fuel (c :: read) rest
  | fuel + 1, read, c :: rest => if c.toNat < 32 then none else string? fuel (c :: read) rest
  | _ + 1, _, [] => none

/-- The number that decimal digits name. -/
def digitsValue (digits : List Char) : Nat :=
  digits.foldl (fun value c ↦ value * 10 + (c.toNat - 48)) 0

/-- An exponent, after its letter: an optional sign and at least one digit. -/
def exponent? (input : List Char) : Option (Int × List Char) :=
  let (negative, input) : Bool × List Char := match input with
    | '-' :: rest => (true, rest)
    | '+' :: rest => (false, rest)
    | _ => (false, input)
  let digits := input.takeWhile Char.isDigit
  if digits.isEmpty then none
  else
    let size : Int := digitsValue digits
    some (if negative then -size else size, input.drop digits.length)

/-- A number. Its whole part has no leading zero; its fraction and its exponent are optional. -/
def number? (input : List Char) : Option (Number × List Char) := do
  let (negative, input) : Bool × List Char := match input with
    | '-' :: rest => (true, rest)
    | _ => (false, input)
  let whole := input.takeWhile Char.isDigit
  let rest := input.drop whole.length
  if whole.isEmpty || (whole.length > 1 && whole.head? == some '0') then none
  let (fraction, rest) ← match rest with
    | '.' :: rest =>
      let fraction := rest.takeWhile Char.isDigit
      if fraction.isEmpty then none else some (fraction, rest.drop fraction.length)
    | _ => some ([], rest)
  let (exponent, rest) ← match rest with
    | 'e' :: rest | 'E' :: rest => (exponent? rest).map fun (e, rest) ↦ (some e, rest)
    | _ => some (none, rest)
  let size := digitsValue whole
  let double := do
    let d ← Binary64.ofDecimal? negative (digitsValue (whole ++ fraction))
      (exponent.getD 0 - fraction.length)
    some (.double d, rest)
  if fraction.isEmpty && exponent.isNone then
    if !negative && size < UInt64.size then some (.integer size, rest)
    else if negative && 0 < size && size ≤ UInt64.size / 2 then some (.integer (-size), rest)
    else double
  else double

mutual

/-- A value. Each step spends one unit of fuel; two units for each character of the text suffice. -/
def value? : Nat → List Char → Option (Value × List Char)
  | 0, _ => none
  | fuel + 1, input =>
    match skipBlanks input with
    | 'n' :: 'u' :: 'l' :: 'l' :: rest => some (.null, rest)
    | 't' :: 'r' :: 'u' :: 'e' :: rest => some (.bool true, rest)
    | 'f' :: 'a' :: 'l' :: 's' :: 'e' :: rest => some (.bool false, rest)
    | '"' :: rest => (string? fuel [] rest).map fun (s, rest) ↦ (.string s, rest)
    | '[' :: rest =>
      match skipBlanks rest with
      | ']' :: rest => some (.array [], rest)
      | rest => (items? fuel rest).map fun (items, rest) ↦ (.array items, rest)
    | '\x7b' :: rest =>
      match skipBlanks rest with
      | '\x7d' :: rest => some (.object [], rest)
      | rest => (fields? fuel rest).map fun (fields, rest) ↦ (.ofFields fields, rest)
    | rest => (number? rest).map fun (n, rest) ↦ (.number n, rest)

/-- The items of an array up to its closing bracket. -/
def items? : Nat → List Char → Option (List Value × List Char)
  | 0, _ => none
  | fuel + 1, input => do
    let (item, rest) ← value? fuel input
    match skipBlanks rest with
    | ',' :: rest => (items? fuel rest).map fun (items, rest) ↦ (item :: items, rest)
    | ']' :: rest => some ([item], rest)
    | _ => none

/-- The fields of an object up to its closing brace. -/
def fields? : Nat → List Char → Option (List (String × Value) × List Char)
  | 0, _ => none
  | fuel + 1, input =>
    match skipBlanks input with
    | '"' :: rest => do
      let (name, rest) ← string? fuel [] rest
      match skipBlanks rest with
      | ':' :: rest => do
        let (value, rest) ← value? fuel rest
        match skipBlanks rest with
        | ',' :: rest =>
          (fields? fuel rest).map fun (fields, rest) ↦ ((name, value) :: fields, rest)
        | '\x7d' :: rest => some ([(name, value)], rest)
        | _ => none
      | _ => none
    | _ => none

end

end Value.Reader

/-- The value that a JSON text stands for, if it is one. -/
def Value.parse? (source : String) : Option Value := do
  let input := source.toList
  let (value, rest) ← Value.Reader.value? (2 * input.length + 2) input
  if (Value.Reader.skipBlanks rest).isEmpty then some value else none

end TemplateInheritance
