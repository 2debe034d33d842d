import TemplateInheritance.Number.Decimal
import TemplateInheritance.Value.Basic

/-!
# Canonical text of values

The compact JSON text of a value: no blanks, fields in name order, every character outside the
few that JSON must escape written as it is. Error texts, cache digests and rendered expressions
all use this one form.
-/

namespace TemplateInheritance

/-- A lower-case hexadecimal digit. -/
def hexDigit (n : Nat) : Char :=
  Nat.digitChar (n % 16)

/-- A character inside quotes: quote, backslash and the control characters below U+0020 are
escaped, with short forms where JSON has them. -/
def escapeChar (c : Char) : List Char :=
  if c = '"' then ['\\', '"']
  else if c = '\\' then ['\\', '\\']
  else if c = '\x08' then ['\\', 'b']
  else if c = '\x0c' then ['\\', 'f']
  else if c = '\n' then ['\\', 'n']
  else if c = '\r' then ['\\', 'r']
  else if c = '\t' then ['\\', 't']
  else if c.toNat < 32 then ['\\', 'u', '0', '0', hexDigit (c.toNat / 16), hexDigit c.toNat]
  else [c]

/-- A string between quotes. -/
def quoted (s : String) : String :=
  String.ofList ('"' :: s.toList.flatMap escapeChar ++ ['"'])

/-- The text of a number: an integer in decimal, a double in its shortest form. -/
def Number.text : Number → String
  | .integer value => toString value
  | .double value => value.text

namespace Value

mutual

/-- The compact JSON text of a value, with its numbers as `print` writes them. -/
def textWith (print : Number → String) : Value → String
  | null => "null"
  | bool value => if value then "true" else "false"
  | number value => print value
  | string value => quoted value
  | array items => "[" ++ String.intercalate "," (itemTexts print items) ++ "]"
  | object fields => "\x7b" ++ String.intercalate "," (fieldTexts print fields) ++ "\x7d"
termination_by structural v => v

/-- The texts of the items of an array. -/
def itemTexts (print : Number → String) : List Value → List String
  | [] => []
  | item :: rest => textWith print item :: itemTexts print rest
termination_by structural items => items

/-- The texts of the fields of an object. -/
def fieldTexts (print : Number → String) : List (String × Value) → List String
  | [] => []
  | (name, value) :: rest =>
    (quoted name ++ ":" ++ textWith print value) :: fieldTexts print rest
termination_by structural fields => fields

end

/-- The canonical text of a value. -/
def text : Value → String := textWith Number.text

end Value

end TemplateInheritance
