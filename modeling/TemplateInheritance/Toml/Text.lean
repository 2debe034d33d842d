/-!
# Blanks, comments and strings of TOML

The parts of a document that are read character by character. Each reader answers what it read
together with the text that is left.
-/

namespace TemplateInheritance.Toml

/-- A blank within a line. -/
def isBlank (c : Char) : Bool := c == ' ' || c == '\t'

/-- A character that may stand in a comment or in a quoted text: no control character but the
tabulator. -/
def isPlain (c : Char) : Bool := c == '\t' || (32 ≤ c.toNat && c.toNat != 127)

/-- The text after any blanks, line ends and comments. -/
def afterTrivia? (inComment : Bool) : List Char → Option (List Char)
  | [] => some []
  | '\n' :: rest => afterTrivia? false rest
  | '\r' :: '\n' :: rest => afterTrivia? false rest
  | c :: rest =>
    if inComment then if isPlain c then afterTrivia? true rest else none
    else if isBlank c then afterTrivia? false rest
    else if c = '#' then afterTrivia? true rest
    else some (c :: rest)

/-- The text after the end of the line, where nothing but blanks and a comment stand before it. -/
def afterLine? (inComment : Bool) : List Char → Option (List Char)
  | [] => some []
  | '\n' :: rest => some rest
  | '\r' :: '\n' :: rest => some rest
  | c :: rest =>
    if inComment then if isPlain c then afterLine? true rest else none
    else if isBlank c then afterLine? false rest
    else if c = '#' then afterLine? true rest
    else none

/-- The value of a hexadecimal digit. -/
def hexDigit? (c : Char) : Option Nat :=
  if '0' ≤ c ∧ c ≤ '9' then some (c.toNat - 48)
  else if 'a' ≤ c ∧ c ≤ 'f' then some (c.toNat - 87)
  else if 'A' ≤ c ∧ c ≤ 'F' then some (c.toNat - 55)
  else none

/-- The character whose code point hexadecimal digits name. -/
def scalar? (digits : List Char) : Option Char := do
  let code ← digits.foldlM (fun value c ↦ (hexDigit? c).map (value * 16 + ·)) 0
  if code < 0xD800 ∨ (0xE000 ≤ code ∧ code < 0x110000) then some (Char.ofNat code) else none

/-- The character of a one-letter escape. -/
def letterEscape? (c : Char) : Option Char :=
  match c with
  | 'b' => some '\x08'
  | 't' => some '\t'
  | 'n' => some '\n'
  | 'f' => some '\x0c'
  | 'r' => some '\r'
  | 'e' => some '\x1b'
  | '"' => some '"'
  | '\\' => some '\\'
  | _ => none

/-- A character put in front of the string that the rest of a text reads as. -/
def prepend (c : Option Char) (read : Option (List Char × List Char)) :
    Option (List Char × List Char) := do
  let c ← c
  let (s, rest) ← read
  some (c :: s, rest)

/-- Whether a line ends after the backslash at hand: nothing but blanks stand before its end. -/
def endsLine : List Char → Bool
  | '\n' :: _ => true
  | '\r' :: '\n' :: _ => true
  | c :: rest => isBlank c && endsLine rest
  | [] => false

/-- The rest of a basic string, after its opening quotation mark. -/
def basicString? : List Char → Option (List Char × List Char)
  | '"' :: rest => some ([], rest)
  | '\\' :: 'x' :: a :: b :: rest => prepend (scalar? [a, b]) (basicString? rest)
  | '\\' :: 'u' :: a :: b :: c :: d :: rest =>
    prepend (scalar? [a, b, c, d]) (basicString? rest)
  | '\\' :: 'U' :: a :: b :: c :: d :: e :: f :: g :: h :: rest =>
    prepend (scalar? [a, b, c, d, e, f, g, h]) (basicString? rest)
  | '\\' :: c :: rest => prepend (letterEscape? c) (basicString? rest)
  | c :: rest => if isPlain c then prepend (some c) (basicString? rest) else none
  | [] => none

/-- The rest of a literal string, after its opening apostrophe. -/
def literalString? : List Char → Option (List Char × List Char)
  | '\'' :: rest => some ([], rest)
  | c :: rest => if isPlain c then prepend (some c) (literalString? rest) else none
  | [] => none

/-- The rest of a basic string of several lines, after its opening marks. A backslash at the end
of a line swallows the blanks and line ends that follow (`swallowing`). -/
def basicLines? (swallowing : Bool) : List Char → Option (List Char × List Char)
  | '"' :: '"' :: '"' :: '"' :: '"' :: rest => some (['"', '"'], rest)
  | '"' :: '"' :: '"' :: '"' :: rest => some (['"'], rest)
  | '"' :: '"' :: '"' :: rest => some ([], rest)
  | '\n' :: rest =>
    if swallowing then basicLines? true rest else prepend (some '\n') (basicLines? false rest)
  | '\r' :: '\n' :: rest =>
    if swallowing then basicLines? true rest else prepend (some '\n') (basicLines? false rest)
  | '\\' :: 'x' :: a :: b :: rest => prepend (scalar? [a, b]) (basicLines? false rest)
  | '\\' :: 'u' :: a :: b :: c :: d :: rest =>
    prepend (scalar? [a, b, c, d]) (basicLines? false rest)
  | '\\' :: 'U' :: a :: b :: c :: d :: e :: f :: g :: h :: rest =>
    prepend (scalar? [a, b, c, d, e, f, g, h]) (basicLines? false rest)
  | '\\' :: c :: rest =>
    if endsLine (c :: rest) then basicLines? true (c :: rest)
    else prepend (letterEscape? c) (basicLines? false rest)
  | c :: rest =>
    if swallowing && isBlank c then basicLines? true rest
    else if isPlain c then prepend (some c) (basicLines? false rest)
    else none
  | [] => none

/-- The rest of a literal string of several lines, after its opening marks. -/
def literalLines? : List Char → Option (List Char × List Char)
  | '\'' :: '\'' :: '\'' :: '\'' :: '\'' :: rest => some (['\'', '\''], rest)
  | '\'' :: '\'' :: '\'' :: '\'' :: rest => some (['\''], rest)
  | '\'' :: '\'' :: '\'' :: rest => some ([], rest)
  | '\n' :: rest => prepend (some '\n') (literalLines? rest)
  | '\r' :: '\n' :: rest => prepend (some '\n') (literalLines? rest)
  | c :: rest => if isPlain c then prepend (some c) (literalLines? rest) else none
  | [] => none

/-- A line end right after the opening marks of a string does not belong to it. -/
def dropLineEnd : List Char → List Char
  | '\n' :: rest => rest
  | '\r' :: '\n' :: rest => rest
  | rest => rest

/-- A quoted string of any form; `none` inside tells that no string begins here. -/
def string? : List Char → Option (Option (String × List Char))
  | '"' :: '"' :: '"' :: rest =>
    some ((basicLines? false (dropLineEnd rest)).map fun (s, rest) ↦ (String.ofList s, rest))
  | '\'' :: '\'' :: '\'' :: rest =>
    some ((literalLines? (dropLineEnd rest)).map fun (s, rest) ↦ (String.ofList s, rest))
  | '"' :: rest => some ((basicString? rest).map fun (s, rest) ↦ (String.ofList s, rest))
  | '\'' :: rest => some ((literalString? rest).map fun (s, rest) ↦ (String.ofList s, rest))
  | _ => none

/-- A character of a bare key. -/
def isBareKey (c : Char) : Bool := c.isAlphanum || c == '_' || c == '-'

/-- One part of a key. -/
def key? : List Char → Option (String × List Char)
  | '"' :: rest => (basicString? rest).map fun (s, rest) ↦ (String.ofList s, rest)
  | '\'' :: rest => (literalString? rest).map fun (s, rest) ↦ (String.ofList s, rest)
  | input =>
    let bare := input.takeWhile isBareKey
    if bare.isEmpty then none else some (String.ofList bare, input.drop bare.length)

end TemplateInheritance.Toml
