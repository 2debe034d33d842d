import TemplateInheritance.Toml.Scalar
import TemplateInheritance.Toml.Text

/-!
# TOML documents

A document is a sequence of lines: key with value, header of a table, header of one more table of
an array. Line ends, comments and a comma after the last item are allowed in arrays and in inline
tables alike, there also on both sides of an equals sign. Each reader answers what it read together
with the text that is left.
-/

namespace TemplateInheritance.Toml

/-- Text without the blanks in front of it. -/
def skipBlanks (input : List Char) : List Char := input.dropWhile isBlank

/-- How deep arrays and inline tables may nest, and how many parts a key may have. -/
def nestingLimit : Nat := 80

/-- The parts of a key with dots between them. -/
def parts? : Nat → List Char → Option (List String × List Char)
  | 0, _ => none
  | fuel + 1, input => do
    let (name, rest) ← key? (skipBlanks input)
    match skipBlanks rest with
    | '.' :: rest => (parts? fuel rest).map fun (names, rest) ↦ (name :: names, rest)
    | rest => some ([name], rest)

/-- A key of one or more parts, within the limit. -/
def path? (fuel : Nat) (input : List Char) : Option (List String × List Char) :=
  (parts? fuel input).filter fun (names, _) ↦ names.length ≤ nestingLimit

/-- The characters that end an unquoted scalar; blanks may stand within it. -/
def delimiters : List Char := ['=', ',', '[', ']', '\x7b', '\x7d', '\r', '\n', '#']

/-- The text in front of the next delimiter. After a blank, a quotation mark is a delimiter too,
since a string begins there. -/
def untilDelimiter (afterBlank : Bool) : List Char → List Char
  | [] => []
  | c :: rest =>
    if delimiters.contains c || (afterBlank && (c == '"' || c == '\'')) then []
    else c :: untilDelimiter (isBlank c) rest

/-- The text of an unquoted scalar: all that is written up to a delimiter, without the blanks at
its end. -/
def scalarText (input : List Char) : List Char :=
  ((untilDelimiter false input).reverse.dropWhile isBlank).reverse

mutual

/-- A value in which arrays and inline tables nest at most `depth` deep. Each step spends one unit
of fuel; two units for each character suffice. -/
def value? : Nat → Nat → List Char → Option (Value × List Char)
  | 0, _, _ => none
  | fuel + 1, depth, input =>
    match string? input with
    | some read => read.map fun (s, rest) ↦ (.string s, rest)
    | none =>
      match depth, input with
      | depth + 1, '[' :: rest =>
        (items? fuel depth rest).map fun (items, rest) ↦ (.array items, rest)
      | depth + 1, '\x7b' :: rest =>
        (fields? fuel depth [] rest).map fun (fields, rest) ↦ (.table .inline fields, rest)
      | _, _ =>
        let written := scalarText input
        (Scalar.read? written).map fun value ↦ (value, input.drop written.length)

/-- The items of an array up to its closing bracket. -/
def items? : Nat → Nat → List Char → Option (List Value × List Char)
  | 0, _, _ => none
  | fuel + 1, depth, input => do
    match ← afterTrivia? false input with
    | ']' :: rest => some ([], rest)
    | input =>
      let (item, rest) ← value? fuel depth input
      match ← afterTrivia? false rest with
      | ',' :: rest => (items? fuel depth rest).map fun (items, rest) ↦ (item :: items, rest)
      | ']' :: rest => some ([item], rest)
      | _ => none

/-- The fields of an inline table up to its closing brace, added to those read before. -/
def fields? : Nat → Nat → Fields → List Char → Option (Fields × List Char)
  | 0, _, _, _ => none
  | fuel + 1, depth, fields, input => do
    match ← afterTrivia? false input with
    | '\x7d' :: rest => some (fields, rest)
    | input =>
      let (names, rest) ← path? fuel input
      match ← afterTrivia? false rest with
      | '=' :: rest =>
        let (value, rest) ← value? fuel depth (← afterTrivia? false rest)
        let fields ← fields.addAt? value names
        match ← afterTrivia? false rest with
        | ',' :: rest => fields? fuel depth fields rest
        | '\x7d' :: rest => some (fields, rest)
        | _ => none
      | _ => none

end

/-- The path of a header up to its closing bracket. -/
def headerPath? (fuel : Nat) (input : List Char) : Option (List String × String × List Char) := do
  match ← path? fuel input with
  | (names, ']' :: rest) => some (names.dropLast, names.getLast?.getD "", rest)
  | _ => none

/-- The lines of a document, added to the fields read before; `current` is the path of the last
header. -/
def lines? : Nat → List String → Fields → List Char → Option Fields
  | 0, _, _, _ => none
  | fuel + 1, current, fields, input => do
    match ← afterTrivia? false input with
    | [] => some fields
    | '[' :: '[' :: rest =>
      match ← headerPath? fuel rest with
      | (path, name, ']' :: rest) =>
        lines? fuel (path ++ [name]) (← fields.openElement? path name) (← afterLine? false rest)
      | _ => none
    | '[' :: rest =>
      let (path, name, rest) ← headerPath? fuel rest
      lines? fuel (path ++ [name]) (← fields.openTable? path name) (← afterLine? false rest)
    | input =>
      match ← path? fuel input with
      | (names, '=' :: rest) =>
        let (value, rest) ← value? fuel nestingLimit (skipBlanks rest)
        let fields ← fields.changeAt? (Fields.addAt? value names) current
        lines? fuel current fields (← afterLine? false rest)
      | _ => none

/-- The root table of a document. A byte order mark in front of it is skipped. -/
def document? (source : String) : Option Fields :=
  let input := match source.toList with
    | '\ufeff' :: rest => rest
    | input => input
  lines? (2 * input.length + 2) [] [] input

end TemplateInheritance.Toml
