import TemplateInheritance.SortedMap

/-!
# TOML values

A TOML document is a table. A table remembers how it came about, since that decides whether a
later line of the document may add to it.
-/

namespace TemplateInheritance.Toml

/-- How a table came about: written in braces, by a dotted key, by a header of its own, or only as
the parent of a table with a header. -/
inductive TableForm where
  | inline
  | dotted
  | header
  | implied
deriving DecidableEq

/-- A TOML value. An integer whose digits name no number has none. Floats and dates are kept as
written. An array is written in brackets or gathered from headers. -/
inductive Value where
  | string (value : String)
  | integer (value : Option Int)
  | float (written : String)
  | boolean (value : Bool)
  | date (written : String)
  | array (items : List Value)
  | tables (items : List (List (String × Value)))
  | table (form : TableForm) (fields : List (String × Value))

/-- The fields of a table, in the order in which they were written. -/
abbrev Fields := List (String × Value)

/-- The field of that name. -/
def Fields.get? (name : String) (fields : Fields) : Option Value :=
  SortedMap.lookupEntry name fields

/-- Put a value in the place of the field of that name. -/
def Fields.set (name : String) (value : Value) (fields : Fields) : Fields :=
  fields.map fun field ↦ if field.1 = name then (name, value) else field

/-- Add a field whose name is not taken. -/
def Fields.add? (name : String) (value : Value) (fields : Fields) : Option Fields :=
  if (Fields.get? name fields).isSome then none else some (fields ++ [(name, value)])

/-- Add a value under a dotted key. The tables on the way come about by dotted keys only. -/
def Fields.addAt? (value : Value) : List String → Fields → Option Fields
  | [], _ => none
  | [name], fields => fields.add? name value
  | name :: path, fields =>
    match fields.get? name with
    | none => do
      let inner ← Fields.addAt? value path []
      some (fields ++ [(name, .table .dotted inner)])
    | some (.table .dotted inner) => do
      let inner ← Fields.addAt? value path inner
      some (fields.set name (.table .dotted inner))
    | some _ => none

/-- Change the table that a header path leads to; an array of tables stands for its last one. -/
def Fields.changeAt? (change : Fields → Option Fields) : List String → Fields → Option Fields
  | [], fields => change fields
  | name :: path, fields =>
    match fields.get? name with
    | none => do
      let inner ← Fields.changeAt? change path []
      some (fields ++ [(name, .table .implied inner)])
    | some (.table .inline _) => none
    | some (.table form inner) => do
      let inner ← Fields.changeAt? change path inner
      some (fields.set name (.table form inner))
    | some (.tables items) => do
      let inner ← Fields.changeAt? change path (items.getLast?.getD [])
      some (fields.set name (.tables (items.dropLast ++ [inner])))
    | some _ => none

/-- Open the table of a header: a new one, or one that was only implied so far. -/
def Fields.openTable? (path : List String) (name : String) (fields : Fields) : Option Fields :=
  fields.changeAt? (fun parent ↦
    match parent.get? name with
    | none => some (parent ++ [(name, .table .header [])])
    | some (.table .implied inner) => some (parent.set name (.table .header inner))
    | some _ => none) path

/-- Open one more table of an array of tables. -/
def Fields.openElement? (path : List String) (name : String) (fields : Fields) :
    Option Fields :=
  fields.changeAt? (fun parent ↦
    match parent.get? name with
    | none => some (parent ++ [(name, .tables [[]])])
    | some (.tables items) => some (parent.set name (.tables (items ++ [[]])))
    | some _ => none) path

end TemplateInheritance.Toml
