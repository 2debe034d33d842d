import TemplateInheritance.Number.Binary64
import TemplateInheritance.SortedMap

/-!
# Runtime values

The values that variables are bound to and expressions evaluate to. An integer and a double are
different numbers even where they are equal in size. The fields of an object stand in rising
name order, each name once; `Value.ofFields` brings any list of fields into that form.
-/

namespace TemplateInheritance

/-- A number is an integer or a finite double. -/
inductive Number where
  | integer (value : Int)
  | double (value : Binary64)
deriving DecidableEq

/-- Whether a number differs from zero. -/
def Number.isNonzero : Number → Bool
  | .integer value => value != 0
  | .double value => !value.isZero

/-- A value: null, a truth value, a number, a string, an array or an object. -/
inductive Value where
  | null
  | bool (value : Bool)
  | number (value : Number)
  | string (value : String)
  | array (items : List Value)
  | object (fields : List (String × Value))

namespace Value

instance : Inhabited Value := ⟨null⟩

mutual

/-- Structural equality of values. -/
def beq : Value → Value → Bool
  | null, null => true
  | bool a, bool b => a == b
  | number a, number b => a == b
  | string a, string b => a == b
  | array a, array b => beqItems a b
  | object a, object b => beqFields a b
  | _, _ => false
termination_by structural a => a

/-- Structural equality of lists of values. -/
def beqItems : List Value → List Value → Bool
  | [], [] => true
  | a :: as, b :: bs => beq a b && beqItems as bs
  | _, _ => false
termination_by structural as => as

/-- Structural equality of lists of fields. -/
def beqFields : List (String × Value) → List (String × Value) → Bool
  | [], [] => true
  | (name, a) :: as, (other, b) :: bs => name == other && beq a b && beqFields as bs
  | _, _ => false
termination_by structural as => as

end

mutual

private theorem beq_iff_eq (a b : Value) : beq a b = true ↔ a = b := by
  cases a <;> cases b <;> simp [beq, beqItems_iff_eq, beqFields_iff_eq]
termination_by structural a

private theorem beqItems_iff_eq (as bs : List Value) : beqItems as bs = true ↔ as = bs := by
  cases as <;> cases bs <;> simp [beqItems, beq_iff_eq, beqItems_iff_eq]
termination_by structural as

private theorem beqFields_iff_eq (as bs : List (String × Value)) :
    beqFields as bs = true ↔ as = bs := by
  match as, bs with
  | [], [] => simp [beqFields]
  | [], _ :: _ => simp [beqFields]
  | _ :: _, [] => simp [beqFields]
  | (name, a) :: as, (other, b) :: bs =>
    simp [beqFields, beq_iff_eq a b, beqFields_iff_eq as bs, and_assoc]
termination_by structural as

end

instance : DecidableEq Value := fun a b ↦ decidable_of_iff _ (beq_iff_eq a b)

/-- The name of the kind of a value, as error texts give it. -/
def kindName : Value → String
  | null => "null"
  | bool _ => "bool"
  | number _ => "number"
  | string _ => "string"
  | array _ => "array"
  | object _ => "object"

/-- Empty strings and collections, zeros, null and `false` count as false, all else as true. -/
def isTruthy : Value → Bool
  | null => false
  | bool value => value
  | number value => value.isNonzero
  | string value => !value.isEmpty
  | array items => !items.isEmpty
  | object fields => !fields.isEmpty

/-- The object with the listed fields; the last field of a name stays. -/
def ofFields (fields : List (String × Value)) : Value :=
  object (SortedMap.ofList fields).entries

/-- The field of that name in a list of fields. -/
def field? (name : String) (fields : List (String × Value)) : Option Value :=
  SortedMap.lookupEntry name fields

end Value

end TemplateInheritance
