import TemplateInheritance.Value.Text

/-!
# Expressions

The expressions that inheritance looks at: literals, variables, fields of values, inline
conditionals and calls of `super()`. All other expression forms belong to the renderer.
-/

namespace TemplateInheritance

/-- An expression of an output, a condition, an `extends` target or an assignment. -/
inductive Expr where
  | literal (value : Value)
  | var (name : String)
  | field (object : Expr) (fieldName : String)
  | conditional (condition thenValue otherwise : Expr)
  | super
deriving DecidableEq

namespace Expr

/-- The expression as a template writes it. -/
def text : Expr → String
  | literal value => value.text
  | var name => name
  | field object fieldName => object.text ++ "." ++ fieldName
  | conditional condition thenValue otherwise =>
    thenValue.text ++ " if " ++ condition.text ++ " else " ++ otherwise.text
  | super => "super()"

/-- The string that a string literal holds. -/
def literalString? : Expr → Option String
  | literal (.string s) => some s
  | _ => none

/-- Only a literal has the same value in every context. -/
def isDynamic : Expr → Bool
  | literal _ => false
  | _ => true

/-- Whether the expression is itself a call of `super()`. -/
def isSuper : Expr → Bool
  | super => true
  | _ => false

/-- Whether a call of `super()` stands anywhere in the expression. -/
def containsSuper : Expr → Bool
  | literal _ | var _ => false
  | field object _ => object.containsSuper
  | conditional condition thenValue otherwise =>
    condition.containsSuper || thenValue.containsSuper || otherwise.containsSuper
  | super => true

end Expr

end TemplateInheritance
