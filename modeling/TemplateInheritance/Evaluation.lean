import TemplateInheritance.Context.Basic
import TemplateInheritance.Tree.Expr

/-!
# Evaluating expressions

Inheritance evaluates nothing but the targets of `extends`. It takes any evaluator; the one given
here covers every expression form of this library.
-/

namespace TemplateInheritance

/-- Why an expression has no value. An evaluator may fail for reasons of its own, told in any
words. -/
inductive EvalError where
  | fieldOf (fieldName kind : String)
  | superCall
  | refused (reason : String) (expr : Expr)
  | other (message : String)
deriving DecidableEq

/-- The message of an evaluation error. -/
def EvalError.message : EvalError → String
  | fieldOf fieldName kind => "cannot read attribute '" ++ fieldName ++ "' of " ++ kind ++ " value"
  | superCall => "super() cannot be evaluated as a value"
  | refused reason expr => reason ++ " in '" ++ expr.text ++ "'"
  | other message => message

/-- An evaluator gives an expression its value in a context. -/
abbrev Evaluator := Expr → Context → Except EvalError Value

/-- The value of a field. A missing field and every field of null are null; other values than
objects have no fields. -/
def Value.readField (object : Value) (fieldName : String) : Except EvalError Value :=
  match object with
  | .object fields => .ok ((Value.field? fieldName fields).getD .null)
  | .null => .ok .null
  | other => .error (.fieldOf fieldName other.kindName)

namespace Expr

/-- The value of an expression. An unbound variable is null, and only the branch that a
conditional takes is evaluated. -/
def eval : Expr → Context → Except EvalError Value
  | literal value, _ => .ok value
  | var name, context => .ok ((context.get? name).getD .null)
  | field object fieldName, context => do (← object.eval context).readField fieldName
  | conditional condition thenValue otherwise, context => do
    if (← condition.eval context).isTruthy then thenValue.eval context else otherwise.eval context
  | super, _ => .error .superCall

end Expr

namespace Evaluator

/-- Evaluates against the bindings of the context. -/
def standard : Evaluator := Expr.eval

/-- Gives every expression the same value. -/
def fixed (value : Value) : Evaluator := fun _ _ ↦ .ok value

/-- Refuses every expression for the same reason. -/
def failing (reason : String) : Evaluator := fun expr _ ↦ .error (.refused reason expr)

/-- The context has no say in what a literal gives. -/
def LiteralStable (evaluate : Evaluator) : Prop :=
  ∀ value context context', evaluate (.literal value) context = evaluate (.literal value) context'

theorem literalStable_standard : standard.LiteralStable := fun _ _ _ ↦ rfl

theorem literalStable_fixed (value : Value) : (fixed value).LiteralStable := fun _ _ _ ↦ rfl

theorem literalStable_failing (reason : String) : (failing reason).LiteralStable := fun _ _ _ ↦ rfl

end Evaluator

end TemplateInheritance
