import TemplateInheritance.Tree.Node

/-!
# Equality of trees

Trees are equal when they have the same nodes in the same order, locations and marks included.
-/

namespace TemplateInheritance

variable {Mark : Type} [DecidableEq Mark]

mutual

/-- Structural equality of nodes. -/
def Node.beq : Node Mark → Node Mark → Bool
  | .leaf a, .leaf b => decide (a = b)
  | .block mark name body, .block mark' name' body' =>
    decide (mark = mark') && name == name' && Nodes.beq body body'
  | .conditional condition body arms otherwise, .conditional condition' body' arms' otherwise' =>
    decide (condition = condition') && Nodes.beq body body' && Arms.beq arms arms' &&
      Nodes.beq otherwise otherwise'
  | .loop targets iterable body otherwise, .loop targets' iterable' body' otherwise' =>
    targets == targets' && decide (iterable = iterable') && Nodes.beq body body' &&
      Nodes.beq otherwise otherwise'
  | .group body, .group body' => Nodes.beq body body'
  | _, _ => false
termination_by structural a => a

/-- Structural equality of sequences of nodes. -/
def Nodes.beq : Nodes Mark → Nodes Mark → Bool
  | [], [] => true
  | a :: as, b :: bs => Node.beq a b && Nodes.beq as bs
  | _, _ => false
termination_by structural as => as

/-- Structural equality of arms. -/
def Arms.beq : Arms Mark → Arms Mark → Bool
  | [], [] => true
  | (condition, body) :: as, (condition', body') :: bs =>
    decide (condition = condition') && Nodes.beq body body' && Arms.beq as bs
  | _, _ => false
termination_by structural as => as

end

mutual

private theorem Node.beq_iff_eq (a b : Node Mark) : Node.beq a b = true ↔ a = b := by
  cases a <;> cases b <;>
    simp [Node.beq, Nodes.beq_iff_eq, Arms.beq_iff_eq, and_assoc]
termination_by structural a

private theorem Nodes.beq_iff_eq (as bs : Nodes Mark) : Nodes.beq as bs = true ↔ as = bs := by
  cases as <;> cases bs <;> simp [Nodes.beq, Node.beq_iff_eq, Nodes.beq_iff_eq]
termination_by structural as

private theorem Arms.beq_iff_eq (as bs : Arms Mark) : Arms.beq as bs = true ↔ as = bs := by
  match as, bs with
  | [], [] => simp [Arms.beq]
  | [], _ :: _ => simp [Arms.beq]
  | _ :: _, [] => simp [Arms.beq]
  | (condition, body) :: as, (condition', body') :: bs =>
    simp [Arms.beq, Nodes.beq_iff_eq body body', Arms.beq_iff_eq as bs, and_assoc]
termination_by structural as

end

instance : DecidableEq (Node Mark) := fun a b ↦ decidable_of_iff _ (Node.beq_iff_eq a b)

deriving instance DecidableEq for Template

end TemplateInheritance
