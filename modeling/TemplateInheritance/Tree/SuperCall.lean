import TemplateInheritance.Tree.Node

/-!
# Calls of `super()`

A call is an output of exactly `super()`. It belongs to the nearest block around it; conditionals,
loops and groups do not count. A call without a block around it is stray.
-/

namespace TemplateInheritance

variable {Mark : Type}

mutual

/-- Whether a call stands anywhere in the node. -/
def Node.hasSuperCall : Node Mark → Bool
  | .leaf leaf => leaf.isSuperCall
  | .block _ _ body => Nodes.hasSuperCall body
  | .conditional _ body arms otherwise =>
    Nodes.hasSuperCall body || Arms.hasSuperCall arms || Nodes.hasSuperCall otherwise
  | .loop _ _ body otherwise => Nodes.hasSuperCall body || Nodes.hasSuperCall otherwise
  | .group body => Nodes.hasSuperCall body
termination_by structural node => node

/-- Whether a call stands anywhere in the sequence. -/
def Nodes.hasSuperCall : Nodes Mark → Bool
  | [] => false
  | node :: rest => Node.hasSuperCall node || Nodes.hasSuperCall rest
termination_by structural nodes => nodes

/-- Whether a call stands anywhere in the arms. -/
def Arms.hasSuperCall : Arms Mark → Bool
  | [] => false
  | (_, body) :: rest => Nodes.hasSuperCall body || Arms.hasSuperCall rest
termination_by structural arms => arms

end

/-- The location of a call that is itself a leaf of the sequence; the outer option tells whether
the leaf is one. -/
def Leaf.superCall? : Leaf → Option (Option Location)
  | output expr location => if expr.isSuper then some location else none
  | _ => none

/-- The calls are the leaves that have the location of a call. -/
theorem Leaf.isSome_superCall? (leaf : Leaf) : leaf.superCall?.isSome = leaf.isSuperCall := by
  cases leaf with
  | output expr location => cases h : expr.isSuper <;> simp [isSuperCall, superCall?, h]
  | _ => rfl

mutual

/-- The location of the first stray call in the node, in document order. -/
def Node.strayCall? : Node Mark → Option (Option Location)
  | .leaf leaf => leaf.superCall?
  | .block .. => none
  | .conditional _ body arms otherwise =>
    ((Nodes.strayCall? body).or (Arms.strayCall? arms)).or (Nodes.strayCall? otherwise)
  | .loop _ _ body otherwise => (Nodes.strayCall? body).or (Nodes.strayCall? otherwise)
  | .group body => Nodes.strayCall? body
termination_by structural node => node

/-- The location of the first stray call in the sequence. -/
def Nodes.strayCall? : Nodes Mark → Option (Option Location)
  | [] => none
  | node :: rest => (Node.strayCall? node).or (Nodes.strayCall? rest)
termination_by structural nodes => nodes

/-- The location of the first stray call in the arms. -/
def Arms.strayCall? : Arms Mark → Option (Option Location)
  | [] => none
  | (_, body) :: rest => (Nodes.strayCall? body).or (Arms.strayCall? rest)
termination_by structural arms => arms

end

/-- Whether the template declares a parent or calls `super()` anywhere. -/
def Template.hasDirectives (t : Template) : Bool :=
  t.declaration?.isSome || Nodes.hasSuperCall t.nodes

end TemplateInheritance
