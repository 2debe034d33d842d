import TemplateInheritance.Tree.Node

/-!
# Finding a block

Blocks stand in sequences, in other blocks, in the branches of conditionals and loops and in
groups. A search answers the body of the first block of a name in document order, where a block
comes before the blocks inside it.
-/

namespace TemplateInheritance

variable {Mark : Type}

mutual

/-- The body of the first block of that name in the node. -/
def Node.findBlock? (name : String) : Node Mark → Option (Nodes Mark)
  | .leaf _ => none
  | .block _ other body => if other = name then some body else Nodes.findBlock? name body
  | .conditional _ body arms otherwise =>
    ((Nodes.findBlock? name body).or (Arms.findBlock? name arms)).or
      (Nodes.findBlock? name otherwise)
  | .loop _ _ body otherwise => (Nodes.findBlock? name body).or (Nodes.findBlock? name otherwise)
  | .group body => Nodes.findBlock? name body
termination_by structural node => node

/-- The body of the first block of that name in the sequence. -/
def Nodes.findBlock? (name : String) : Nodes Mark → Option (Nodes Mark)
  | [] => none
  | node :: rest => (Node.findBlock? name node).or (Nodes.findBlock? name rest)
termination_by structural nodes => nodes

/-- The body of the first block of that name in the arms. -/
def Arms.findBlock? (name : String) : Arms Mark → Option (Nodes Mark)
  | [] => none
  | (_, body) :: rest => (Nodes.findBlock? name body).or (Arms.findBlock? name rest)
termination_by structural arms => arms

end

/-- The body of the first block of that name in the template. -/
def Template.findBlock? (t : Template) (name : String) : Option (Nodes Unit) :=
  Nodes.findBlock? name t.nodes

/-- Whether the template has a block of that name, at any depth. -/
def Template.defines (t : Template) (name : String) : Bool :=
  (t.findBlock? name).isSome

end TemplateInheritance
