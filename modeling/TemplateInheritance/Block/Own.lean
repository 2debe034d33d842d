import TemplateInheritance.SortedMap
import TemplateInheritance.Tree.Node

/-!
# A template's own blocks

The blocks that a template offers as overrides are its outermost ones: those found through
conditionals, loops and groups, but not inside other blocks. Of two such blocks with one name the
later one counts.
-/

namespace TemplateInheritance

mutual

/-- Add the outermost blocks of the node. -/
def Node.collectOwn : Node Unit → SortedMap (Nodes Unit) → SortedMap (Nodes Unit)
  | .leaf _, own => own
  | .block _ name body, own => own.insert name body
  | .conditional _ body arms otherwise, own =>
    Nodes.collectOwn otherwise (Arms.collectOwn arms (Nodes.collectOwn body own))
  | .loop _ _ body otherwise, own => Nodes.collectOwn otherwise (Nodes.collectOwn body own)
  | .group body, own => Nodes.collectOwn body own
termination_by structural node => node

/-- Add the outermost blocks of the sequence, in document order. -/
def Nodes.collectOwn : Nodes Unit → SortedMap (Nodes Unit) → SortedMap (Nodes Unit)
  | [], own => own
  | node :: rest, own => Nodes.collectOwn rest (Node.collectOwn node own)
termination_by structural nodes => nodes

/-- Add the outermost blocks of the arms, in document order. -/
def Arms.collectOwn : Arms Unit → SortedMap (Nodes Unit) → SortedMap (Nodes Unit)
  | [], own => own
  | (_, body) :: rest, own => Arms.collectOwn rest (Nodes.collectOwn body own)
termination_by structural arms => arms

end

/-- The bodies of the outermost blocks of a sequence, by name. -/
def Nodes.ownBlocks (nodes : Nodes Unit) : SortedMap (Nodes Unit) :=
  Nodes.collectOwn nodes ∅

end TemplateInheritance
