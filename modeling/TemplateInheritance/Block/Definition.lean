import TemplateInheritance.SortedMap
import TemplateInheritance.Tree.Equality

/-!
# Winning definitions

Templates are recorded one after the other into one map, each with its distance from the
requested template. The first block recorded under a name keeps it: within a template an outer
block before the blocks inside it, and a template before those recorded later.
-/

namespace TemplateInheritance

/-- A block's body together with the template that defined it and that template's level. -/
structure BlockDefinition where
  origin : String
  depth : Nat
  body : Nodes Unit
deriving DecidableEq

/-- The winning definition of each block name. -/
abbrev Definitions := SortedMap BlockDefinition

/-- Record a block unless its name is taken. -/
def Definitions.record (name : String) (definition : BlockDefinition) (map : Definitions) :
    Definitions :=
  if map.contains name then map else map.insert name definition

mutual

/-- Record every block of the node. -/
def Node.recordBlocks (origin : String) (depth : Nat) : Node Unit → Definitions → Definitions
  | .leaf _, map => map
  | .block _ name body, map =>
    Nodes.recordBlocks origin depth body (map.record name ⟨origin, depth, body⟩)
  | .conditional _ body arms otherwise, map =>
    Nodes.recordBlocks origin depth otherwise
      (Arms.recordBlocks origin depth arms (Nodes.recordBlocks origin depth body map))
  | .loop _ _ body otherwise, map =>
    Nodes.recordBlocks origin depth otherwise (Nodes.recordBlocks origin depth body map)
  | .group body, map => Nodes.recordBlocks origin depth body map
termination_by structural node => node

/-- Record every block of the sequence, in document order. -/
def Nodes.recordBlocks (origin : String) (depth : Nat) : Nodes Unit → Definitions → Definitions
  | [], map => map
  | node :: rest, map =>
    Nodes.recordBlocks origin depth rest (Node.recordBlocks origin depth node map)
termination_by structural nodes => nodes

/-- Record every block of the arms, in document order. -/
def Arms.recordBlocks (origin : String) (depth : Nat) : Arms Unit → Definitions → Definitions
  | [], map => map
  | (_, body) :: rest, map =>
    Arms.recordBlocks origin depth rest (Nodes.recordBlocks origin depth body map)
termination_by structural arms => arms

end

/-- Record the blocks of a template that lies `depth` levels above the requested one. -/
def Definitions.recordTemplate (map : Definitions) (t : Template) (depth : Nat) : Definitions :=
  Nodes.recordBlocks t.name depth t.nodes map

/-- Record templates one after the other, each one level above the one before. -/
def Definitions.recordTemplates (ts : List Template) : Definitions :=
  ts.zipIdx.foldl (fun map (t, depth) ↦ map.recordTemplate t depth) ∅

end TemplateInheritance
