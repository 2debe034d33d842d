import TemplateInheritance.Block.Own
import TemplateInheritance.Hierarchy.Basic

/-!
# Placing blocks from the top down

The merged tree described without passes over a working tree. A block that comes from some level
is taken over by the lowest level that offers it as an own block, and stays where no lower level
does. The blocks inside the chosen body are placed in the same way, from the chosen level down.
-/

namespace TemplateInheritance

mutual

/-- Place the blocks of a node that comes from `level`. What `replacement?` answers for a name is
the level that takes the block over, with the placed body. -/
def Node.place (replacement? : String → Option (Nat × Nodes Nat)) (level : Nat) :
    Node Unit → Node Nat
  | .leaf leaf => .leaf leaf
  | .block _ name body =>
    match replacement? name with
    | some (lower, placed) => .block lower name placed
    | none => .block level name (Nodes.place replacement? level body)
  | .conditional condition body arms otherwise =>
    .conditional condition (Nodes.place replacement? level body)
      (Arms.place replacement? level arms) (Nodes.place replacement? level otherwise)
  | .loop targets iterable body otherwise =>
    .loop targets iterable (Nodes.place replacement? level body)
      (Nodes.place replacement? level otherwise)
  | .group body => .group (Nodes.place replacement? level body)
termination_by structural node => node

/-- Place the blocks of a sequence that comes from `level`. -/
def Nodes.place (replacement? : String → Option (Nat × Nodes Nat)) (level : Nat) :
    Nodes Unit → Nodes Nat
  | [] => []
  | node :: rest =>
    Node.place replacement? level node :: Nodes.place replacement? level rest
termination_by structural nodes => nodes

/-- Place the blocks of arms that come from `level`. -/
def Arms.place (replacement? : String → Option (Nat × Nodes Nat)) (level : Nat) :
    Arms Unit → Arms Nat
  | [] => []
  | (condition, body) :: rest =>
    (condition, Nodes.place replacement? level body) ::
      Arms.place replacement? level rest
termination_by structural arms => arms

end

namespace Hierarchy

/-- The own block of that name in the template of a level. -/
def ownBlock? (h : Hierarchy) (name : String) (level : Nat) : Option (Nodes Unit) :=
  (h.templates[level]?).bind fun t ↦ (Nodes.ownBlocks t.nodes).get? name

/-- The lowest level under `level` that has an own block of that name, with the block's body. -/
def takeover? (h : Hierarchy) (name : String) (level : Nat) : Option (Fin level × Nodes Unit) :=
  (List.finRange level).findSome? fun (lower : Fin level) ↦
    (h.ownBlock? name lower).map fun body ↦ (lower, body)

/-- The sequence that comes from `level` with its blocks placed. -/
def placed (h : Hierarchy) (level : Nat) (nodes : Nodes Unit) : Nodes Nat :=
  Nodes.place
    (fun name ↦ (h.takeover? name level).map fun (lower, body) ↦
      (lower.val, h.placed lower body))
    level nodes
termination_by level
decreasing_by exact lower.isLt

end Hierarchy

end TemplateInheritance
