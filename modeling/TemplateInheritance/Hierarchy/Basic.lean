import TemplateInheritance.Block.Definition
import TemplateInheritance.Block.Search

/-!
# Inheritance hierarchies

A hierarchy is the requested template followed by its ancestors up to the root. The position of a
template is its level: the requested template has level zero.
-/

namespace TemplateInheritance

/-- The requested template and its ancestors, nearest first. -/
structure Hierarchy where
  leaf : Template
  ancestors : List Template
deriving DecidableEq

namespace Hierarchy

/-- All templates by level. -/
def templates (h : Hierarchy) : List Template := h.leaf :: h.ancestors

/-- The template at the top. -/
def root (h : Hierarchy) : Template := h.ancestors.getLast?.getD h.leaf

/-- How many templates there are. -/
def length (h : Hierarchy) : Nat := h.templates.length

/-- Whether the requested template has no parent. -/
def isSingle (h : Hierarchy) : Bool := h.ancestors.isEmpty

/-- Template names by level. -/
def names (h : Hierarchy) : List String := h.templates.map (·.name)

/-- Whether a template of that name is in the hierarchy. -/
def contains (h : Hierarchy) (name : String) : Bool := h.names.contains name

/-- Whether some parent was named by an expression that is not a literal, so that another context
may give another hierarchy. -/
def isDynamic (h : Hierarchy) : Bool := h.templates.any (·.hasDynamicExtends)

/-- The winning definition of every block, recorded from the requested template to the root. -/
def definitions (h : Hierarchy) : Definitions :=
  h.templates.zipIdx.foldl (fun map (t, level) ↦ map.recordTemplate t level) ∅

/-- The winning definition of a block name. -/
def block? (h : Hierarchy) (name : String) : Option BlockDefinition := h.definitions.get? name

/-- The levels whose template defines a block of that name, lowest first. The search starts at the
level of the winning definition. -/
def definers (h : Hierarchy) (name : String) : List Nat :=
  match h.block? name with
  | none => []
  | some winner =>
    ((h.templates.zipIdx.drop winner.depth).filter fun (t, _) ↦ t.defines name).map (·.2)

/-- The body that the template of a level gives a block. -/
def bodyAt (h : Hierarchy) (level : Nat) (name : String) : Nodes Unit :=
  ((h.templates[level]?).bind (·.findBlock? name)).getD []

end Hierarchy

end TemplateInheritance
