import TemplateInheritance.Block.Own
import TemplateInheritance.Hierarchy.Basic
import TemplateInheritance.Merge.Mark

/-!
# Merging a hierarchy

The root's tree is the frame. Each level below it, the parent before its child, lays its own
blocks over the tree: a block whose name the level owns is replaced whole, and the walk goes on
inside the other blocks only. Beside the tree stand the origins of its blocks, brought up to date
in the same walk. Imports at the top level of the other templates move into the merged tree, those
of the requested template first.
-/

namespace TemplateInheritance

mutual

/-- The origins of the outermost blocks of a node that comes whole from `level`. -/
def Node.originsFrom (level : Nat) : Node Unit → List Origin
  | .leaf _ => []
  | .block _ _ body => [.mk level (Nodes.originsFrom level body)]
  | .conditional _ body arms otherwise =>
    Nodes.originsFrom level body ++ Arms.originsFrom level arms ++
      Nodes.originsFrom level otherwise
  | .loop _ _ body otherwise =>
    Nodes.originsFrom level body ++ Nodes.originsFrom level otherwise
  | .group body => Nodes.originsFrom level body
termination_by structural node => node

/-- The origins of the outermost blocks of a sequence that comes whole from `level`. -/
def Nodes.originsFrom (level : Nat) : Nodes Unit → List Origin
  | [] => []
  | node :: rest => Node.originsFrom level node ++ Nodes.originsFrom level rest
termination_by structural nodes => nodes

/-- The origins of the outermost blocks of arms that come whole from `level`. -/
def Arms.originsFrom (level : Nat) : Arms Unit → List Origin
  | [] => []
  | (_, body) :: rest => Nodes.originsFrom level body ++ Arms.originsFrom level rest
termination_by structural arms => arms

end

mutual

/-- Lay the own blocks of a level over the node. The origins list the outermost blocks of the body
that the node stands in, and the cursor points at the origin of the next one. A block without an
origin is treated like any other and leaves the origins alone. -/
def Node.overlay (own : SortedMap (Nodes Unit)) (level : Nat) :
    Node Unit → List Origin → Nat → Node Unit × List Origin × Nat
  | .leaf leaf, origins, cursor => (.leaf leaf, origins, cursor)
  | .block _ name body, origins, cursor =>
    match own.get? name with
    | some replacement =>
      (.block () name replacement,
        origins.set cursor (.mk level (Nodes.originsFrom level replacement)), cursor + 1)
    | none =>
      match origins[cursor]? with
      | some origin =>
        let (body, nested, _) := Nodes.overlay own level body origin.nested 0
        (.block () name body, origins.set cursor (.mk origin.level nested), cursor + 1)
      | none => (.block () name (Nodes.overlay own level body [] 0).1, origins, cursor + 1)
  | .conditional condition body arms otherwise, origins, cursor =>
    let (body, origins, cursor) := Nodes.overlay own level body origins cursor
    let (arms, origins, cursor) := Arms.overlay own level arms origins cursor
    let (otherwise, origins, cursor) := Nodes.overlay own level otherwise origins cursor
    (.conditional condition body arms otherwise, origins, cursor)
  | .loop targets iterable body otherwise, origins, cursor =>
    let (body, origins, cursor) := Nodes.overlay own level body origins cursor
    let (otherwise, origins, cursor) := Nodes.overlay own level otherwise origins cursor
    (.loop targets iterable body otherwise, origins, cursor)
  | .group body, origins, cursor =>
    let (body, origins, cursor) := Nodes.overlay own level body origins cursor
    (.group body, origins, cursor)
termination_by structural node => node

/-- Lay the own blocks of a level over the sequence. -/
def Nodes.overlay (own : SortedMap (Nodes Unit)) (level : Nat) :
    Nodes Unit → List Origin → Nat → Nodes Unit × List Origin × Nat
  | [], origins, cursor => ([], origins, cursor)
  | node :: rest, origins, cursor =>
    let (node, origins, cursor) := Node.overlay own level node origins cursor
    let (rest, origins, cursor) := Nodes.overlay own level rest origins cursor
    (node :: rest, origins, cursor)
termination_by structural nodes => nodes

/-- Lay the own blocks of a level over the arms. -/
def Arms.overlay (own : SortedMap (Nodes Unit)) (level : Nat) :
    Arms Unit → List Origin → Nat → Arms Unit × List Origin × Nat
  | [], origins, cursor => ([], origins, cursor)
  | (condition, body) :: rest, origins, cursor =>
    let (body, origins, cursor) := Nodes.overlay own level body origins cursor
    let (rest, origins, cursor) := Arms.overlay own level rest origins cursor
    ((condition, body) :: rest, origins, cursor)
termination_by structural arms => arms

end

/-- The merged tree of a template at some level and its ancestors, with the origins of its blocks:
that of the ancestors with the template's own blocks laid over it. A level without own blocks
leaves it as it is. -/
def layered (level : Nat) (t : Template) : List Template → Nodes Unit × List Origin
  | [] => (t.nodes, Nodes.originsFrom level t.nodes)
  | parent :: ancestors =>
    let (nodes, origins) := layered (level + 1) parent ancestors
    let own := Nodes.ownBlocks t.nodes
    if own.entries.isEmpty then (nodes, origins)
    else
      let (nodes, origins, _) := Nodes.overlay own level nodes origins 0
      (nodes, origins)

/-- Put imports in front of a tree, behind an `extends` that the tree begins with. -/
def hoist {Mark : Type} (imports : Nodes Mark) : Nodes Mark → Nodes Mark
  | [] => imports
  | first :: rest =>
    if first.isExtends then first :: (imports ++ rest) else imports ++ first :: rest

namespace Hierarchy

/-- The imports at the top level of all templates but the root, the requested template's first. -/
def imports (h : Hierarchy) : Nodes Unit :=
  h.templates.dropLast.flatMap fun t ↦ t.nodes.filter Node.isImport

/-- The merged tree as a template under the requested name, and where its blocks were taken from.
Calls of `super()` stay where they are. Imports hold no blocks, so that the origins of the layered
tree are those of the merged one. -/
def mergeTraced (h : Hierarchy) : Template × List Origin :=
  let (nodes, origins) := layered 0 h.leaf h.ancestors
  (⟨h.leaf.name, hoist h.imports nodes⟩, origins)

/-- The merged tree as a template under the requested name. -/
def mergedTemplate (h : Hierarchy) : Template := h.mergeTraced.1

/-- Where the blocks of the merged tree were taken from. -/
def mergedOrigins (h : Hierarchy) : List Origin := h.mergeTraced.2

/-- The merged tree, its blocks marked with the levels they were taken from. -/
def merged (h : Hierarchy) : Nodes Nat :=
  (Nodes.withOrigins h.mergedTemplate.nodes h.mergedOrigins).1

end Hierarchy

end TemplateInheritance
