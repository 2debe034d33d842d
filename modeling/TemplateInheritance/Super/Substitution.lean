import TemplateInheritance.Error.Basic
import TemplateInheritance.Tree.SuperCall
import TemplateInheritance.Merge.Overlay

/-!
# Substituting calls of `super()`

A call in a block taken from some level becomes the body that the nearest level above gives the
block, its own calls substituted in turn from there. Results are remembered under the block's name
and the count of lower levels that define it; calls that found nothing above are not. The memory
outlives a tree whose substitution failed.
-/

namespace TemplateInheritance

section Fill

variable {Mark : Type} {m : Type → Type} [Monad m] [MonadExceptOf ResolveError m]

/-- What a leaf becomes, given what a call becomes in the nearest block around it. -/
def Leaf.fill (call : String → Mark → m (Node Unit)) (around : Option (String × Mark))
    (leaf : Leaf) : m (Node Unit) :=
  match leaf.superCall? with
  | none => pure (.leaf leaf)
  | some location =>
    match around with
    | some (name, mark) => call name mark
    | none => throw (.superOutsideBlock none location)

mutual

/-- Replace every call in the node, in document order. -/
def Node.fill (call : String → Mark → m (Node Unit)) (around : Option (String × Mark)) :
    Node Mark → m (Node Unit)
  | .leaf leaf => leaf.fill call around
  | .block mark name body => do
    let body ← Nodes.fill call (some (name, mark)) body
    pure (.block () name body)
  | .conditional condition body arms otherwise => do
    let body ← Nodes.fill call around body
    let arms ← Arms.fill call around arms
    let otherwise ← Nodes.fill call around otherwise
    pure (.conditional condition body arms otherwise)
  | .loop targets iterable body otherwise => do
    let body ← Nodes.fill call around body
    let otherwise ← Nodes.fill call around otherwise
    pure (.loop targets iterable body otherwise)
  | .group body => do
    let body ← Nodes.fill call around body
    pure (.group body)
termination_by structural node => node

/-- Replace every call in the sequence, in document order. -/
def Nodes.fill (call : String → Mark → m (Node Unit)) (around : Option (String × Mark)) :
    Nodes Mark → m (Nodes Unit)
  | [] => pure []
  | node :: rest => do
    let node ← Node.fill call around node
    let rest ← Nodes.fill call around rest
    pure (node :: rest)
termination_by structural nodes => nodes

/-- Replace every call in the arms, in document order. -/
def Arms.fill (call : String → Mark → m (Node Unit)) (around : Option (String × Mark)) :
    Arms Mark → m (Arms Unit)
  | [] => pure []
  | (condition, body) :: rest => do
    let body ← Nodes.fill call around body
    let rest ← Arms.fill call around rest
    pure ((condition, body) :: rest)
termination_by structural arms => arms

end

end Fill

/-- A block body in the place of one node: nothing as empty text, one node as itself, several as a
group. -/
def collapse : Nodes Unit → Node Unit
  | [] => .text ""
  | [node] => node
  | nodes => .group nodes

/-- Remembered substitutions, by block name and count of lower definers. -/
abbrev Memo := List ((String × Nat) × Node Unit)

/-- A substitution that may fail and that remembers what it found. -/
abbrev Substitution := ExceptT ResolveError (StateM Memo)

namespace Hierarchy

/-- The nearest level above `level` whose template defines the block. -/
def definerAbove? (h : Hierarchy) (name : String) (level : Nat) : Option Nat :=
  (h.definers name).find? (level < ·)

/-- How many levels below `level` define the block. -/
def definersBelow (h : Hierarchy) (name : String) (level : Nat) : Nat :=
  (h.definers name).countP (· < level)

/-- Levels in a block's chain are levels of the hierarchy. -/
theorem lt_length_of_mem_definers {h : Hierarchy} {name : String} {level : Nat}
    (hmem : level ∈ h.definers name) : level < h.length := by
  simp only [definers] at hmem
  split at hmem
  next => cases hmem
  next =>
    obtain ⟨⟨t, i⟩, ht, rfl⟩ := List.mem_map.1 hmem
    have hzip := List.mem_of_mem_drop (List.mem_filter.1 ht).1
    simpa [length] using List.snd_lt_of_mem_zipIdx hzip

/-- A definer above a level is above it and in the hierarchy. -/
theorem definerAbove?_bounds {h : Hierarchy} {name : String} {level above : Nat}
    (hsome : h.definerAbove? name level = some above) : level < above ∧ above < h.length :=
  ⟨by simpa using List.find?_some hsome,
    lt_length_of_mem_definers (List.mem_of_find?_eq_some hsome)⟩

/-- What a call becomes in a block taken from `level`. More lower definers than `limit` are an
error, remembered or not. -/
def substitute (h : Hierarchy) (limit : Nat) (name : String) (level : Nat) :
    Substitution (Node Unit) := do
  let depth := h.definersBelow name level
  if limit < depth then
    throw (.superTooDeep name limit)
  else
    match (← get).lookup (name, depth) with
    | some known => pure known
    | none =>
      match hsome : h.definerAbove? name level with
      | none => pure (.text "")
      | some above =>
        have := definerAbove?_bounds hsome
        let body ← Nodes.fill (fun inner (_ : Unit) ↦ h.substitute limit inner above)
          (some (name, ())) (h.bodyAt above name)
        let found := collapse body
        modify fun memo ↦ ((name, depth), found) :: memo
        pure found
termination_by h.length - level

/-- The first stray call of a template as an error. -/
def strayError? (t : Template) : Option ResolveError :=
  (Nodes.strayCall? t.nodes).map fun location ↦ .superOutsideBlock (some t.name) location

/-- Substitute every call of a marked tree. A stray call, in any template of the hierarchy or in
the tree itself, is an error before anything is substituted. -/
def resolveSuper (h : Hierarchy) (limit : Nat) (name : String) (tree : Nodes Nat) :
    Substitution Template :=
  match (h.templates ++ [Template.mk name (Nodes.unmarked tree)]).findSome? strayError? with
  | some e => throw e
  | none => do
    let nodes ← Nodes.fill (h.substitute limit) none tree
    pure ⟨name, nodes⟩

/-- The merged tree with every call substituted. -/
def resolveMerged (h : Hierarchy) (limit : Nat) : Substitution Template :=
  h.resolveSuper limit h.leaf.name h.merged

/-- The resolved tree of a hierarchy. Where no template calls `super()`, there is nothing to
substitute. -/
def resolve (h : Hierarchy) (limit : Nat) : Except ResolveError Template :=
  if h.templates.any fun t ↦ Nodes.hasSuperCall t.nodes then
    ((h.resolveMerged limit).run []).1
  else .ok h.mergedTemplate

end Hierarchy

end TemplateInheritance
