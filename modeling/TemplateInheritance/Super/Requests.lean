import TemplateInheritance.Super.Expansion

/-!
# Requests to one resolver

A resolver may be asked for several trees in turn, and its memory goes on from tree to tree, also
after a failure. Beside it stands a resolver that remembers nothing. The two can only part where
calls collide: a place in the memory says how many lower levels define a block, which a level that
does not define the block shares with the next one that does.
-/

namespace TemplateInheritance

/-- A tree to resolve, and where its blocks were taken from as far as that is said. -/
structure SuperRequest where
  template : Template
  origins : List Origin

/-- The tree with the level of every block. Blocks without an origin count as coming from the
requested template. -/
def SuperRequest.tree (request : SuperRequest) : Nodes Nat :=
  (Nodes.withOrigins request.template.nodes request.origins).1

namespace Hierarchy

/-- What one resolver answers to requests in turn, starting with that memory. -/
def answers (h : Hierarchy) (limit : Nat) (memo : Memo) :
    List SuperRequest → List (Except ResolveError Template)
  | [] => []
  | request :: rest =>
    let (answer, memo) := (h.resolveSuper limit request.template.name request.tree).run memo
    answer :: h.answers limit memo rest

/-- What a call becomes in a block taken from `level` if nothing is remembered. -/
def substituteAfresh (h : Hierarchy) (limit : Nat) (name : String) (level : Nat) :
    Except ResolveError (Node Unit) :=
  if limit < h.definersBelow name level then
    throw (.superTooDeep name limit)
  else
    match hsome : h.definerAbove? name level with
    | none => pure (.text "")
    | some above => do
      have := definerAbove?_bounds hsome
      let body ← Nodes.fill (fun inner (_ : Unit) ↦ h.substituteAfresh limit inner above)
        (some (name, ())) (h.bodyAt above name)
      pure (collapse body)
termination_by h.length - level

/-- What a resolver that remembers nothing answers to a request. -/
def answerAfresh (h : Hierarchy) (limit : Nat) (request : SuperRequest) :
    Except ResolveError Template :=
  let name := request.template.name
  match (h.templates ++ [Template.mk name (Nodes.unmarked request.tree)]).findSome? strayError? with
  | some e => throw e
  | none => do
    let nodes ← Nodes.fill (h.substituteAfresh limit) none request.tree
    pure ⟨name, nodes⟩

/-- The calls that can come up, each as the name of a block and the level it was taken from: those
written in the trees, and those in a body that a call within the limit becomes. -/
inductive Reaches (h : Hierarchy) (limit : Nat) (requests : List SuperRequest) :
    String → Nat → Prop where
  | written {request : SuperRequest} {name : String} {level : Nat} (hrequest : request ∈ requests)
      (hcall : (name, level) ∈ Nodes.calls none request.tree) :
      Reaches h limit requests name level
  | inherited {name inner : String} {level above : Nat}
      (houter : Reaches h limit requests name level) (hlimit : h.definersBelow name level ≤ limit)
      (habove : h.definerAbove? name level = some above)
      (hcall : (inner, ()) ∈ Nodes.calls (some (name, ())) (h.bodyAt above name)) :
      Reaches h limit requests inner above

/-- Two calls within the limit share a place in the memory and go on from different levels. -/
def Collides (h : Hierarchy) (limit : Nat) (requests : List SuperRequest) : Prop :=
  ∃ name level other, h.Reaches limit requests name level ∧ h.Reaches limit requests name other ∧
    h.definersBelow name level ≤ limit ∧
    h.definersBelow name level = h.definersBelow name other ∧
    h.definerAbove? name level ≠ h.definerAbove? name other

end Hierarchy

end TemplateInheritance
