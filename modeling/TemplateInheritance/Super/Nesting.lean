import TemplateInheritance.Super.Expansion

/-!
# How deep a call nests

A call of `super()` is nested as deep as there are calls whose substitution it came up in. What
makes a call too deep is another count: that of the lower levels which define its block, and they
need not all have been substituted on the way. A definition that took no place in the merged tree
is passed over, and so is one whose body was replaced as a part of another block.
-/

namespace TemplateInheritance

/-- A call in a block taken from some level, with the calls in whose substitution it came up, the
innermost first. -/
structure NestedCall where
  name : String
  level : Nat
  around : List (String × Nat)
deriving DecidableEq

/-- How many calls were substituted around the call. -/
def NestedCall.depth (call : NestedCall) : Nat :=
  call.around.length

/-- A call that comes up in the body that takes the place of this one. -/
def NestedCall.inner (call : NestedCall) (name : String) (above : Nat) : NestedCall :=
  ⟨name, above, (call.name, call.level) :: call.around⟩

namespace Hierarchy

/-- The levels below a call that define its block and were left by a substitution around it. -/
def passedThrough (h : Hierarchy) (call : NestedCall) : List Nat :=
  (h.definingLevels call.name).filter fun lower ↦
    lower < call.level ∧ (call.name, lower) ∈ call.around

/-- The levels below a call that define its block and were not. -/
def passedOver (h : Hierarchy) (call : NestedCall) : List Nat :=
  (h.definingLevels call.name).filter fun lower ↦
    lower < call.level ∧ (call.name, lower) ∉ call.around

/-- The first call found too deep where a call is substituted: the call itself, or one in the body
that takes its place. -/
def tooDeep? (h : Hierarchy) (limit : Nat) (call : NestedCall) : Option NestedCall :=
  if limit < h.definersBelow call.name call.level then some call
  else
    match hsome : h.nextDefinition? call.name call.level with
    | none => none
    | some above =>
      have := nextDefinition?_bounds hsome
      (Nodes.calls (some (call.name, ())) (h.bodyAt above call.name)).findSome? fun (name, _) ↦
        h.tooDeep? limit (call.inner name above)
termination_by h.length - call.level
decreasing_by
  simp only [NestedCall.inner]
  omega

/-- The first call of the merged tree, in the order of substitution, that is found too deep. -/
def failingCall? (h : Hierarchy) (limit : Nat) : Option NestedCall :=
  (Nodes.calls none h.merged).findSome? fun (name, level) ↦ h.tooDeep? limit ⟨name, level, []⟩

end Hierarchy

end TemplateInheritance
