import TemplateInheritance.Super.Substitution

/-!
# Expanding calls of `super()` without a memory

What a call stands for, said level by level: too many defining levels below are an error, otherwise
the call becomes the body that the nearest defining level above gives the block, expanded from
there. A tree is expanded by replacing its calls, unless one of them is an error; the first such
call in document order counts. Nothing is remembered, and the defining levels are read off the
templates alone.
-/

namespace TemplateInheritance

section Calls

variable {Mark : Type}

/-- The block that a leaf asks for, with its mark, if the leaf is a call in a block. -/
def Leaf.calls (around : Option (String × Mark)) (leaf : Leaf) : List (String × Mark) :=
  if leaf.isSuperCall then around.toList else []

mutual

/-- The calls in the node in document order, each as the name and the mark of its block. -/
def Node.calls (around : Option (String × Mark)) : Node Mark → List (String × Mark)
  | .leaf leaf => leaf.calls around
  | .block mark name body => Nodes.calls (some (name, mark)) body
  | .conditional _ body arms otherwise =>
    Nodes.calls around body ++ Arms.calls around arms ++ Nodes.calls around otherwise
  | .loop _ _ body otherwise => Nodes.calls around body ++ Nodes.calls around otherwise
  | .group body => Nodes.calls around body
termination_by structural node => node

/-- The calls in the sequence in document order. -/
def Nodes.calls (around : Option (String × Mark)) : Nodes Mark → List (String × Mark)
  | [] => []
  | node :: rest => Node.calls around node ++ Nodes.calls around rest
termination_by structural nodes => nodes

/-- The calls in the arms in document order. -/
def Arms.calls (around : Option (String × Mark)) : Arms Mark → List (String × Mark)
  | [] => []
  | (_, body) :: rest => Nodes.calls around body ++ Arms.calls around rest
termination_by structural arms => arms

end

/-- The leaf, or what it stands for if it is a call in a block. -/
def Leaf.replaceCall (stands : String → Mark → Node Unit) (around : Option (String × Mark))
    (leaf : Leaf) : Node Unit :=
  match around with
  | some (name, mark) => if leaf.isSuperCall then stands name mark else .leaf leaf
  | none => .leaf leaf

mutual

/-- The node with every call in a block replaced by what it stands for. -/
def Node.replaceCalls (stands : String → Mark → Node Unit) (around : Option (String × Mark)) :
    Node Mark → Node Unit
  | .leaf leaf => leaf.replaceCall stands around
  | .block mark name body =>
    .block () name (Nodes.replaceCalls stands (some (name, mark)) body)
  | .conditional condition body arms otherwise =>
    .conditional condition (Nodes.replaceCalls stands around body)
      (Arms.replaceCalls stands around arms) (Nodes.replaceCalls stands around otherwise)
  | .loop targets iterable body otherwise =>
    .loop targets iterable (Nodes.replaceCalls stands around body)
      (Nodes.replaceCalls stands around otherwise)
  | .group body => .group (Nodes.replaceCalls stands around body)
termination_by structural node => node

/-- The sequence with every call in a block replaced by what it stands for. -/
def Nodes.replaceCalls (stands : String → Mark → Node Unit) (around : Option (String × Mark)) :
    Nodes Mark → Nodes Unit
  | [] => []
  | node :: rest =>
    Node.replaceCalls stands around node :: Nodes.replaceCalls stands around rest
termination_by structural nodes => nodes

/-- The arms with every call in a block replaced by what it stands for. -/
def Arms.replaceCalls (stands : String → Mark → Node Unit) (around : Option (String × Mark)) :
    Arms Mark → Arms Unit
  | [] => []
  | (condition, body) :: rest =>
    (condition, Nodes.replaceCalls stands around body) :: Arms.replaceCalls stands around rest
termination_by structural arms => arms

end

/-- The first error among calls. -/
def firstError? (expand : String → Mark → Except ResolveError (Node Unit))
    (calls : List (String × Mark)) : Option ResolveError :=
  calls.findSome? fun (name, mark) ↦
    match expand name mark with
    | .error e => some e
    | .ok _ => none

/-- What a call stands for where it is no error. -/
def expansionOr (expand : String → Mark → Except ResolveError (Node Unit)) (name : String)
    (mark : Mark) : Node Unit :=
  (expand name mark).toOption.getD (.text "")

/-- The sequence with its calls expanded, or the error of the first call that has one. -/
def Nodes.expandCalls (expand : String → Mark → Except ResolveError (Node Unit))
    (around : Option (String × Mark)) (nodes : Nodes Mark) : Except ResolveError (Nodes Unit) :=
  match firstError? expand (Nodes.calls around nodes) with
  | some e => .error e
  | none => .ok (Nodes.replaceCalls (expansionOr expand) around nodes)

end Calls

namespace Hierarchy

/-- The levels whose template has a block of that name, lowest first. -/
def definingLevels (h : Hierarchy) (name : String) : List Nat :=
  (h.templates.zipIdx.filter fun (t, _) ↦ t.defines name).map (·.2)

/-- The nearest level above `level` that has a block of that name. -/
def nextDefinition? (h : Hierarchy) (name : String) (level : Nat) : Option Nat :=
  (h.definingLevels name).find? (level < ·)

/-- A level that defines a block is a level of the hierarchy. -/
theorem lt_length_of_mem_definingLevels {h : Hierarchy} {name : String} {level : Nat}
    (hmem : level ∈ h.definingLevels name) : level < h.length := by
  obtain ⟨⟨t, i⟩, ht, rfl⟩ := List.mem_map.mp hmem
  simpa [length] using List.snd_lt_of_mem_zipIdx (List.mem_filter.mp ht).1

/-- The next definition lies higher, and within the hierarchy. -/
theorem nextDefinition?_bounds {h : Hierarchy} {name : String} {level above : Nat}
    (hsome : h.nextDefinition? name level = some above) : level < above ∧ above < h.length :=
  ⟨by simpa using List.find?_some hsome,
    lt_length_of_mem_definingLevels (List.mem_of_find?_eq_some hsome)⟩

/-- What a call stands for in a block taken from `level`. -/
def expand (h : Hierarchy) (limit : Nat) (name : String) (level : Nat) :
    Except ResolveError (Node Unit) :=
  if limit < ((h.definingLevels name).filter (· < level)).length then
    .error (.superTooDeep name limit)
  else
    match hsome : h.nextDefinition? name level with
    | none => .ok (.text "")
    | some above =>
      have := nextDefinition?_bounds hsome
      (Nodes.expandCalls (fun inner (_ : Unit) ↦ h.expand limit inner above) (some (name, ()))
        (h.bodyAt above name)).map collapse
termination_by h.length - level

/-- A marked tree with every call expanded. -/
def expandTree (h : Hierarchy) (limit : Nat) (tree : Nodes Nat) :
    Except ResolveError (Nodes Unit) :=
  Nodes.expandCalls (h.expand limit) none tree

end Hierarchy

end TemplateInheritance
