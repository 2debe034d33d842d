import TemplateInheritance.Proofs.MergedTree

/-!
# Own blocks among all blocks

A template offers the last block of a name that stands in no other block, while a search takes the
first one anywhere. Both are said of one list, in which every block comes with the number of blocks
around it. So whatever a template offers is also found in it, and every block of a merged tree
stands on a level of its own chain.
-/

namespace TemplateInheritance

/-- A block of a tree, and how many other blocks it stands in. -/
structure NestedBlock (Mark : Type) where
  outer : Nat
  block : Block Mark

section Nesting

variable {Mark : Type}

mutual

/-- The blocks of a node that itself stands in `outer` blocks, in document order. -/
def Node.nestedBlocks (outer : Nat) : Node Mark → List (NestedBlock Mark)
  | .leaf _ => []
  | .block mark name body => ⟨outer, mark, name, body⟩ :: Nodes.nestedBlocks (outer + 1) body
  | .conditional _ body arms otherwise =>
    Nodes.nestedBlocks outer body ++ Arms.nestedBlocks outer arms ++
      Nodes.nestedBlocks outer otherwise
  | .loop _ _ body otherwise =>
    Nodes.nestedBlocks outer body ++ Nodes.nestedBlocks outer otherwise
  | .group body => Nodes.nestedBlocks outer body
termination_by structural node => node

/-- The blocks of a sequence that itself stands in `outer` blocks, in document order. -/
def Nodes.nestedBlocks (outer : Nat) : Nodes Mark → List (NestedBlock Mark)
  | [] => []
  | node :: rest => Node.nestedBlocks outer node ++ Nodes.nestedBlocks outer rest
termination_by structural nodes => nodes

/-- The blocks of arms that themselves stand in `outer` blocks, in document order. -/
def Arms.nestedBlocks (outer : Nat) : Arms Mark → List (NestedBlock Mark)
  | [] => []
  | (_, body) :: rest => Nodes.nestedBlocks outer body ++ Arms.nestedBlocks outer rest
termination_by structural arms => arms

end

mutual

private theorem Node.map_nestedBlocks (outer : Nat) (node : Node Mark) :
    (Node.nestedBlocks outer node).map (·.block) = Node.blocks node := by
  cases node <;>
    simp [Node.nestedBlocks, Node.blocks, Nodes.map_nestedBlocks, Arms.map_nestedBlocks]
termination_by structural node

/-- The list holds the blocks of the tree in their order. -/
theorem Nodes.map_nestedBlocks (outer : Nat) (nodes : Nodes Mark) :
    (Nodes.nestedBlocks outer nodes).map (·.block) = Nodes.blocks nodes := by
  cases nodes <;>
    simp [Nodes.nestedBlocks, Nodes.blocks, Node.map_nestedBlocks, Nodes.map_nestedBlocks]
termination_by structural nodes

private theorem Arms.map_nestedBlocks (outer : Nat) (arms : Arms Mark) :
    (Arms.nestedBlocks outer arms).map (·.block) = Arms.blocks arms := by
  match arms with
  | [] => rfl
  | (_, body) :: rest =>
    simp [Arms.nestedBlocks, Arms.blocks, Nodes.map_nestedBlocks outer body,
      Arms.map_nestedBlocks outer rest]
termination_by structural arms

end

mutual

private theorem Node.le_outer (outer : Nat) (node : Node Mark) :
    ∀ nested ∈ Node.nestedBlocks outer node, outer ≤ nested.outer := by
  cases node with
  | leaf leaf => exact nofun
  | block mark name body =>
    intro nested hmem
    rcases List.mem_cons.mp hmem with rfl | hmem
    · exact Nat.le_refl outer
    · exact Nat.le_of_succ_le (Nodes.le_outer (outer + 1) body nested hmem)
  | conditional condition body arms otherwise =>
    simp only [Node.nestedBlocks, List.forall_mem_append]
    exact ⟨⟨Nodes.le_outer outer body, Arms.le_outer outer arms⟩, Nodes.le_outer outer otherwise⟩
  | loop targets iterable body otherwise =>
    simp only [Node.nestedBlocks, List.forall_mem_append]
    exact ⟨Nodes.le_outer outer body, Nodes.le_outer outer otherwise⟩
  | group body => exact Nodes.le_outer outer body
termination_by structural node

/-- No block stands in fewer blocks than the sequence that it is taken from. -/
theorem Nodes.le_outer (outer : Nat) (nodes : Nodes Mark) :
    ∀ nested ∈ Nodes.nestedBlocks outer nodes, outer ≤ nested.outer := by
  cases nodes with
  | nil => exact nofun
  | cons node rest =>
    simp only [Nodes.nestedBlocks, List.forall_mem_append]
    exact ⟨Node.le_outer outer node, Nodes.le_outer outer rest⟩
termination_by structural nodes

private theorem Arms.le_outer (outer : Nat) (arms : Arms Mark) :
    ∀ nested ∈ Arms.nestedBlocks outer arms, outer ≤ nested.outer := by
  match arms with
  | [] => exact nofun
  | (_, body) :: rest =>
    simp only [Arms.nestedBlocks, List.forall_mem_append]
    exact ⟨Nodes.le_outer outer body, Arms.le_outer outer rest⟩
termination_by structural arms

end

end Nesting

mutual

private theorem Node.outermost_eq_filter (outer : Nat) (node : Node Unit) :
    Node.outermost node =
      ((Node.nestedBlocks outer node).filter (·.outer = outer)).map (·.block) := by
  cases node with
  | leaf leaf => rfl
  | block mark name body =>
    -- what stands inside the block stands in one more, and so is no longer outermost
    have hinner : (Nodes.nestedBlocks (outer + 1) body).filter (·.outer = outer) = [] := by
      refine List.filter_eq_nil_iff.mpr fun nested hmem ↦ ?_
      have := Nodes.le_outer (outer + 1) body nested hmem
      simp only [decide_eq_true_eq]
      omega
    simp [Node.outermost, Node.nestedBlocks, hinner]
  | conditional condition body arms otherwise =>
    simp [Node.outermost, Node.nestedBlocks, Nodes.outermost_eq_filter outer,
      Arms.outermost_eq_filter outer]
  | loop targets iterable body otherwise =>
    simp [Node.outermost, Node.nestedBlocks, Nodes.outermost_eq_filter outer]
  | group body => simp [Node.outermost, Node.nestedBlocks, Nodes.outermost_eq_filter outer]
termination_by structural node

/-- The outermost blocks of a sequence are those that stand in no more blocks than it does. -/
theorem Nodes.outermost_eq_filter (outer : Nat) (nodes : Nodes Unit) :
    Nodes.outermost nodes =
      ((Nodes.nestedBlocks outer nodes).filter (·.outer = outer)).map (·.block) := by
  cases nodes with
  | nil => rfl
  | cons node rest =>
    simp [Nodes.outermost, Nodes.nestedBlocks, Node.outermost_eq_filter outer,
      Nodes.outermost_eq_filter outer]
termination_by structural nodes

private theorem Arms.outermost_eq_filter (outer : Nat) (arms : Arms Unit) :
    Arms.outermost arms =
      ((Arms.nestedBlocks outer arms).filter (·.outer = outer)).map (·.block) := by
  match arms with
  | [] => rfl
  | (_, body) :: rest =>
    simp [Arms.outermost, Arms.nestedBlocks, Nodes.outermost_eq_filter outer body,
      Arms.outermost_eq_filter outer rest]
termination_by structural arms

end

/-! ### The first and the last of a name -/

section Own

variable {nodes : Nodes Unit} {name : String}

/-- A search takes the first block of its name, however many blocks that stands in. -/
theorem Nodes.findBlock?_eq_first :
    Nodes.findBlock? name nodes =
      ((Nodes.nestedBlocks 0 nodes).find? (·.block.name = name)).map (·.block.body) := by
  rw [Nodes.findBlock?_eq_bodyOf?, ← Nodes.map_nestedBlocks 0, bodyOf?, List.find?_map,
    Option.map_map]
  rfl

/-- A template offers the last block of a name that stands in no other one. -/
theorem Nodes.get?_ownBlocks_eq_last :
    (Nodes.ownBlocks nodes).get? name =
      ((Nodes.nestedBlocks 0 nodes).reverse.find?
        fun nested ↦ nested.outer = 0 && nested.block.name = name).map (·.block.body) := by
  rw [Nodes.get?_ownBlocks, Nodes.outermost_eq_filter 0, bodyOf?, ← List.map_reverse,
    ← List.filter_reverse, List.find?_map, List.find?_filter, Option.map_map]
  simp only [Bool.decide_and, Bool.decide_eq_true]
  rfl

/-- The block stands in no other one, and no later block of its name stands so. -/
def Nodes.LastOutermost (nodes : Nodes Unit) (block : Block Unit) : Prop :=
  ∃ front back, Nodes.nestedBlocks 0 nodes = front ++ ⟨0, block⟩ :: back ∧
    ∀ later ∈ back, later.outer = 0 → later.block.name ≠ block.name

theorem Nodes.get?_ownBlocks_eq_some_iff {body : Nodes Unit} :
    (Nodes.ownBlocks nodes).get? name = some body ↔
      Nodes.LastOutermost nodes ⟨(), name, body⟩ := by
  rw [Nodes.get?_ownBlocks_eq_last, Option.map_eq_some_iff]
  simp only [List.find?_eq_some_iff_append, Bool.and_eq_true, decide_eq_true_eq]
  constructor
  · rintro ⟨⟨_, _, _, _⟩, ⟨⟨rfl, rfl⟩, back, front, hsplit, hback⟩, rfl⟩
    refine ⟨front.reverse, back.reverse, ?_, fun later hmem houter hname ↦ ?_⟩
    · simpa using congrArg List.reverse hsplit
    · simpa [houter, hname] using hback later (List.mem_reverse.mp hmem)
  · rintro ⟨front, back, hsplit, hback⟩
    refine ⟨⟨0, (), name, body⟩, ⟨⟨rfl, rfl⟩, back.reverse, front.reverse, ?_, ?_⟩, rfl⟩
    · simp [hsplit]
    · intro later hmem
      have hname := hback later (List.mem_reverse.mp hmem)
      by_cases houter : later.outer = 0
      · simp [hname houter]
      · simp [houter]

/-- A template offers a name exactly if some block of the name stands in no other block. -/
theorem Nodes.contains_ownBlocks_iff :
    (Nodes.ownBlocks nodes).contains name = true ↔
      ∃ nested ∈ Nodes.nestedBlocks 0 nodes, nested.outer = 0 ∧ nested.block.name = name := by
  rw [SortedMap.contains, Nodes.get?_ownBlocks_eq_last, Option.isSome_map, List.find?_isSome]
  simp

/-- Whatever a template offers is found in it. -/
theorem Nodes.isSome_findBlock?_of_own (hown : (Nodes.ownBlocks nodes).contains name = true) :
    (Nodes.findBlock? name nodes).isSome = true := by
  obtain ⟨nested, hmem, -, hname⟩ := Nodes.contains_ownBlocks_iff.mp hown
  rw [Nodes.findBlock?_eq_first, Option.isSome_map, List.find?_isSome]
  exact ⟨nested, hmem, by simpa using hname⟩

/-- The only block of a name is found, and it is offered unless it stands in another block. -/
theorem Nodes.found_and_own_of_single {nested : NestedBlock Unit}
    (hsingle : (Nodes.nestedBlocks 0 nodes).filter (·.block.name = name) = [nested]) :
    Nodes.findBlock? name nodes = some nested.block.body ∧
      (Nodes.ownBlocks nodes).get? name =
        if nested.outer = 0 then some nested.block.body else none := by
  constructor
  · rw [Nodes.findBlock?_eq_first, ← List.head?_filter, hsingle]
    rfl
  · rw [Nodes.get?_ownBlocks_eq_last, ← List.getLast?_filter, ← List.filter_filter, hsingle]
    by_cases houter : nested.outer = 0
    · simp [houter]
    · simp [houter]

end Own

namespace Hierarchy

/-- A template offers a name exactly if some block of the name stands in no other one, and then the
last such block in document order. Whatever it offers is found in it, and a name that only one block
of the tree has is found as this block, and offered as this block where it stands in no other. In a
merged tree, whose marks are the merged origins, every block is marked with a level of its own
chain: a block of its name is found in the template there. -/
theorem own_and_merged_blocks_found (nodes : Nodes Unit) (name : String) (h : Hierarchy) :
    ((Nodes.ownBlocks nodes).contains name = true ↔
      ∃ nested ∈ Nodes.nestedBlocks 0 nodes, nested.outer = 0 ∧ nested.block.name = name) ∧
    (∀ body, (Nodes.ownBlocks nodes).get? name = some body ↔
      Nodes.LastOutermost nodes ⟨(), name, body⟩) ∧
    ((Nodes.ownBlocks nodes).contains name = true →
      (Nodes.findBlock? name nodes).isSome = true) ∧
    (∀ nested, (Nodes.nestedBlocks 0 nodes).filter (·.block.name = name) = [nested] →
      Nodes.findBlock? name nodes = some nested.block.body ∧
        (Nodes.ownBlocks nodes).get? name =
          if nested.outer = 0 then some nested.block.body else none) ∧
    (Nodes.unmarked h.merged = h.mergeTraced.1.nodes ∧
      Nodes.origins h.merged = h.mergeTraced.2) ∧
    ∀ block ∈ Nodes.blocks h.merged, ∃ t, h.templates[block.mark]? = some t ∧
      (t.findBlock? block.name).isSome = true ∧ block.mark ∈ h.definers block.name := by
  refine ⟨Nodes.contains_ownBlocks_iff, fun body ↦ Nodes.get?_ownBlocks_eq_some_iff,
    Nodes.isSome_findBlock?_of_own, fun nested ↦ Nodes.found_and_own_of_single, ⟨?_, ?_⟩, ?_⟩
  · exact (congrArg Template.nodes h.mergedTemplate_eq).symm
  · exact h.origins_merged
  · intro block hmem
    have hlevel := h.definingLevels_merged block hmem
    obtain ⟨t, ht, hdefines⟩ := (h.mem_definingLevels_iff _ _).mp hlevel
    rw [← h.definers_eq_definingLevels] at hlevel
    exact ⟨t, ht, hdefines, hlevel⟩

end Hierarchy

/-! ### A page with a name inside and outside another block -/

namespace RepeatedPage

/-- The name of the note stands inside the body and, in a branch, outside of it. -/
def base : Template :=
  ⟨"base",
    [.named "body" [.named "note" [.text "inside"], .named "body" []],
      .conditional (.var "extra") [.named "side" [.text "side"]] []
        [.named "note" [.text "outside"]]]⟩

/-- Replaces the note. -/
def page : Template := ⟨"page", [.extending "base", .named "note" [.text "page"]]⟩

def hierarchy : Hierarchy := ⟨page, [base]⟩

/-- The base offers the note outside the body, and the one inside is found. The only side is both
offered and found. In the merged tree the body stays on the level of the base. -/
theorem own_and_merged_base :
    (Nodes.ownBlocks base.nodes).get? "note" = some [.text "outside"] ∧
      (Nodes.findBlock? "note" base.nodes).isSome = true ∧
      (Nodes.ownBlocks base.nodes).get? "side" = some [.text "side"] ∧
      Nodes.findBlock? "side" base.nodes = some [.text "side"] ∧
      1 ∈ hierarchy.definers "body" := by
  obtain ⟨-, hlast, hfound, -, -, hmerged⟩ :=
    Hierarchy.own_and_merged_blocks_found base.nodes "note" hierarchy
  obtain ⟨-, -, -, hsingle, -, -⟩ :=
    Hierarchy.own_and_merged_blocks_found base.nodes "side" hierarchy
  have hnote : (Nodes.ownBlocks base.nodes).get? "note" = some [.text "outside"] :=
    (hlast _).mpr ⟨(Nodes.nestedBlocks 0 base.nodes).take 4, [], rfl, nofun⟩
  have hside := hsingle ⟨0, (), "side", [.text "side"]⟩ rfl
  have hbody : (Nodes.blocks hierarchy.merged).head? =
      some ⟨1, "body", [.block 0 "note" [.text "page"], .block 1 "body" []]⟩ := rfl
  obtain ⟨-, -, -, hchain⟩ := hmerged _ (List.mem_of_mem_head? hbody)
  exact ⟨hnote, hfound (by rw [SortedMap.contains, hnote]; rfl), hside.2, hside.1, hchain⟩

end RepeatedPage

end TemplateInheritance
