import TemplateInheritance.Proofs.Blocks
import TemplateInheritance.Proofs.Merging

/-!
# What stands in a merged tree

Each block of a merged tree is marked with a level that has a block of its name, whatever was
replaced on the way down. A call outside all blocks can only come from the root; where no template
has one, resolving is substituting.
-/

namespace TemplateInheritance

/-! ### Blocks -/

section Blocks

variable {Mark New : Type}

/-- A block with another mark throughout. -/
def Block.withMark (new : New) (block : Block Mark) : Block New :=
  ⟨new, block.name, Nodes.mark new block.body⟩

mutual

private theorem Node.blocks_mark (new : New) (node : Node Mark) :
    Node.blocks (Node.mark new node) = (Node.blocks node).map (·.withMark new) := by
  cases node <;>
    simp [Node.mark, Node.blocks, Block.withMark, Nodes.blocks_mark, Arms.blocks_mark]
termination_by structural node

/-- Marking a tree marks its blocks. -/
theorem Nodes.blocks_mark (new : New) (nodes : Nodes Mark) :
    Nodes.blocks (Nodes.mark new nodes) = (Nodes.blocks nodes).map (·.withMark new) := by
  cases nodes <;> simp [Nodes.mark, Nodes.blocks, Node.blocks_mark, Nodes.blocks_mark]
termination_by structural nodes

private theorem Arms.blocks_mark (new : New) (arms : Arms Mark) :
    Arms.blocks (Arms.mark new arms) = (Arms.blocks arms).map (·.withMark new) := by
  match arms with
  | [] => rfl
  | (_, body) :: rest =>
    simp [Arms.mark, Arms.blocks, Nodes.blocks_mark new body, Arms.blocks_mark new rest]
termination_by structural arms

end

/-- The blocks of a sequence are those of its nodes. -/
theorem Nodes.blocks_eq_flatMap (nodes : Nodes Mark) :
    Nodes.blocks nodes = nodes.flatMap Node.blocks := by
  induction nodes with
  | nil => rfl
  | cons node rest ih => simp [Nodes.blocks, ih]

theorem mem_blocks_hoist {imports nodes : Nodes Mark} {block : Block Mark}
    (himports : ∀ node ∈ imports, node.isImport = true)
    (hmem : block ∈ Nodes.blocks (hoist imports nodes)) : block ∈ Nodes.blocks nodes := by
  rw [Nodes.blocks_eq_flatMap, List.mem_flatMap] at hmem ⊢
  obtain ⟨node, hnode, hblock⟩ := hmem
  rcases mem_hoist_iff.mp hnode with himport | hmem
  · obtain ⟨leaf, rfl, -⟩ := Node.exists_leaf_of_isImport (himports node himport)
    cases hblock
  · exact ⟨node, hmem, hblock⟩

end Blocks

section Overlay

variable {own : SortedMap (Nodes Unit)} {level : Nat} {p : Nat → String → Prop}

mutual

private theorem Node.forall_blocks_overlay
    (hown : ∀ name body, own.get? name = some body →
      p level name ∧ ∀ block ∈ Nodes.blocks body, p level block.name)
    (node : Node Nat) (hnode : ∀ block ∈ Node.blocks node, p block.mark block.name) :
    ∀ block ∈ Node.blocks (Node.overlayMarked own level node), p block.mark block.name := by
  cases node with
  | leaf leaf => exact hnode
  | block mark name body =>
    simp only [Node.overlayMarked]
    split
    · next replacement hget =>
      obtain ⟨hname, hinner⟩ := hown name replacement hget
      simp only [Node.blocks, Nodes.blocks_mark, List.mem_cons, List.mem_map]
      rintro block (rfl | ⟨inner, hmem, rfl⟩)
      · exact hname
      · exact hinner inner hmem
    · simp only [Node.blocks, List.mem_cons] at hnode ⊢
      rintro block (rfl | hmem)
      · exact hnode ⟨mark, name, body⟩ (.inl rfl)
      · exact Nodes.forall_blocks_overlay hown body (fun inner hinner ↦ hnode inner (.inr hinner))
          block hmem
  | conditional condition body arms otherwise =>
    simp only [Node.overlayMarked, Node.blocks, List.forall_mem_append] at hnode ⊢
    exact ⟨⟨Nodes.forall_blocks_overlay hown body hnode.1.1,
      Arms.forall_blocks_overlay hown arms hnode.1.2⟩,
      Nodes.forall_blocks_overlay hown otherwise hnode.2⟩
  | loop targets iterable body otherwise =>
    simp only [Node.overlayMarked, Node.blocks, List.forall_mem_append] at hnode ⊢
    exact ⟨Nodes.forall_blocks_overlay hown body hnode.1,
      Nodes.forall_blocks_overlay hown otherwise hnode.2⟩
  | group body => exact Nodes.forall_blocks_overlay hown body hnode
termination_by structural node

/-- What holds of the names of a tree's blocks and of an overlay's, each with its level, holds
after the overlay. -/
theorem Nodes.forall_blocks_overlay
    (hown : ∀ name body, own.get? name = some body →
      p level name ∧ ∀ block ∈ Nodes.blocks body, p level block.name)
    (nodes : Nodes Nat) (hnodes : ∀ block ∈ Nodes.blocks nodes, p block.mark block.name) :
    ∀ block ∈ Nodes.blocks (Nodes.overlayMarked own level nodes), p block.mark block.name := by
  cases nodes with
  | nil => exact hnodes
  | cons node rest =>
    simp only [Nodes.overlayMarked, Nodes.blocks, List.forall_mem_append] at hnodes ⊢
    exact ⟨Node.forall_blocks_overlay hown node hnodes.1,
      Nodes.forall_blocks_overlay hown rest hnodes.2⟩
termination_by structural nodes

private theorem Arms.forall_blocks_overlay
    (hown : ∀ name body, own.get? name = some body →
      p level name ∧ ∀ block ∈ Nodes.blocks body, p level block.name)
    (arms : Arms Nat) (harms : ∀ block ∈ Arms.blocks arms, p block.mark block.name) :
    ∀ block ∈ Arms.blocks (Arms.overlayMarked own level arms), p block.mark block.name := by
  match arms with
  | [] => exact harms
  | (_, body) :: rest =>
    simp only [Arms.overlayMarked, Arms.blocks, List.forall_mem_append] at harms ⊢
    exact ⟨Nodes.forall_blocks_overlay hown body harms.1,
      Arms.forall_blocks_overlay hown rest harms.2⟩
termination_by structural arms

end

end Overlay

namespace Hierarchy

variable {h : Hierarchy}

/-- The blocks of a level's template are defined on that level. -/
theorem mem_definingLevels_of_block {level : Nat} {t : Template}
    (ht : h.templates[level]? = some t) {block : Block Unit}
    (hblock : block ∈ Nodes.blocks t.nodes) : level ∈ h.definingLevels block.name :=
  (h.mem_definingLevels_iff _ _).mpr
    ⟨t, ht, (Nodes.isSome_findBlock?_iff _ _).mpr ⟨block, hblock, rfl⟩⟩

private theorem definingLevels_layeredMarked (level : Nat) {t : Template}
    {ancestors : List Template} (hdrop : h.templates.drop level = t :: ancestors) :
    ∀ block ∈ Nodes.blocks (layeredMarked level t ancestors),
      block.mark ∈ h.definingLevels block.name := by
  induction ancestors generalizing level t with
  | nil =>
    intro block hmem
    rw [layeredMarked, Nodes.blocks_mark, List.mem_map] at hmem
    obtain ⟨source, hsource, rfl⟩ := hmem
    exact mem_definingLevels_of_block (getElem?_of_drop hdrop) hsource
  | cons parent ancestors ih =>
    refine Nodes.forall_blocks_overlay (p := fun level name ↦ level ∈ h.definingLevels name)
      (fun name body hown ↦ ?_) _ (ih (level + 1) (drop_succ_of_drop hdrop))
    have hblock := Nodes.outermost_subset (Nodes.mem_outermost_of_ownBlocks hown)
    refine ⟨mem_definingLevels_of_block (getElem?_of_drop hdrop) hblock, fun inner hinner ↦ ?_⟩
    exact mem_definingLevels_of_block (getElem?_of_drop hdrop) (Nodes.blocks_subset hblock hinner)

/-- A block of the merged tree is marked with a level that has a block of its name. -/
theorem definingLevels_merged (h : Hierarchy) :
    ∀ block ∈ Nodes.blocks h.merged, block.mark ∈ h.definingLevels block.name := by
  intro block hmem
  rw [merged_eq_hoist] at hmem
  refine definingLevels_layeredMarked 0 rfl block (mem_blocks_hoist ?_ hmem)
  exact fun node hnode ↦ h.isImport_of_mem_mark_imports hnode

end Hierarchy

/-! ### Stray calls -/

mutual

private theorem Node.strayCall?_mark {Mark New : Type} (new : New) (node : Node Mark) :
    Node.strayCall? (Node.mark new node) = Node.strayCall? node := by
  cases node <;>
    simp [Node.mark, Node.strayCall?, Nodes.strayCall?_mark, Arms.strayCall?_mark]
termination_by structural node

/-- Marks have no say in which calls are stray. -/
theorem Nodes.strayCall?_mark {Mark New : Type} (new : New) (nodes : Nodes Mark) :
    Nodes.strayCall? (Nodes.mark new nodes) = Nodes.strayCall? nodes := by
  cases nodes <;>
    simp [Nodes.mark, Nodes.strayCall?, Node.strayCall?_mark, Nodes.strayCall?_mark]
termination_by structural nodes

private theorem Arms.strayCall?_mark {Mark New : Type} (new : New) (arms : Arms Mark) :
    Arms.strayCall? (Arms.mark new arms) = Arms.strayCall? arms := by
  match arms with
  | [] => rfl
  | (_, body) :: rest =>
    simp [Arms.mark, Arms.strayCall?, Nodes.strayCall?_mark new body,
      Arms.strayCall?_mark new rest]
termination_by structural arms

end

section Overlay

variable (own : SortedMap (Nodes Unit)) (level : Nat)

mutual

private theorem Node.strayCall?_overlay (node : Node Nat) :
    Node.strayCall? (Node.overlayMarked own level node) = Node.strayCall? node := by
  cases node with
  | block mark name body =>
    simp only [Node.overlayMarked]
    split <;> rfl
  | leaf | conditional | loop | group =>
    simp [Node.overlayMarked, Node.strayCall?, Nodes.strayCall?_overlay, Arms.strayCall?_overlay]
termination_by structural node

/-- An overlay replaces blocks only, and so the stray calls of the tree under it stay. -/
theorem Nodes.strayCall?_overlay (nodes : Nodes Nat) :
    Nodes.strayCall? (Nodes.overlayMarked own level nodes) = Nodes.strayCall? nodes := by
  cases nodes <;>
    simp [Nodes.overlayMarked, Nodes.strayCall?, Node.strayCall?_overlay, Nodes.strayCall?_overlay]
termination_by structural nodes

private theorem Arms.strayCall?_overlay (arms : Arms Nat) :
    Arms.strayCall? (Arms.overlayMarked own level arms) = Arms.strayCall? arms := by
  match arms with
  | [] => rfl
  | (_, body) :: rest =>
    simp [Arms.overlayMarked, Arms.strayCall?, Nodes.strayCall?_overlay body,
      Arms.strayCall?_overlay rest]
termination_by structural arms

end

end Overlay

theorem Nodes.strayCall?_append {Mark : Type} (front back : Nodes Mark) :
    Nodes.strayCall? (front ++ back) =
      (Nodes.strayCall? front).or (Nodes.strayCall? back) := by
  induction front with
  | nil => simp [Nodes.strayCall?]
  | cons node front ih => simp [Nodes.strayCall?, ih, Option.or_assoc]

private theorem Nodes.strayCall?_imports {Mark : Type} {imports : Nodes Mark}
    (himports : ∀ node ∈ imports, node.isImport = true) : Nodes.strayCall? imports = none := by
  induction imports with
  | nil => rfl
  | cons node rest ih =>
    obtain ⟨leaf, rfl, himport⟩ :=
      Node.exists_leaf_of_isImport (himports node List.mem_cons_self)
    have hleaf : leaf.superCall? = none := by
      cases leaf with
      | importAs | importNames => rfl
      | _ => cases himport
    rw [Nodes.strayCall?, Node.strayCall?, hleaf,
      ih fun other hother ↦ himports other (.tail _ hother)]
    rfl

/-- Hoisted imports add no stray call. -/
theorem Nodes.strayCall?_hoist {Mark : Type} {imports : Nodes Mark}
    (himports : ∀ node ∈ imports, node.isImport = true) (nodes : Nodes Mark) :
    Nodes.strayCall? (hoist imports nodes) = Nodes.strayCall? nodes := by
  have hnone := Nodes.strayCall?_imports himports
  cases nodes with
  | nil => exact hnone
  | cons first rest =>
    simp only [hoist]
    split <;> simp [Nodes.strayCall?, Nodes.strayCall?_append, hnone]

namespace Hierarchy

private theorem strayCall?_layeredMarked (level : Nat) (t : Template)
    (ancestors : List Template) :
    Nodes.strayCall? (layeredMarked level t ancestors) =
      Nodes.strayCall? (ancestors.getLast?.getD t).nodes := by
  induction ancestors generalizing level t with
  | nil => exact Nodes.strayCall?_mark level t.nodes
  | cons parent ancestors ih =>
    rw [layeredMarked, Nodes.strayCall?_overlay, ih]
    simp [List.getLast?_cons]

/-- The template at the top is one of the templates. -/
theorem root_mem_templates (h : Hierarchy) : h.root ∈ h.templates := by
  rw [root, templates]
  cases hlast : h.ancestors.getLast? with
  | none => exact List.mem_cons_self
  | some t => exact .tail _ (List.mem_of_getLast? hlast)

/-- The stray calls of a merged tree are those of the root. -/
theorem strayCall?_merged (h : Hierarchy) :
    Nodes.strayCall? h.merged = Nodes.strayCall? h.root.nodes := by
  rw [merged_eq_hoist, Nodes.strayCall?_hoist fun node hmem ↦ h.isImport_of_mem_mark_imports hmem]
  exact strayCall?_layeredMarked 0 h.leaf h.ancestors

/-- Where no template has a stray call, neither has the merged tree. -/
theorem strayCall?_merged_eq_none {h : Hierarchy}
    (hstray : ∀ t ∈ h.templates, Nodes.strayCall? t.nodes = none) :
    Nodes.strayCall? h.merged = none := by
  rw [strayCall?_merged]
  exact hstray _ h.root_mem_templates

/-- Where no template has a stray call, resolving the merged tree is substituting its calls. -/
theorem resolveMerged_of_noStray {h : Hierarchy}
    (hstray : ∀ t ∈ h.templates, Nodes.strayCall? t.nodes = none) (limit : Nat) :
    h.resolveMerged limit =
      Nodes.fill (h.substitute limit) none h.merged >>= fun nodes ↦
        pure ⟨h.leaf.name, nodes⟩ := by
  have hchecked : (h.templates ++ [Template.mk h.leaf.name (Nodes.unmarked h.merged)]).findSome?
      strayError? = none := by
    refine List.findSome?_eq_none_iff.mpr fun t hmem ↦ ?_
    rw [strayError?, Option.map_eq_none_iff]
    rcases List.mem_append.mp hmem with ht | ht
    · exact hstray t ht
    · rw [List.mem_singleton.mp ht, Nodes.unmarked, Nodes.strayCall?_mark]
      exact strayCall?_merged_eq_none hstray
  rw [resolveMerged, resolveSuper, hchecked]

end Hierarchy

end TemplateInheritance
