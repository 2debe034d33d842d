import TemplateInheritance.Proofs.Blocks
import TemplateInheritance.Proofs.Merging
import TemplateInheritance.Super.Substitution

/-!
# The leaves of a tree as a list

Merging moves leaves about but makes none: each leaf of a merged tree is a leaf of some template.
Where no leaf is a call of `super()`, nothing is substituted.
-/

namespace TemplateInheritance

section Listing

variable {Mark : Type}

mutual

/-- The leaves of the node in document order. -/
def Node.leaves : Node Mark → List Leaf
  | .leaf leaf => [leaf]
  | .block _ _ body => Nodes.leaves body
  | .conditional _ body arms otherwise =>
    Nodes.leaves body ++ Arms.leaves arms ++ Nodes.leaves otherwise
  | .loop _ _ body otherwise => Nodes.leaves body ++ Nodes.leaves otherwise
  | .group body => Nodes.leaves body
termination_by structural node => node

/-- The leaves of the sequence in document order. -/
def Nodes.leaves : Nodes Mark → List Leaf
  | [] => []
  | node :: rest => Node.leaves node ++ Nodes.leaves rest
termination_by structural nodes => nodes

/-- The leaves of the arms in document order. -/
def Arms.leaves : Arms Mark → List Leaf
  | [] => []
  | (_, body) :: rest => Nodes.leaves body ++ Arms.leaves rest
termination_by structural arms => arms

end

mutual

private theorem Node.hasSuperCall_eq_any (node : Node Mark) :
    Node.hasSuperCall node = (Node.leaves node).any Leaf.isSuperCall := by
  cases node <;>
    simp [Node.hasSuperCall, Node.leaves, Nodes.hasSuperCall_eq_any, Arms.hasSuperCall_eq_any,
      Bool.or_assoc]
termination_by structural node

/-- A call stands in a tree if one of the leaves is a call. -/
theorem Nodes.hasSuperCall_eq_any (nodes : Nodes Mark) :
    Nodes.hasSuperCall nodes = (Nodes.leaves nodes).any Leaf.isSuperCall := by
  cases nodes <;>
    simp [Nodes.hasSuperCall, Nodes.leaves, Node.hasSuperCall_eq_any, Nodes.hasSuperCall_eq_any]
termination_by structural nodes

private theorem Arms.hasSuperCall_eq_any (arms : Arms Mark) :
    Arms.hasSuperCall arms = (Arms.leaves arms).any Leaf.isSuperCall := by
  match arms with
  | [] => rfl
  | (_, body) :: rest =>
    simp [Arms.hasSuperCall, Arms.leaves, Nodes.hasSuperCall_eq_any body,
      Arms.hasSuperCall_eq_any rest]
termination_by structural arms

end

mutual

private theorem Node.leaves_mark {New : Type} (new : New) (node : Node Mark) :
    Node.leaves (Node.mark new node) = Node.leaves node := by
  cases node <;> simp [Node.mark, Node.leaves, Nodes.leaves_mark, Arms.leaves_mark]
termination_by structural node

/-- Marks leave the leaves alone. -/
theorem Nodes.leaves_mark {New : Type} (new : New) (nodes : Nodes Mark) :
    Nodes.leaves (Nodes.mark new nodes) = Nodes.leaves nodes := by
  cases nodes <;> simp [Nodes.mark, Nodes.leaves, Node.leaves_mark, Nodes.leaves_mark]
termination_by structural nodes

private theorem Arms.leaves_mark {New : Type} (new : New) (arms : Arms Mark) :
    Arms.leaves (Arms.mark new arms) = Arms.leaves arms := by
  match arms with
  | [] => rfl
  | (_, body) :: rest =>
    simp [Arms.mark, Arms.leaves, Nodes.leaves_mark new body, Arms.leaves_mark new rest]
termination_by structural arms

end

mutual

private theorem Node.mem_leaves_of_block {block : Block Mark} {node : Node Mark}
    (hblock : block ∈ Node.blocks node) {leaf : Leaf} (hleaf : leaf ∈ Nodes.leaves block.body) :
    leaf ∈ Node.leaves node := by
  cases node with
  | leaf other => cases hblock
  | block mark name body =>
    rcases List.mem_cons.mp hblock with rfl | hblock
    · exact hleaf
    · exact Nodes.mem_leaves_of_block hblock hleaf
  | conditional condition body arms otherwise =>
    simp only [Node.blocks, Node.leaves, List.mem_append] at hblock ⊢
    rcases hblock with (hblock | hblock) | hblock
    · exact .inl (.inl (Nodes.mem_leaves_of_block hblock hleaf))
    · exact .inl (.inr (Arms.mem_leaves_of_block hblock hleaf))
    · exact .inr (Nodes.mem_leaves_of_block hblock hleaf)
  | loop targets iterable body otherwise =>
    simp only [Node.blocks, Node.leaves, List.mem_append] at hblock ⊢
    rcases hblock with hblock | hblock
    · exact .inl (Nodes.mem_leaves_of_block hblock hleaf)
    · exact .inr (Nodes.mem_leaves_of_block hblock hleaf)
  | group body => exact Nodes.mem_leaves_of_block hblock hleaf
termination_by structural node

/-- The leaves of a tree's blocks are leaves of the tree. -/
theorem Nodes.mem_leaves_of_block {block : Block Mark} {nodes : Nodes Mark}
    (hblock : block ∈ Nodes.blocks nodes) {leaf : Leaf} (hleaf : leaf ∈ Nodes.leaves block.body) :
    leaf ∈ Nodes.leaves nodes := by
  cases nodes with
  | nil => cases hblock
  | cons node rest =>
    simp only [Nodes.blocks, Nodes.leaves, List.mem_append] at hblock ⊢
    rcases hblock with hblock | hblock
    · exact .inl (Node.mem_leaves_of_block hblock hleaf)
    · exact .inr (Nodes.mem_leaves_of_block hblock hleaf)
termination_by structural nodes

private theorem Arms.mem_leaves_of_block {block : Block Mark} {arms : Arms Mark}
    (hblock : block ∈ Arms.blocks arms) {leaf : Leaf} (hleaf : leaf ∈ Nodes.leaves block.body) :
    leaf ∈ Arms.leaves arms := by
  match arms with
  | [] => cases hblock
  | (_, body) :: rest =>
    simp only [Arms.blocks, Arms.leaves, List.mem_append] at hblock ⊢
    rcases hblock with hblock | hblock
    · exact .inl (Nodes.mem_leaves_of_block hblock hleaf)
    · exact .inr (Arms.mem_leaves_of_block hblock hleaf)
termination_by structural arms

end

/-- The leaves of a sequence are those of its nodes. -/
theorem Nodes.leaves_eq_flatMap (nodes : Nodes Mark) :
    Nodes.leaves nodes = nodes.flatMap Node.leaves := by
  induction nodes with
  | nil => rfl
  | cons node rest ih => simp [Nodes.leaves, ih]

end Listing

/-! ### Leaves of a merged tree -/

section Overlay

variable {own : SortedMap (Nodes Unit)} {level : Nat} {p : Leaf → Prop}

mutual

private theorem Node.forall_leaves_overlay
    (hown : ∀ name body, own.get? name = some body → ∀ leaf ∈ Nodes.leaves body, p leaf)
    (node : Node Nat) (hnode : ∀ leaf ∈ Node.leaves node, p leaf) :
    ∀ leaf ∈ Node.leaves (Node.overlayMarked own level node), p leaf := by
  cases node with
  | leaf leaf => exact hnode
  | block mark name body =>
    simp only [Node.overlayMarked]
    split
    · next replacement hget =>
      simp only [Node.leaves, Nodes.leaves_mark]
      exact hown name replacement hget
    · exact Nodes.forall_leaves_overlay hown body hnode
  | conditional condition body arms otherwise =>
    simp only [Node.overlayMarked, Node.leaves, List.forall_mem_append] at hnode ⊢
    exact ⟨⟨Nodes.forall_leaves_overlay hown body hnode.1.1,
      Arms.forall_leaves_overlay hown arms hnode.1.2⟩,
      Nodes.forall_leaves_overlay hown otherwise hnode.2⟩
  | loop targets iterable body otherwise =>
    simp only [Node.overlayMarked, Node.leaves, List.forall_mem_append] at hnode ⊢
    exact ⟨Nodes.forall_leaves_overlay hown body hnode.1,
      Nodes.forall_leaves_overlay hown otherwise hnode.2⟩
  | group body => exact Nodes.forall_leaves_overlay hown body hnode
termination_by structural node

/-- What holds of the leaves of a tree and of an overlay's own blocks holds after the overlay. -/
theorem Nodes.forall_leaves_overlay
    (hown : ∀ name body, own.get? name = some body → ∀ leaf ∈ Nodes.leaves body, p leaf)
    (nodes : Nodes Nat) (hnodes : ∀ leaf ∈ Nodes.leaves nodes, p leaf) :
    ∀ leaf ∈ Nodes.leaves (Nodes.overlayMarked own level nodes), p leaf := by
  cases nodes with
  | nil => exact hnodes
  | cons node rest =>
    simp only [Nodes.overlayMarked, Nodes.leaves, List.forall_mem_append] at hnodes ⊢
    exact ⟨Node.forall_leaves_overlay hown node hnodes.1,
      Nodes.forall_leaves_overlay hown rest hnodes.2⟩
termination_by structural nodes

private theorem Arms.forall_leaves_overlay
    (hown : ∀ name body, own.get? name = some body → ∀ leaf ∈ Nodes.leaves body, p leaf)
    (arms : Arms Nat) (harms : ∀ leaf ∈ Arms.leaves arms, p leaf) :
    ∀ leaf ∈ Arms.leaves (Arms.overlayMarked own level arms), p leaf := by
  match arms with
  | [] => exact harms
  | (_, body) :: rest =>
    simp only [Arms.overlayMarked, Arms.leaves, List.forall_mem_append] at harms ⊢
    exact ⟨Nodes.forall_leaves_overlay hown body harms.1,
      Arms.forall_leaves_overlay hown rest harms.2⟩
termination_by structural arms

end

end Overlay

private theorem forall_leaves_layeredMarked {p : Leaf → Prop} (level : Nat) (t : Template)
    (ancestors : List Template)
    (htemplates : ∀ s ∈ t :: ancestors, ∀ leaf ∈ Nodes.leaves s.nodes, p leaf) :
    ∀ leaf ∈ Nodes.leaves (layeredMarked level t ancestors), p leaf := by
  induction ancestors generalizing level t with
  | nil =>
    rw [layeredMarked, Nodes.leaves_mark]
    exact htemplates t List.mem_cons_self
  | cons parent ancestors ih =>
    refine Nodes.forall_leaves_overlay (fun name body hown leaf hleaf ↦ ?_) _
      (ih (level + 1) parent fun s hmem ↦ htemplates s (.tail _ hmem))
    have hblock := Nodes.outermost_subset (Nodes.mem_outermost_of_ownBlocks hown)
    exact htemplates t List.mem_cons_self leaf (Nodes.mem_leaves_of_block hblock hleaf)

namespace Hierarchy

/-- What holds of the leaves of all templates holds of those of the merged tree. -/
theorem forall_leaves_merged {p : Leaf → Prop} (h : Hierarchy)
    (htemplates : ∀ t ∈ h.templates, ∀ leaf ∈ Nodes.leaves t.nodes, p leaf) :
    ∀ leaf ∈ Nodes.leaves h.merged, p leaf := by
  intro leaf hmem
  rw [merged_eq_hoist, Nodes.leaves_eq_flatMap, List.mem_flatMap] at hmem
  obtain ⟨node, hnode, hleaf⟩ := hmem
  rcases mem_hoist_iff.mp hnode with himport | hlayered
  · have himports : leaf ∈ Nodes.leaves h.imports := by
      rw [← Nodes.leaves_mark 0, Nodes.leaves_eq_flatMap]
      exact List.mem_flatMap.mpr ⟨node, himport, hleaf⟩
    rw [Nodes.leaves_eq_flatMap, List.mem_flatMap] at himports
    obtain ⟨source, hsource, hleaf⟩ := himports
    obtain ⟨t, ht, hfilter⟩ := List.mem_flatMap.mp hsource
    refine htemplates t ((List.dropLast_sublist _).subset ht) leaf ?_
    rw [Nodes.leaves_eq_flatMap]
    exact List.mem_flatMap.mpr ⟨source, (List.mem_filter.mp hfilter).1, hleaf⟩
  · refine forall_leaves_layeredMarked 0 h.leaf h.ancestors htemplates leaf ?_
    rw [Nodes.leaves_eq_flatMap]
    exact List.mem_flatMap.mpr ⟨node, hlayered, hleaf⟩

end Hierarchy

/-! ### Nothing to substitute -/

section Fill

variable {Mark : Type} {m : Type → Type} [Monad m] [MonadExceptOf ResolveError m]
  {call : String → Mark → m (Node Unit)}

private theorem Leaf.fill_of_plain {around : Option (String × Mark)} {leaf : Leaf}
    (hplain : leaf.isSuperCall = false) : leaf.fill call around = pure (.leaf leaf) := by
  cases leaf with
  | output expr location =>
    have hsuper : expr.isSuper = false := hplain
    simp [fill, superCall?, hsuper]
  | _ => rfl

variable [LawfulMonad m]

mutual

private theorem Node.fill_of_plain {around : Option (String × Mark)} {node : Node Mark}
    (hplain : ∀ leaf ∈ Node.leaves node, leaf.isSuperCall = false) :
    Node.fill call around node = pure (Node.mark () node) := by
  cases node with
  | leaf leaf => exact Leaf.fill_of_plain (hplain leaf List.mem_cons_self)
  | block mark name body =>
    rw [Node.fill, Nodes.fill_of_plain hplain, pure_bind, Node.mark]
  | conditional condition body arms otherwise =>
    simp only [Node.leaves, List.forall_mem_append] at hplain
    rw [Node.fill, Nodes.fill_of_plain hplain.1.1, pure_bind, Arms.fill_of_plain hplain.1.2,
      pure_bind, Nodes.fill_of_plain hplain.2, pure_bind, Node.mark]
  | loop targets iterable body otherwise =>
    simp only [Node.leaves, List.forall_mem_append] at hplain
    rw [Node.fill, Nodes.fill_of_plain hplain.1, pure_bind, Nodes.fill_of_plain hplain.2,
      pure_bind, Node.mark]
  | group body => rw [Node.fill, Nodes.fill_of_plain hplain, pure_bind, Node.mark]
termination_by structural node

/-- A tree without calls only loses its marks. -/
theorem Nodes.fill_of_plain {around : Option (String × Mark)} {nodes : Nodes Mark}
    (hplain : ∀ leaf ∈ Nodes.leaves nodes, leaf.isSuperCall = false) :
    Nodes.fill call around nodes = pure (Nodes.mark () nodes) := by
  cases nodes with
  | nil => rfl
  | cons node rest =>
    simp only [Nodes.leaves, List.forall_mem_append] at hplain
    rw [Nodes.fill, Node.fill_of_plain hplain.1, pure_bind, Nodes.fill_of_plain hplain.2,
      pure_bind, Nodes.mark]
termination_by structural nodes

private theorem Arms.fill_of_plain {around : Option (String × Mark)} {arms : Arms Mark}
    (hplain : ∀ leaf ∈ Arms.leaves arms, leaf.isSuperCall = false) :
    Arms.fill call around arms = pure (Arms.mark () arms) := by
  match arms with
  | [] => rfl
  | (_, body) :: rest =>
    simp only [Arms.leaves, List.forall_mem_append] at hplain
    rw [Arms.fill, Nodes.fill_of_plain hplain.1, pure_bind, Arms.fill_of_plain hplain.2,
      pure_bind, Arms.mark]
termination_by structural arms

end

end Fill

end TemplateInheritance
