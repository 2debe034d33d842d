import TemplateInheritance.Merge.Placement
import TemplateInheritance.Proofs.Building
import TemplateInheritance.Proofs.Merging

/-!
# Merging places every block from the top down

Passes from the root's level down to the requested template leave the tree that places each block
once: with the lowest level that offers it, and the blocks inside from there. The proof goes by the
levels that have been laid over the tree so far: after the pass of `floor`, blocks are placed
among the levels from `floor` on.
-/

namespace TemplateInheritance

/-! ### Walks over placed trees -/

mutual

private theorem Node.place_none (level : Nat) (node : Node Unit) :
    Node.place (fun _ ↦ none) level node = Node.mark level node := by
  cases node <;> simp [Node.place, Node.mark, Nodes.place_none, Arms.place_none]
termination_by structural node

/-- Blocks that no level takes over stay with the level they come from. -/
theorem Nodes.place_none (level : Nat) (nodes : Nodes Unit) :
    Nodes.place (fun _ ↦ none) level nodes = Nodes.mark level nodes := by
  cases nodes <;> simp [Nodes.place, Nodes.mark, Node.place_none, Nodes.place_none]
termination_by structural nodes

private theorem Arms.place_none (level : Nat) (arms : Arms Unit) :
    Arms.place (fun _ ↦ none) level arms = Arms.mark level arms := by
  match arms with
  | [] => rfl
  | (_, body) :: rest =>
    simp [Arms.place, Arms.mark, Nodes.place_none level body, Arms.place_none level rest]
termination_by structural arms

end

/-- What a level laid over a tree does to the answers by which the tree was placed: it takes over
the names that it owns, and walks on inside what takes over any other name. -/
structure Overlays (own : SortedMap (Nodes Unit)) (floor : Nat)
    (before after : String → Option (Nat × Nodes Nat)) : Prop where
  owned : ∀ name body, own.get? name = some body →
    after name = some (floor, Nodes.mark floor body)
  other : ∀ name, own.get? name = none →
    after name = (before name).map fun (level, placed) ↦
      (level, Nodes.overlayMarked own floor placed)

section Overlays

variable {own : SortedMap (Nodes Unit)} {floor : Nat}
variable {before after : String → Option (Nat × Nodes Nat)}

mutual

private theorem Overlays.node (h : Overlays own floor before after) (level : Nat)
    (node : Node Unit) :
    Node.overlayMarked own floor (Node.place before level node) = Node.place after level node := by
  cases node with
  | leaf leaf => rfl
  | block mark name body =>
    cases hown : own.get? name with
    | some replacement =>
      have hafter := h.owned name replacement hown
      cases hbefore : before name <;> simp [Node.place, Node.overlayMarked, hown, hafter, hbefore]
    | none =>
      have hafter := h.other name hown
      cases hbefore : before name <;>
        simp [Node.place, Node.overlayMarked, hown, hafter, hbefore, Overlays.nodes h]
  | conditional condition body arms otherwise =>
    simp [Node.place, Node.overlayMarked, Overlays.nodes h, Overlays.arms h]
  | loop targets iterable body otherwise =>
    simp [Node.place, Node.overlayMarked, Overlays.nodes h]
  | group body => simp [Node.place, Node.overlayMarked, Overlays.nodes h]
termination_by structural node

/-- Laying a level over a placed tree changes the answers by which it is placed. -/
theorem Overlays.nodes (h : Overlays own floor before after) (level : Nat)
    (nodes : Nodes Unit) :
    Nodes.overlayMarked own floor (Nodes.place before level nodes) =
      Nodes.place after level nodes := by
  cases nodes <;> simp [Nodes.place, Nodes.overlayMarked, Overlays.node h, Overlays.nodes h]
termination_by structural nodes

private theorem Overlays.arms (h : Overlays own floor before after) (level : Nat)
    (arms : Arms Unit) :
    Arms.overlayMarked own floor (Arms.place before level arms) = Arms.place after level arms := by
  match arms with
  | [] => rfl
  | (_, body) :: rest =>
    simp [Arms.place, Arms.overlayMarked, Overlays.nodes h level body, Overlays.arms h level rest]
termination_by structural arms

end

end Overlays

/-- Placing leaves declarations where they are. -/
theorem Node.isExtends_place (replacement? : String → Option (Nat × Nodes Nat)) (level : Nat)
    (node : Node Unit) : (Node.place replacement? level node).isExtends = node.isExtends := by
  cases node with
  | leaf leaf => cases leaf <;> rfl
  | block mark name body =>
    simp only [Node.place]
    split <;> rfl
  | conditional | loop | group => rfl

/-- A node is a declaration exactly when it declares a parent. -/
theorem Node.isExtends_eq_isSome {Mark : Type} (node : Node Mark) :
    node.isExtends = node.declaration?.isSome := by
  cases node with
  | leaf leaf => cases leaf <;> rfl
  | block | conditional | loop | group => rfl

namespace Hierarchy

/-! ### Placing among the levels from a floor on -/

/-- The lowest level from `floor` on and under `level` that has an own block of that name. -/
def takeoverFrom? (h : Hierarchy) (floor : Nat) (name : String) (level : Nat) :
    Option (Fin level × Nodes Unit) :=
  (List.finRange level).findSome? fun (lower : Fin level) ↦
    if floor ≤ lower.val then (h.ownBlock? name lower).map fun body ↦ (lower, body) else none

/-- The sequence that comes from `level` with its blocks placed among the levels from `floor`. -/
def placedFrom (h : Hierarchy) (floor level : Nat) (nodes : Nodes Unit) : Nodes Nat :=
  Nodes.place
    (fun name ↦ (h.takeoverFrom? floor name level).map fun (lower, body) ↦
      (lower.val, h.placedFrom floor lower body))
    level nodes
termination_by level
decreasing_by exact lower.isLt

variable (h : Hierarchy)

private theorem le_of_takeoverFrom? {floor level : Nat} {name : String} {lower : Fin level}
    {body : Nodes Unit} (hsome : h.takeoverFrom? floor name level = some (lower, body)) :
    floor ≤ lower.val := by
  obtain ⟨other, -, hother⟩ := List.exists_of_findSome?_eq_some hsome
  split at hother
  · next hle =>
    obtain ⟨_, -, hpair⟩ := Option.map_eq_some_iff.mp hother
    obtain rfl : other = lower := congrArg Prod.fst hpair
    exact hle
  · cases hother

private theorem takeoverFrom?_of_own {floor level : Nat} {name : String} {body : Nodes Unit}
    (hlt : floor < level) (hown : h.ownBlock? name floor = some body) :
    h.takeoverFrom? floor name level = some (⟨floor, hlt⟩, body) := by
  obtain ⟨front, back, hsplit⟩ := List.append_of_mem (List.mem_finRange (⟨floor, hlt⟩ : Fin level))
  refine List.findSome?_eq_some_iff.mpr ⟨front, ⟨floor, hlt⟩, back, hsplit, by simp [hown], ?_⟩
  intro lower hmem
  have hsorted := List.pairwise_lt_finRange level
  rw [hsplit, List.pairwise_append] at hsorted
  have hlower : lower.val < floor := hsorted.2.2 lower hmem _ List.mem_cons_self
  rw [if_neg (by omega)]

private theorem takeoverFrom?_of_not_own {floor : Nat} {name : String} (level : Nat)
    (hown : h.ownBlock? name floor = none) :
    h.takeoverFrom? floor name level = h.takeoverFrom? (floor + 1) name level := by
  unfold takeoverFrom?
  congr 1
  funext lower
  by_cases heq : lower.val = floor
  · simp [heq, hown]
  · have : floor ≤ lower.val ↔ floor + 1 ≤ lower.val := by omega
    simp only [this]

private theorem takeoverFrom?_eq_none {floor level : Nat} (hle : level ≤ floor) (name : String) :
    h.takeoverFrom? floor name level = none := by
  refine List.findSome?_eq_none_iff.mpr fun lower _ ↦ if_neg ?_
  have := lower.isLt
  omega

/-- Without a level to take blocks over, every block stays with its own. -/
theorem placedFrom_of_le {floor level : Nat} (hle : level ≤ floor) (nodes : Nodes Unit) :
    h.placedFrom floor level nodes = Nodes.mark level nodes := by
  rw [placedFrom]
  simp only [h.takeoverFrom?_eq_none hle, Option.map_none, Nodes.place_none]

/-- From level zero on, every level takes part. -/
theorem placedFrom_zero (level : Nat) (nodes : Nodes Unit) :
    h.placedFrom 0 level nodes = h.placed level nodes := by
  induction level using Nat.strongRecOn generalizing nodes with
  | ind level ih =>
    have htakeover (name : String) : h.takeoverFrom? 0 name level = h.takeover? name level := by
      simp [takeoverFrom?, takeover?]
    rw [placedFrom, placed]
    congr 1
    funext name
    rw [htakeover]
    refine Option.map_congr fun (lower, body) _ ↦ ?_
    exact Prod.ext rfl (ih lower lower.isLt body)

/-- One more level laid over the tree: `floor` takes part in the placing. -/
theorem overlayMarked_placedFrom {floor : Nat} {t : Template} (ht : h.templates[floor]? = some t)
    {level : Nat} (hlt : floor < level) (nodes : Nodes Unit) :
    Nodes.overlayMarked (Nodes.ownBlocks t.nodes) floor (h.placedFrom (floor + 1) level nodes) =
      h.placedFrom floor level nodes := by
  have hown (name : String) :
      h.ownBlock? name floor = (Nodes.ownBlocks t.nodes).get? name := by
    simp [ownBlock?, ht]
  induction level using Nat.strongRecOn generalizing nodes with
  | ind level ih =>
    rw [placedFrom, placedFrom]
    refine Overlays.nodes ⟨fun name body hbody ↦ ?_, fun name hnone ↦ ?_⟩ level nodes
    · rw [h.takeoverFrom?_of_own hlt ((hown name).trans hbody)]
      simp [h.placedFrom_of_le (Nat.le_refl floor)]
    · rw [h.takeoverFrom?_of_not_own level ((hown name).trans hnone), Option.map_map]
      refine Option.map_congr fun (lower, body) hmem ↦ ?_
      have hfloor : floor + 1 ≤ lower.val := h.le_of_takeoverFrom? hmem
      simp only [Function.comp]
      rw [ih lower lower.isLt hfloor body]

/-! ### The merged tree -/

/-- The layers from some level up are the root's tree, placed among the levels from there on. -/
theorem layeredMarked_eq_placedFrom (floor : Nat) {t : Template} {ancestors : List Template}
    (hdrop : h.templates.drop floor = t :: ancestors) :
    layeredMarked floor t ancestors = h.placedFrom floor h.ancestors.length h.root.nodes := by
  have hlength : floor + ancestors.length = h.ancestors.length := by
    have := congrArg List.length hdrop
    simp [templates] at this
    omega
  induction ancestors generalizing floor t with
  | nil =>
    have hroot : h.root = t := by
      have hlast : (h.templates.drop floor).getLast? = some h.root := by
        rw [List.getLast?_drop, if_neg (by simp [templates]; omega)]
        simp [templates, root, List.getLast?_cons]
      simpa [hdrop] using hlast.symm
    rw [← hlength, layeredMarked, hroot]
    exact (h.placedFrom_of_le (Nat.le_refl floor) t.nodes).symm
  | cons parent ancestors ih =>
    have hlevels : floor + 1 + ancestors.length = h.ancestors.length := by
      rw [← hlength, List.length_cons]
      omega
    rw [layeredMarked, ih (floor + 1) (drop_succ_of_drop hdrop) hlevels]
    exact h.overlayMarked_placedFrom (getElem?_of_drop hdrop) (by omega) h.root.nodes

/-- The layers over all levels are the root's tree with its blocks placed. -/
theorem layeredMarked_eq_placed :
    layeredMarked 0 h.leaf h.ancestors = h.placed h.ancestors.length h.root.nodes := by
  rw [h.layeredMarked_eq_placedFrom 0 rfl, h.placedFrom_zero]

variable {h}

private theorem hoist_placed {nodes : Nodes Unit}
    (hroot : nodes.findSome? Node.declaration? = none) (imports : Nodes Unit) (level : Nat) :
    hoist imports (Nodes.unmarked (h.placed level nodes)) =
      imports ++ Nodes.unmarked (h.placed level nodes) := by
  rw [placed]
  cases nodes with
  | nil => simp [Nodes.place, Nodes.unmarked, Nodes.mark, hoist]
  | cons first rest =>
    have hfirst : first.isExtends = false := by
      rw [Node.isExtends_eq_isSome, List.findSome?_eq_none_iff.mp hroot first List.mem_cons_self]
      rfl
    simp only [Nodes.place, Nodes.unmarked, Nodes.mark, hoist, Node.isExtends_mark,
      Node.isExtends_place, hfirst]
    rfl

/-- The merged template of a built hierarchy is the root's tree with every block placed from the
root's level down, behind the imports of the templates below the root. Its origins are the levels
that the blocks were placed with. -/
theorem mergeTraced_eq_placed {loader : Loader} {evaluate : Evaluator} {context : Context}
    {t : Template} (hbuild : (build loader evaluate context t).outcome = .ok h) :
    h.mergeTraced =
      (⟨t.name, h.imports ++ Nodes.unmarked (h.placed h.ancestors.length h.root.nodes)⟩,
        Nodes.origins (h.placed h.ancestors.length h.root.nodes)) := by
  have hleaf : h.leaf = t := ((build_eq_ok_iff _ _).mp hbuild).1
  have hroot : h.root.nodes.findSome? Node.declaration? = none := declaration?_root_of_build hbuild
  simp only [mergeTraced, layered_eq_marked]
  rw [layeredMarked_eq_placed, hoist_placed hroot, hleaf]

end Hierarchy

/-! ### A page with blocks in blocks -/

namespace NestedPage

/-- Two blocks named alike, one inside another block and one in a branch. -/
def root : Template :=
  ⟨"root",
    [.named "page" [.named "body" [.text "root"]],
      .conditional (.var "extra") [.named "body" [.superCall]] [] [.named "foot" []]]⟩

/-- Replaces the outer block and brings a new inner one. -/
def middle : Template :=
  ⟨"middle",
    [.extending "root", .leaf (.importAs (.literal (.string "forms")) "forms"),
      .named "page"
        [.named "foot" [.text "middle", .superCall], .named "body" [.text "middle ", .superCall]]]⟩

/-- Replaces the inner blocks. -/
def leaf : Template :=
  ⟨"leaf",
    [.extending "middle", .leaf (.importNames (.literal (.string "icons")) [⟨"star", none⟩]),
      .named "body" [.text "leaf ", .superCall]]⟩

def hierarchy : Hierarchy := ⟨leaf, [middle, root]⟩

def loader : Loader := { Loader.empty with stored := [⟨root, 1⟩, ⟨middle, 2⟩, ⟨leaf, 3⟩] }

/-- Imports come first, the leaf's before those of the middle template; the blocks of the leaf stand
in the middle's block and in the root's branch. -/
theorem mergeTraced_hierarchy :
    (Hierarchy.build loader .standard ∅ leaf).outcome = .ok hierarchy ∧
      hierarchy.mergeTraced =
        (⟨"leaf",
          [.leaf (.importNames (.literal (.string "icons")) [⟨"star", none⟩]),
            .leaf (.importAs (.literal (.string "forms")) "forms"),
            .named "page"
              [.named "foot" [.text "middle", .superCall],
                .named "body" [.text "leaf ", .superCall]],
            .conditional (.var "extra") [.named "body" [.text "leaf ", .superCall]] []
              [.named "foot" []]]⟩,
          [.mk 1 [.mk 1 [], .mk 0 []], .mk 0 [], .mk 2 []]) := by
  have hbuild : (Hierarchy.build loader .standard ∅ leaf).outcome = .ok hierarchy := by
    decide +kernel
  refine ⟨hbuild, (Hierarchy.mergeTraced_eq_placed hbuild).trans ?_⟩
  cbv

end NestedPage

end TemplateInheritance
