import TemplateInheritance.Merge.Overlay

/-!
# Merging as one pass over a marked tree

A walk that keeps a tree and the origins of its blocks apart, joined by a cursor, does what the
same walk does on the tree whose blocks carry their levels as marks. Everything else about merging
is shown for marked trees.
-/

namespace TemplateInheritance

mutual

/-- Lay the own blocks of a level over a marked node. -/
def Node.overlayMarked (own : SortedMap (Nodes Unit)) (level : Nat) : Node Nat → Node Nat
  | .leaf leaf => .leaf leaf
  | .block mark name body =>
    match own.get? name with
    | some replacement => .block level name (Nodes.mark level replacement)
    | none => .block mark name (Nodes.overlayMarked own level body)
  | .conditional condition body arms otherwise =>
    .conditional condition (Nodes.overlayMarked own level body)
      (Arms.overlayMarked own level arms) (Nodes.overlayMarked own level otherwise)
  | .loop targets iterable body otherwise =>
    .loop targets iterable (Nodes.overlayMarked own level body)
      (Nodes.overlayMarked own level otherwise)
  | .group body => .group (Nodes.overlayMarked own level body)
termination_by structural node => node

/-- Lay the own blocks of a level over a marked sequence. -/
def Nodes.overlayMarked (own : SortedMap (Nodes Unit)) (level : Nat) : Nodes Nat → Nodes Nat
  | [] => []
  | node :: rest => Node.overlayMarked own level node :: Nodes.overlayMarked own level rest
termination_by structural nodes => nodes

/-- Lay the own blocks of a level over marked arms. -/
def Arms.overlayMarked (own : SortedMap (Nodes Unit)) (level : Nat) : Arms Nat → Arms Nat
  | [] => []
  | (condition, body) :: rest =>
    (condition, Nodes.overlayMarked own level body) :: Arms.overlayMarked own level rest
termination_by structural arms => arms

end

/-- The merged tree of a template at some level and its ancestors, marked. -/
def layeredMarked (level : Nat) (t : Template) : List Template → Nodes Nat
  | [] => Nodes.mark level t.nodes
  | parent :: ancestors =>
    Nodes.overlayMarked (Nodes.ownBlocks t.nodes) level (layeredMarked (level + 1) parent ancestors)

/-! ### Origins and marks -/

mutual

private theorem Node.origins_mark (level : Nat) (node : Node Unit) :
    Node.origins (Node.mark level node) = Node.originsFrom level node := by
  cases node <;>
    simp [Node.mark, Node.origins, Node.originsFrom, Nodes.origins_mark, Arms.origins_mark]
termination_by structural node

/-- The origins of a tree that carries one mark throughout. -/
theorem Nodes.origins_mark (level : Nat) (nodes : Nodes Unit) :
    Nodes.origins (Nodes.mark level nodes) = Nodes.originsFrom level nodes := by
  cases nodes <;>
    simp [Nodes.mark, Nodes.origins, Nodes.originsFrom, Node.origins_mark, Nodes.origins_mark]
termination_by structural nodes

private theorem Arms.origins_mark (level : Nat) (arms : Arms Unit) :
    Arms.origins (Arms.mark level arms) = Arms.originsFrom level arms := by
  match arms with
  | [] => rfl
  | (_, body) :: rest =>
    simp [Arms.mark, Arms.origins, Arms.originsFrom, Nodes.origins_mark level body,
      Arms.origins_mark level rest]
termination_by structural arms

end

mutual

private theorem Node.mark_unit (node : Node Unit) : Node.mark () node = node := by
  cases node <;> simp [Node.mark, Nodes.mark_unit, Arms.mark_unit]
termination_by structural node

/-- A tree without marks has nothing to take off. -/
theorem Nodes.mark_unit (nodes : Nodes Unit) : Nodes.mark () nodes = nodes := by
  cases nodes <;> simp [Nodes.mark, Node.mark_unit, Nodes.mark_unit]
termination_by structural nodes

private theorem Arms.mark_unit (arms : Arms Unit) : Arms.mark () arms = arms := by
  match arms with
  | [] => rfl
  | (_, body) :: rest => simp [Arms.mark, Nodes.mark_unit body, Arms.mark_unit rest]
termination_by structural arms

end

/-! ### The cursor -/

section Cursor

variable (own : SortedMap (Nodes Unit)) (level : Nat)

mutual

-- The cursor stands behind the origins of the blocks that the walk has passed. Each node moves it
-- behind its own origins and leaves those after them alone.
private theorem Node.overlay_mark (node : Node Nat) (before after : List Origin) :
    Node.overlay own level (Node.mark () node)
        (before ++ (Node.origins node ++ after)) before.length =
      (Node.mark () (Node.overlayMarked own level node),
        before ++ (Node.origins (Node.overlayMarked own level node) ++ after),
        (before ++ Node.origins (Node.overlayMarked own level node)).length) := by
  cases node with
  | leaf leaf => simp [Node.mark, Node.origins, Node.overlay, Node.overlayMarked]
  | block mark name body =>
    cases hown : own.get? name with
    | some replacement =>
      simp [Node.mark, Node.origins, Node.overlay, Node.overlayMarked, hown,
        Nodes.mark_mark, Nodes.mark_unit, Nodes.origins_mark]
    | none =>
      have hbody := Nodes.overlay_mark body [] []
      simp at hbody
      simp [Node.mark, Node.origins, Node.overlay, Node.overlayMarked, hown, Origin.nested,
        Origin.level, hbody]
  | conditional condition body arms otherwise =>
    have hbody := Nodes.overlay_mark body before
      (Arms.origins arms ++ (Nodes.origins otherwise ++ after))
    have harms := Arms.overlay_mark arms
      (before ++ Nodes.origins (Nodes.overlayMarked own level body))
      (Nodes.origins otherwise ++ after)
    have hotherwise := Nodes.overlay_mark otherwise
      (before ++ Nodes.origins (Nodes.overlayMarked own level body) ++
        Arms.origins (Arms.overlayMarked own level arms)) after
    simp only [List.append_assoc] at hbody harms hotherwise
    simp only [Node.mark, Node.origins, Node.overlay, Node.overlayMarked, List.append_assoc]
    rw [hbody, harms, hotherwise]
  | loop targets iterable body otherwise =>
    have hbody := Nodes.overlay_mark body before (Nodes.origins otherwise ++ after)
    have hotherwise := Nodes.overlay_mark otherwise
      (before ++ Nodes.origins (Nodes.overlayMarked own level body)) after
    simp only [List.append_assoc] at hbody hotherwise
    simp only [Node.mark, Node.origins, Node.overlay, Node.overlayMarked, List.append_assoc]
    rw [hbody, hotherwise]
  | group body =>
    have hbody := Nodes.overlay_mark body before after
    simp only [Node.mark, Node.origins, Node.overlay, Node.overlayMarked]
    rw [hbody]
termination_by structural node

private theorem Nodes.overlay_mark (nodes : Nodes Nat) (before after : List Origin) :
    Nodes.overlay own level (Nodes.mark () nodes)
        (before ++ (Nodes.origins nodes ++ after)) before.length =
      (Nodes.mark () (Nodes.overlayMarked own level nodes),
        before ++ (Nodes.origins (Nodes.overlayMarked own level nodes) ++ after),
        (before ++ Nodes.origins (Nodes.overlayMarked own level nodes)).length) := by
  cases nodes with
  | nil => simp [Nodes.mark, Nodes.origins, Nodes.overlay, Nodes.overlayMarked]
  | cons node rest =>
    have hnode := Node.overlay_mark node before (Nodes.origins rest ++ after)
    have hrest := Nodes.overlay_mark rest
      (before ++ Node.origins (Node.overlayMarked own level node)) after
    simp only [List.append_assoc] at hnode hrest
    simp only [Nodes.mark, Nodes.origins, Nodes.overlay, Nodes.overlayMarked, List.append_assoc]
    rw [hnode, hrest]
termination_by structural nodes

private theorem Arms.overlay_mark (arms : Arms Nat) (before after : List Origin) :
    Arms.overlay own level (Arms.mark () arms)
        (before ++ (Arms.origins arms ++ after)) before.length =
      (Arms.mark () (Arms.overlayMarked own level arms),
        before ++ (Arms.origins (Arms.overlayMarked own level arms) ++ after),
        (before ++ Arms.origins (Arms.overlayMarked own level arms)).length) := by
  match arms with
  | [] => simp [Arms.mark, Arms.origins, Arms.overlay, Arms.overlayMarked]
  | (condition, body) :: rest =>
    have hbody := Nodes.overlay_mark body before (Arms.origins rest ++ after)
    have hrest := Arms.overlay_mark rest
      (before ++ Nodes.origins (Nodes.overlayMarked own level body)) after
    simp only [List.append_assoc] at hbody hrest
    simp only [Arms.mark, Arms.origins, Arms.overlay, Arms.overlayMarked, List.append_assoc]
    rw [hbody, hrest]
termination_by structural arms

end

end Cursor

/-! ### The layered tree -/

mutual

private theorem Node.overlayMarked_of_none {own : SortedMap (Nodes Unit)}
    (hown : ∀ name, own.get? name = none) (level : Nat) (node : Node Nat) :
    Node.overlayMarked own level node = node := by
  cases node <;>
    simp [Node.overlayMarked, hown, Nodes.overlayMarked_of_none hown,
      Arms.overlayMarked_of_none hown]
termination_by structural node

private theorem Nodes.overlayMarked_of_none {own : SortedMap (Nodes Unit)}
    (hown : ∀ name, own.get? name = none) (level : Nat) (nodes : Nodes Nat) :
    Nodes.overlayMarked own level nodes = nodes := by
  cases nodes <;>
    simp [Nodes.overlayMarked, Node.overlayMarked_of_none hown, Nodes.overlayMarked_of_none hown]
termination_by structural nodes

private theorem Arms.overlayMarked_of_none {own : SortedMap (Nodes Unit)}
    (hown : ∀ name, own.get? name = none) (level : Nat) (arms : Arms Nat) :
    Arms.overlayMarked own level arms = arms := by
  match arms with
  | [] => rfl
  | (_, body) :: rest =>
    simp [Arms.overlayMarked, Nodes.overlayMarked_of_none hown level body,
      Arms.overlayMarked_of_none hown level rest]
termination_by structural arms

end

/-- The layered tree and its origins are the two halves of the marked one. -/
theorem layered_eq_marked (level : Nat) (t : Template) (ancestors : List Template) :
    layered level t ancestors =
      (Nodes.unmarked (layeredMarked level t ancestors),
        Nodes.origins (layeredMarked level t ancestors)) := by
  induction ancestors generalizing level t with
  | nil =>
    simp [layered, layeredMarked, Nodes.unmarked, Nodes.mark_mark, Nodes.mark_unit,
      Nodes.origins_mark]
  | cons parent ancestors ih =>
    simp only [layered, layeredMarked, ih]
    split
    · next hempty =>
      have hnone (name : String) : (Nodes.ownBlocks t.nodes).get? name = none := by
        rw [SortedMap.get?, List.isEmpty_iff.mp hempty]
        rfl
      rw [Nodes.overlayMarked_of_none hnone]
    · have hwalk := Nodes.overlay_mark (Nodes.ownBlocks t.nodes) level
        (layeredMarked (level + 1) parent ancestors) [] []
      simp only [List.append_nil, List.nil_append, List.length_nil] at hwalk
      simp only [Nodes.unmarked, hwalk]

/-! ### Hoisted imports -/

theorem Nodes.mark_eq_map {Mark New : Type} (new : New) (nodes : Nodes Mark) :
    Nodes.mark new nodes = nodes.map (Node.mark new) := by
  induction nodes with
  | nil => rfl
  | cons node rest ih => simp [Nodes.mark, ih]

theorem Nodes.origins_append (front back : Nodes Nat) :
    Nodes.origins (front ++ back) = Nodes.origins front ++ Nodes.origins back := by
  induction front with
  | nil => rfl
  | cons node front ih => simp [Nodes.origins, ih]

/-- A mark changes nothing about declarations. -/
theorem Node.isExtends_mark {Mark New : Type} (new : New) (node : Node Mark) :
    (Node.mark new node).isExtends = node.isExtends := by
  cases node with
  | leaf leaf => cases leaf <;> rfl
  | block | conditional | loop | group => rfl

/-- Laying blocks over a node changes nothing about declarations. -/
theorem Node.isExtends_overlay (own : SortedMap (Nodes Unit)) (level : Nat) (node : Node Nat) :
    (Node.overlayMarked own level node).isExtends = node.isExtends := by
  cases node with
  | block mark name body =>
    rw [Node.overlayMarked]
    split <;> rfl
  | leaf | conditional | loop | group => rfl

/-- Hoisting loses and makes no node. -/
theorem mem_hoist_iff {Mark : Type} {imports nodes : Nodes Mark} {node : Node Mark} :
    node ∈ hoist imports nodes ↔ node ∈ imports ∨ node ∈ nodes := by
  cases nodes with
  | nil => simp [hoist]
  | cons first rest =>
    simp only [hoist]
    split
    · simp [or_left_comm]
    · simp

private theorem mark_hoist {Mark New : Type} (new : New) (imports nodes : Nodes Mark) :
    Nodes.mark new (hoist imports nodes) =
      hoist (Nodes.mark new imports) (Nodes.mark new nodes) := by
  cases nodes with
  | nil => simp [hoist, Nodes.mark]
  | cons first rest =>
    simp only [hoist, Nodes.mark, Node.isExtends_mark]
    split <;> simp [Nodes.mark, Nodes.mark_eq_map]

private theorem origins_hoist {imports : Nodes Nat} (himports : Nodes.origins imports = [])
    (nodes : Nodes Nat) : Nodes.origins (hoist imports nodes) = Nodes.origins nodes := by
  cases nodes with
  | nil => simp [hoist, himports, Nodes.origins]
  | cons first rest =>
    simp only [hoist]
    split <;> simp [Nodes.origins, Nodes.origins_append, himports]

/-- Imports are leaves. -/
theorem Node.exists_leaf_of_isImport {Mark : Type} {node : Node Mark}
    (himport : node.isImport = true) : ∃ leaf, node = .leaf leaf ∧ leaf.isImport = true := by
  cases node with
  | leaf leaf => exact ⟨leaf, rfl, himport⟩
  | block | conditional | loop | group => cases himport

private theorem originsFrom_imports (level : Nat) {imports : Nodes Unit}
    (himports : ∀ node ∈ imports, node.isImport = true) : Nodes.originsFrom level imports = [] := by
  induction imports with
  | nil => rfl
  | cons node rest ih =>
    obtain ⟨leaf, rfl, -⟩ := Node.exists_leaf_of_isImport (himports node List.mem_cons_self)
    rw [Nodes.originsFrom, ih fun other hother ↦ himports other (.tail _ hother)]
    rfl

/-- A mark changes nothing about imports. -/
theorem Node.isImport_mark {Mark New : Type} (new : New) (node : Node Mark) :
    (Node.mark new node).isImport = node.isImport := by
  cases node <;> rfl

namespace Hierarchy

variable (h : Hierarchy)

/-- The template of a level comes first among those from the level on. -/
theorem getElem?_of_drop {h : Hierarchy} {level : Nat} {t : Template} {above : List Template}
    (hdrop : h.templates.drop level = t :: above) : h.templates[level]? = some t := by
  have hfirst := congrArg (·[0]?) hdrop
  simpa using hfirst

/-- The templates above a level are those from the next level on. -/
theorem drop_succ_of_drop {h : Hierarchy} {level : Nat} {t : Template} {above : List Template}
    (hdrop : h.templates.drop level = t :: above) : h.templates.drop (level + 1) = above := by
  rw [← List.tail_drop, hdrop, List.tail_cons]

/-- Hoisted nodes are imports. -/
theorem isImport_of_mem_imports {node : Node Unit} (hmem : node ∈ h.imports) :
    node.isImport = true := by
  obtain ⟨t, -, hnode⟩ := List.mem_flatMap.mp hmem
  exact (List.mem_filter.mp hnode).2

/-- Hoisted nodes stay imports when they are marked. -/
theorem isImport_of_mem_mark_imports {Mark : Type} {mark : Mark} {node : Node Mark}
    (hmem : node ∈ Nodes.mark mark h.imports) : node.isImport = true := by
  rw [Nodes.mark_eq_map, List.mem_map] at hmem
  obtain ⟨source, hsource, rfl⟩ := hmem
  rw [Node.isImport_mark]
  exact h.isImport_of_mem_imports hsource

private theorem nodes_mergedTemplate :
    h.mergedTemplate.nodes =
      Nodes.mark () (hoist (Nodes.mark 0 h.imports) (layeredMarked 0 h.leaf h.ancestors)) := by
  rw [mark_hoist, Nodes.mark_mark, Nodes.mark_unit]
  simp [mergedTemplate, mergeTraced, layered_eq_marked, Nodes.unmarked]

private theorem mergedOrigins_eq :
    h.mergedOrigins =
      Nodes.origins (hoist (Nodes.mark 0 h.imports) (layeredMarked 0 h.leaf h.ancestors)) := by
  rw [origins_hoist]
  · simp [mergedOrigins, mergeTraced, layered_eq_marked]
  · rw [Nodes.origins_mark]
    exact originsFrom_imports 0 fun node hmem ↦ h.isImport_of_mem_imports hmem

/-- The merged tree is the layered one with the imports put in front. -/
theorem merged_eq_hoist :
    h.merged = hoist (Nodes.mark 0 h.imports) (layeredMarked 0 h.leaf h.ancestors) := by
  have hback := Nodes.withOrigins_origins
    (hoist (Nodes.mark 0 h.imports) (layeredMarked 0 h.leaf h.ancestors)) []
  rw [merged, h.nodes_mergedTemplate, h.mergedOrigins_eq]
  simpa using congrArg Prod.fst hback

/-- The merged origins list the marks of the merged tree, none too few and none too many. -/
theorem origins_merged : Nodes.origins h.merged = h.mergedOrigins := by
  rw [merged_eq_hoist, mergedOrigins_eq]

/-- The merged template is the merged tree without its marks. -/
theorem mergedTemplate_eq : h.mergedTemplate = ⟨h.leaf.name, Nodes.unmarked h.merged⟩ := by
  rw [merged_eq_hoist, Nodes.unmarked, ← nodes_mergedTemplate]
  rfl

end Hierarchy

end TemplateInheritance
