import TemplateInheritance.Proofs.Limits
import TemplateInheritance.Proofs.Walks

/-!
# One more template below

A template that extends the requested one of a hierarchy makes a hierarchy in which every old level
lies one higher. The merged tree is the old one with its marks raised and the new template's own
blocks laid over it, and a call in a block of an old level stands for what it stood for before.
-/

namespace TemplateInheritance

/-! ### Changing marks -/

section MapMarks

variable {Mark Mid New : Type}

mutual

/-- Change the mark of every block of the node. -/
def Node.mapMarks (f : Mark → New) : Node Mark → Node New
  | .leaf leaf => .leaf leaf
  | .block mark name body => .block (f mark) name (Nodes.mapMarks f body)
  | .conditional condition body arms otherwise =>
    .conditional condition (Nodes.mapMarks f body) (Arms.mapMarks f arms)
      (Nodes.mapMarks f otherwise)
  | .loop targets iterable body otherwise =>
    .loop targets iterable (Nodes.mapMarks f body) (Nodes.mapMarks f otherwise)
  | .group body => .group (Nodes.mapMarks f body)
termination_by structural node => node

/-- Change the mark of every block of the sequence. -/
def Nodes.mapMarks (f : Mark → New) : Nodes Mark → Nodes New
  | [] => []
  | node :: rest => Node.mapMarks f node :: Nodes.mapMarks f rest
termination_by structural nodes => nodes

/-- Change the mark of every block of the arms. -/
def Arms.mapMarks (f : Mark → New) : Arms Mark → Arms New
  | [] => []
  | (condition, body) :: rest => (condition, Nodes.mapMarks f body) :: Arms.mapMarks f rest
termination_by structural arms => arms

end

mutual

private theorem Node.mapMarks_mark (f : Mid → New) (mid : Mid) (node : Node Mark) :
    Node.mapMarks f (Node.mark mid node) = Node.mark (f mid) node := by
  cases node <;> simp [Node.mark, Node.mapMarks, Nodes.mapMarks_mark, Arms.mapMarks_mark]
termination_by structural node

/-- Where all blocks have one mark, they have one mark again. -/
theorem Nodes.mapMarks_mark (f : Mid → New) (mid : Mid) (nodes : Nodes Mark) :
    Nodes.mapMarks f (Nodes.mark mid nodes) = Nodes.mark (f mid) nodes := by
  cases nodes <;> simp [Nodes.mark, Nodes.mapMarks, Node.mapMarks_mark, Nodes.mapMarks_mark]
termination_by structural nodes

private theorem Arms.mapMarks_mark (f : Mid → New) (mid : Mid) (arms : Arms Mark) :
    Arms.mapMarks f (Arms.mark mid arms) = Arms.mark (f mid) arms := by
  match arms with
  | [] => rfl
  | (_, body) :: rest =>
    simp [Arms.mark, Arms.mapMarks, Nodes.mapMarks_mark f mid body, Arms.mapMarks_mark f mid rest]
termination_by structural arms

end

mutual

private theorem Node.overlay_mapMarks (own : SortedMap (Nodes Unit)) (f : Nat → Nat) (level : Nat)
    (node : Node Nat) :
    Node.overlayMarked own (f level) (Node.mapMarks f node) =
      Node.mapMarks f (Node.overlayMarked own level node) := by
  cases node with
  | block mark name body =>
    simp only [Node.mapMarks, Node.overlayMarked]
    cases own.get? name <;>
      simp [Node.mapMarks, Nodes.mapMarks_mark, Nodes.overlay_mapMarks own f level body]
  | leaf | conditional | loop | group =>
    simp [Node.mapMarks, Node.overlayMarked, Nodes.overlay_mapMarks own f level,
      Arms.overlay_mapMarks own f level]
termination_by structural node

/-- It is the same to lay blocks over a tree before or after its marks change. -/
theorem Nodes.overlay_mapMarks (own : SortedMap (Nodes Unit)) (f : Nat → Nat) (level : Nat)
    (nodes : Nodes Nat) :
    Nodes.overlayMarked own (f level) (Nodes.mapMarks f nodes) =
      Nodes.mapMarks f (Nodes.overlayMarked own level nodes) := by
  cases nodes <;>
    simp [Nodes.mapMarks, Nodes.overlayMarked, Node.overlay_mapMarks own f level,
      Nodes.overlay_mapMarks own f level]
termination_by structural nodes

private theorem Arms.overlay_mapMarks (own : SortedMap (Nodes Unit)) (f : Nat → Nat) (level : Nat)
    (arms : Arms Nat) :
    Arms.overlayMarked own (f level) (Arms.mapMarks f arms) =
      Arms.mapMarks f (Arms.overlayMarked own level arms) := by
  match arms with
  | [] => rfl
  | (_, body) :: rest =>
    simp [Arms.mapMarks, Arms.overlayMarked, Nodes.overlay_mapMarks own f level body,
      Arms.overlay_mapMarks own f level rest]
termination_by structural arms

end

mutual

private theorem Node.replaceCalls_mapMarks (stands : String → New → Node Unit) (f : Mark → New)
    (around : Option (String × Mark)) (node : Node Mark) :
    Node.replaceCalls stands (around.map (Prod.map id f)) (Node.mapMarks f node) =
      Node.replaceCalls (fun name mark ↦ stands name (f mark)) around node := by
  cases node with
  | leaf leaf => cases around <;> rfl
  | block mark name body =>
    simpa [Node.mapMarks, Node.replaceCalls] using
      Nodes.replaceCalls_mapMarks stands f (some (name, mark)) body
  | conditional | loop | group =>
    simp [Node.mapMarks, Node.replaceCalls, Nodes.replaceCalls_mapMarks stands f around,
      Arms.replaceCalls_mapMarks stands f around]
termination_by structural node

/-- A call under a changed mark stands for what the mark was changed to. -/
theorem Nodes.replaceCalls_mapMarks (stands : String → New → Node Unit) (f : Mark → New)
    (around : Option (String × Mark)) (nodes : Nodes Mark) :
    Nodes.replaceCalls stands (around.map (Prod.map id f)) (Nodes.mapMarks f nodes) =
      Nodes.replaceCalls (fun name mark ↦ stands name (f mark)) around nodes := by
  cases nodes <;>
    simp [Nodes.mapMarks, Nodes.replaceCalls, Node.replaceCalls_mapMarks stands f around,
      Nodes.replaceCalls_mapMarks stands f around]
termination_by structural nodes

private theorem Arms.replaceCalls_mapMarks (stands : String → New → Node Unit) (f : Mark → New)
    (around : Option (String × Mark)) (arms : Arms Mark) :
    Arms.replaceCalls stands (around.map (Prod.map id f)) (Arms.mapMarks f arms) =
      Arms.replaceCalls (fun name mark ↦ stands name (f mark)) around arms := by
  match arms with
  | [] => rfl
  | (_, body) :: rest =>
    simp [Arms.mapMarks, Arms.replaceCalls, Nodes.replaceCalls_mapMarks stands f around body,
      Arms.replaceCalls_mapMarks stands f around rest]
termination_by structural arms

end

/-- In a sequence with one mark, calls stand for what they stand for under that mark. -/
theorem Nodes.replaceCalls_mark (stands : String → New → Node Unit) (new : New) (name : String)
    (body : Nodes Unit) :
    Nodes.replaceCalls stands (some (name, new)) (Nodes.mark new body) =
      Nodes.replaceCalls (fun inner (_ : Unit) ↦ stands inner new) (some (name, ())) body := by
  have hmark : Nodes.mark new body = Nodes.mapMarks (fun _ ↦ new) body := by
    rw [← Nodes.mapMarks_mark (fun _ ↦ new) (), Nodes.mark_unit]
  rw [hmark]
  exact Nodes.replaceCalls_mapMarks stands (fun _ ↦ new) (some (name, ())) body

/-- The block with its mark and those of the blocks inside it changed. -/
def Block.mapMarks (f : Mark → New) (block : Block Mark) : Block New :=
  ⟨f block.mark, block.name, Nodes.mapMarks f block.body⟩

mutual

private theorem Node.blocks_mapMarks (f : Mark → New) (node : Node Mark) :
    Node.blocks (Node.mapMarks f node) = (Node.blocks node).map (Block.mapMarks f) := by
  cases node <;>
    simp [Node.mapMarks, Node.blocks, Block.mapMarks, Nodes.blocks_mapMarks f,
      Arms.blocks_mapMarks f]
termination_by structural node

theorem Nodes.blocks_mapMarks (f : Mark → New) (nodes : Nodes Mark) :
    Nodes.blocks (Nodes.mapMarks f nodes) = (Nodes.blocks nodes).map (Block.mapMarks f) := by
  cases nodes <;>
    simp [Nodes.mapMarks, Nodes.blocks, Node.blocks_mapMarks f, Nodes.blocks_mapMarks f]
termination_by structural nodes

private theorem Arms.blocks_mapMarks (f : Mark → New) (arms : Arms Mark) :
    Arms.blocks (Arms.mapMarks f arms) = (Arms.blocks arms).map (Block.mapMarks f) := by
  match arms with
  | [] => rfl
  | (_, body) :: rest =>
    simp [Arms.mapMarks, Arms.blocks, Nodes.blocks_mapMarks f body, Arms.blocks_mapMarks f rest]
termination_by structural arms

end

theorem Nodes.mapMarks_eq_map (f : Mark → New) (nodes : Nodes Mark) :
    Nodes.mapMarks f nodes = nodes.map (Node.mapMarks f) := by
  induction nodes with
  | nil => rfl
  | cons node rest ih => simp [Nodes.mapMarks, ih]

theorem Nodes.overlayMarked_eq_map (own : SortedMap (Nodes Unit)) (level : Nat)
    (nodes : Nodes Nat) :
    Nodes.overlayMarked own level nodes = nodes.map (Node.overlayMarked own level) := by
  induction nodes with
  | nil => rfl
  | cons node rest ih => simp [Nodes.overlayMarked, ih]

theorem Node.isExtends_mapMarks (f : Mark → New) (node : Node Mark) :
    (Node.mapMarks f node).isExtends = node.isExtends := by
  cases node with
  | leaf leaf => cases leaf <;> rfl
  | block | conditional | loop | group => rfl

/-- A change of nodes that leaves imports and declarations alone goes past hoisted imports. -/
theorem map_hoist {f : Node Mark → Node Mark} (hleaf : ∀ leaf, f (.leaf leaf) = .leaf leaf)
    (hextends : ∀ node, (f node).isExtends = node.isExtends) {imports : Nodes Mark}
    (himports : ∀ node ∈ imports, node.isImport = true) (nodes : Nodes Mark) :
    (hoist imports nodes).map f = hoist imports (nodes.map f) := by
  have hsame : imports.map f = imports := by
    refine List.map_congr_left (fun node hnode ↦ ?_) |>.trans imports.map_id
    obtain ⟨leaf, rfl, -⟩ := Node.exists_leaf_of_isImport (himports node hnode)
    exact hleaf leaf
  cases nodes with
  | nil => simpa [hoist] using hsame
  | cons first rest =>
    simp only [hoist, List.map_cons, hextends]
    split <;> simp [hsame]

end MapMarks

namespace Hierarchy

/-- The hierarchy of a template whose parent is the requested one. -/
def extendedBy (h : Hierarchy) (t : Template) : Hierarchy := ⟨t, h.templates⟩

variable {h : Hierarchy} {t : Template} {limit : Nat}

/-! ### Levels and definitions -/

theorem definingLevels_extendedBy (name : String) :
    (h.extendedBy t).definingLevels name =
      (if t.defines name then [0] else []) ++ (h.definingLevels name).map (· + 1) := by
  have htemplates : (h.extendedBy t).templates = t :: h.templates := rfl
  rw [definingLevels, definingLevels, htemplates, List.zipIdx_cons, List.zipIdx_succ,
    List.filter_cons, List.filter_map]
  cases hdefines : t.defines name <;> simp [hdefines, Function.comp_def]

/-- The levels above an old one that define a block are the old ones. -/
theorem nextDefinition?_extendedBy (name : String) (level : Nat) :
    (h.extendedBy t).nextDefinition? name (level + 1) =
      (h.nextDefinition? name level).map (· + 1) := by
  rw [nextDefinition?, definingLevels_extendedBy, List.find?_append, List.find?_map]
  have hnone : (if t.defines name then [0] else []).find? (level + 1 < ·) = none := by
    split <;> simp
  have hshift : (fun other : Nat ↦ decide (level + 1 < other)) ∘ (· + 1) = (level < ·) := by
    funext other
    simp
  rw [hnone, Option.none_or, hshift, nextDefinition?]

/-- Above the new template, the first old definition comes next. -/
theorem nextDefinition?_extendedBy_zero (name : String) :
    (h.extendedBy t).nextDefinition? name 0 = (h.definingLevels name).head?.map (· + 1) := by
  rw [nextDefinition?, definingLevels_extendedBy, List.find?_append]
  have hnone : (if t.defines name then [0] else []).find? (0 < ·) = none := by
    split <;> simp
  rw [hnone, Option.none_or]
  cases h.definingLevels name <;> simp

theorem definersBelow_extendedBy_le (h : Hierarchy) (t : Template) (name : String) (level : Nat) :
    (h.extendedBy t).definersBelow name (level + 1) ≤ h.definersBelow name level + 1 := by
  have hfirst : ((if t.defines name then [0] else []).filter (· < level + 1)).length ≤ 1 := by
    split <;> simp
  have hothers : ((h.definingLevels name).map (· + 1)).filter (· < level + 1) =
      ((h.definingLevels name).filter (· < level)).map (· + 1) := by
    simp [List.filter_map, Function.comp_def]
  rw [definersBelow_eq, definersBelow_eq, definingLevels_extendedBy, List.filter_append,
    List.length_append, hothers, List.length_map]
  omega

/-- Old levels are carried one higher, for which the limit has to be larger by one at most. -/
theorem carries_extendedBy (h : Hierarchy) (t : Template) (limit : Nat) :
    h.Carries limit (h.extendedBy t) (limit + 1) (· + 1) where
  below name level hlimit := by
    have := h.definersBelow_extendedBy_le t name level
    omega
  next := nextDefinition?_extendedBy
  body _ _ := rfl

/-- With a limit for all levels but one, a call stands for the body of the next definition, with
the calls of that body replaced as in a block of its level. -/
theorem expansionOr_of_next (hlimit : h.length ≤ limit + 1) {name : String} {level above : Nat}
    (hlevel : level < h.length) (hnext : h.nextDefinition? name level = some above) :
    expansionOr (h.expand limit) name level =
      collapse (Nodes.replaceCalls (expansionOr (h.expand limit)) (some (name, above))
        (Nodes.mark above (h.bodyAt above name))) := by
  have hcalls : ∀ call ∈ Nodes.calls (some (name, ())) (h.bodyAt above name),
      ∃ node, h.expand limit call.1 above = .ok node :=
    fun call _ ↦ exists_expand hlimit call.1 (nextDefinition?_bounds hnext).2
  have hfilled : Nodes.expandCalls (fun inner (_ : Unit) ↦ h.expand limit inner above)
      (some (name, ())) (h.bodyAt above name) =
        .ok (Nodes.replaceCalls (fun inner _ ↦ expansionOr (h.expand limit) inner above)
          (some (name, ())) (h.bodyAt above name)) :=
    Nodes.expandCalls_eq_ok_iff.mpr ⟨hcalls, rfl⟩
  rw [expansionOr, expand_of_next (not_deep hlimit name hlevel) hnext, hfilled,
    Nodes.replaceCalls_mark]
  rfl

/-- With a limit for all levels, calls in blocks of old levels stand for what they stood for. -/
theorem expansionOr_extendedBy (hlimit : h.length ≤ limit) (t : Template) (name : String)
    {level : Nat} (hlevel : level < h.length) :
    expansionOr ((h.extendedBy t).expand limit) name (level + 1) =
      expansionOr (h.expand limit) name level := by
  obtain ⟨smaller, rfl⟩ : ∃ smaller, limit = smaller + 1 := Nat.exists_eq_add_one.mpr (by omega)
  obtain ⟨node, hnode⟩ := exists_expand hlimit name hlevel
  rw [expansionOr, expansionOr, (h.carries_extendedBy t smaller).expand hnode,
    expand_mono (Nat.le_succ smaller) hnode]

/-- A tree of old levels, one level higher, reads on as it did. -/
theorem replaceCalls_extendedBy (hlimit : h.length ≤ limit) (t : Template) {tree : Nodes Nat}
    (hlevels : ∀ block ∈ Nodes.blocks tree, block.mark < h.length) :
    Nodes.replaceCalls (expansionOr ((h.extendedBy t).expand limit)) none
        (Nodes.mapMarks (· + 1) tree) =
      Nodes.replaceCalls (expansionOr (h.expand limit)) none tree := by
  refine (Nodes.replaceCalls_mapMarks _ (· + 1) none tree).trans ?_
  apply Nodes.replaceCalls_congr
  intro call hcall
  rcases Nodes.mem_calls hcall with hnone | ⟨block, hblock, rfl⟩
  · cases hnone
  · exact expansionOr_extendedBy hlimit t block.name (hlevels block hblock)

/-! ### Merging and building -/

theorem layeredMarked_succ (level : Nat) (t : Template) (ancestors : List Template) :
    layeredMarked (level + 1) t ancestors =
      Nodes.mapMarks (· + 1) (layeredMarked level t ancestors) := by
  induction ancestors generalizing level t with
  | nil => exact (Nodes.mapMarks_mark (· + 1) level t.nodes).symm
  | cons parent above ih =>
    rw [layeredMarked, ih, layeredMarked]
    exact Nodes.overlay_mapMarks (Nodes.ownBlocks t.nodes) (· + 1) level _

/-- The merged tree over a template without imports is the old one, one level higher, with the
template's own blocks laid over it. -/
theorem merged_extendedBy (himports : t.nodes.filter Node.isImport = []) :
    (h.extendedBy t).merged =
      Nodes.overlayMarked (Nodes.ownBlocks t.nodes) 0 (Nodes.mapMarks (· + 1) h.merged) := by
  have hsame : (h.extendedBy t).imports = h.imports := by
    simp [Hierarchy.imports, extendedBy, templates, himports]
  have hhoisted : ∀ node ∈ Nodes.mark 0 h.imports, node.isImport = true :=
    fun node hnode ↦ h.isImport_of_mem_mark_imports hnode
  have hraised : Nodes.mapMarks (· + 1) h.merged =
      hoist (Nodes.mark 0 h.imports) (layeredMarked 1 h.leaf h.ancestors) := by
    rw [merged_eq_hoist, Nodes.mapMarks_eq_map, map_hoist (fun _ ↦ rfl)
      (Node.isExtends_mapMarks _) hhoisted, ← Nodes.mapMarks_eq_map, ← layeredMarked_succ]
  rw [hraised, Nodes.overlayMarked_eq_map, map_hoist (fun _ ↦ rfl)
    (Node.isExtends_overlay _ 0) hhoisted, ← Nodes.overlayMarked_eq_map, merged_eq_hoist, hsame]
  rfl

/-- A template with a new name that extends the requested one is built on its hierarchy. -/
theorem build_extendedBy {loader : Loader} {evaluate : Evaluator} {context : Context}
    {parent : Template} (hbuild : (build loader evaluate context parent).outcome = .ok h)
    (hextends : t.Extends loader evaluate context h.leaf) (hnew : t.name ∉ h.names) :
    (build loader evaluate context t).outcome = .ok (h.extendedBy t) := by
  obtain ⟨walked, outcome, hleaf, hwalk, hends⟩ := exists_walk loader evaluate context parent
  have houtcome : (build loader evaluate context parent).outcome = outcome := by
    rw [← hleaf]
    exact (build_of_walk hwalk hends).1
  obtain rfl := hends.eq_of_ok (houtcome.symm.trans hbuild)
  have hroot : walked.root.declaration? = none := declaration?_root_of_build hbuild
  have hwalk' : (walked.extendedBy t).Walk loader evaluate context := by
    refine ⟨List.isChain_cons_cons.mpr ⟨hextends, hwalk.steps⟩, ?_⟩
    exact List.nodup_cons.mpr ⟨hnew, hwalk.distinct⟩
  have hroot' : (walked.extendedBy t).root = walked.root := by
    simp [extendedBy, root, templates, List.getLast?_cons]
  exact (build_of_walk hwalk' (.root (hroot' ▸ hroot))).1

end Hierarchy

end TemplateInheritance
