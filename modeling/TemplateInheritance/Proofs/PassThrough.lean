import TemplateInheritance.Proofs.Descendants
import TemplateInheritance.Proofs.Shortcuts
import TemplateInheritance.Proofs.Sources
import TemplateInheritance.Tree.Text

/-!
# Blocks that are only passed on

A template that extends another one and does no more than call the body above for one block. Its
tree reads as if the winning definition of the block had been put back, whole, wherever the other
template's merged tree has the block: a call brings the body of one level, and overrides of the
blocks inside it that lower levels made are not part of that.
-/

namespace TemplateInheritance

/-! ### Trees of the same text -/

/-- The nodes are written alike, as a whole and in the part that every rendering has. -/
structure Node.SameText (node node' : Node Unit) : Prop where
  written : Node.written node = Node.written node'
  literal : Node.literalText node = Node.literalText node'

/-- The sequences are written alike, as a whole and in the part that every rendering has. -/
structure Nodes.SameText (nodes nodes' : Nodes Unit) : Prop where
  written : Nodes.written nodes = Nodes.written nodes'
  literal : Nodes.literalText nodes = Nodes.literalText nodes'

namespace Nodes.SameText

variable {node node' : Node Unit} {body body' : Nodes Unit}

theorem cons (hnode : Node.SameText node node') (hbody : Nodes.SameText body body') :
    Nodes.SameText (node :: body) (node' :: body') :=
  ⟨congrArg₂ (· ++ ·) hnode.written hbody.written, congrArg₂ (· ++ ·) hnode.literal hbody.literal⟩

theorem block (hbody : Nodes.SameText body body') (name : String) :
    Node.SameText (.block () name body) (.block () name body') :=
  ⟨congrArg (tag ("block " ++ name) ++ · ++ tag "endblock") hbody.written, hbody.literal⟩

/-- A body in the place of one node reads as it does by itself. -/
theorem collapse (body : Nodes Unit) : Nodes.SameText [collapse body] body := by
  match body with
  | [] =>
    constructor
    · simp [TemplateInheritance.collapse, Node.text, Nodes.written, Node.written, Leaf.written]
    · simp [TemplateInheritance.collapse, Node.text, Nodes.literalText, Node.literalText,
        Leaf.literalText]
  | [node] => exact ⟨rfl, rfl⟩
  | first :: second :: rest =>
    constructor
    · simp [TemplateInheritance.collapse, Nodes.written, Node.written]
    · simp [TemplateInheritance.collapse, Nodes.literalText, Node.literalText]

end Nodes.SameText

section Overlay

variable {own own' : SortedMap (Nodes Unit)} {level level' : Nat}

@[simp] theorem Nodes.isEmpty_overlay (nodes : Nodes Nat) :
    (Nodes.overlayMarked own level nodes).isEmpty = nodes.isEmpty := by
  cases nodes <;> rfl

@[simp] theorem Nodes.isEmpty_replaceCalls {Mark : Type} {stands : String → Mark → Node Unit}
    {around : Option (String × Mark)} (nodes : Nodes Mark) :
    (Nodes.replaceCalls stands around nodes).isEmpty = nodes.isEmpty := by
  cases nodes <;> rfl

mutual

private theorem Node.overlay_eq_self {node : Node Nat}
    (hsame : ∀ block ∈ Node.blocks node, ∀ replacement, own.get? block.name = some replacement →
      block.mark = level ∧ block.body = Nodes.mark level replacement) :
    Node.overlayMarked own level node = node := by
  cases node with
  | leaf leaf => rfl
  | block mark name body =>
    rw [Node.overlayMarked]
    cases hown : own.get? name with
    | some replacement =>
      obtain ⟨hmark, hbody⟩ := hsame ⟨mark, name, body⟩ List.mem_cons_self replacement hown
      exact congrArg₂ (Node.block · name ·) hmark.symm hbody.symm
    | none =>
      exact congrArg _ (Nodes.overlay_eq_self fun block hblock ↦ hsame block (.tail _ hblock))
  | conditional condition body arms otherwise =>
    simp only [Node.blocks, List.forall_mem_append] at hsame
    rw [Node.overlayMarked, Nodes.overlay_eq_self hsame.1.1, Arms.overlay_eq_self hsame.1.2,
      Nodes.overlay_eq_self hsame.2]
  | loop targets iterable body otherwise =>
    simp only [Node.blocks, List.forall_mem_append] at hsame
    rw [Node.overlayMarked, Nodes.overlay_eq_self hsame.1, Nodes.overlay_eq_self hsame.2]
  | group body => rw [Node.overlayMarked, Nodes.overlay_eq_self hsame]
termination_by structural node

/-- Laying blocks over a tree that has them in their places already changes nothing. -/
theorem Nodes.overlay_eq_self {nodes : Nodes Nat}
    (hsame : ∀ block ∈ Nodes.blocks nodes, ∀ replacement,
      own.get? block.name = some replacement →
        block.mark = level ∧ block.body = Nodes.mark level replacement) :
    Nodes.overlayMarked own level nodes = nodes := by
  cases nodes with
  | nil => rfl
  | cons node rest =>
    simp only [Nodes.blocks, List.forall_mem_append] at hsame
    rw [Nodes.overlayMarked, Node.overlay_eq_self hsame.1, Nodes.overlay_eq_self hsame.2]
termination_by structural nodes

private theorem Arms.overlay_eq_self {arms : Arms Nat}
    (hsame : ∀ block ∈ Arms.blocks arms, ∀ replacement, own.get? block.name = some replacement →
      block.mark = level ∧ block.body = Nodes.mark level replacement) :
    Arms.overlayMarked own level arms = arms := by
  match arms with
  | [] => rfl
  | (_, body) :: rest =>
    simp only [Arms.blocks, List.forall_mem_append] at hsame
    rw [Arms.overlayMarked, Nodes.overlay_eq_self hsame.1, Arms.overlay_eq_self hsame.2]
termination_by structural arms

end

variable {stands : String → Nat → Node Unit}

/-- Two levels replace the same blocks, by bodies that read alike with their calls replaced. -/
def ReplaceAlike (stands : String → Nat → Node Unit) (own : SortedMap (Nodes Unit)) (level : Nat)
    (own' : SortedMap (Nodes Unit)) (level' : Nat) : Prop :=
  ∀ name, Option.Rel
    (fun body body' ↦ Nodes.SameText
      (Nodes.replaceCalls stands (some (name, level)) (Nodes.mark level body))
      (Nodes.replaceCalls stands (some (name, level')) (Nodes.mark level' body')))
    (own.get? name) (own'.get? name)

mutual

private theorem Node.sameText_overlay (halike : ReplaceAlike stands own level own' level')
    (around : Option (String × Nat)) (node : Node Nat) :
    Node.SameText (Node.replaceCalls stands around (Node.overlayMarked own level node))
      (Node.replaceCalls stands around (Node.overlayMarked own' level' node)) := by
  cases node with
  | leaf leaf => exact ⟨rfl, rfl⟩
  | block mark name body =>
    have hreplaced := halike name
    rw [Node.overlayMarked, Node.overlayMarked]
    cases hown : own.get? name <;> cases hown' : own'.get? name <;> rw [hown, hown'] at hreplaced
    · exact (Nodes.sameText_overlay halike (some (name, mark)) body).block name
    · cases hreplaced
    · cases hreplaced
    · next replacement replacement' =>
      cases hreplaced with
      | some hbodies => exact hbodies.block name
  | conditional condition body arms otherwise =>
    have hbody := Nodes.sameText_overlay halike around body
    have harms := Arms.written_overlay halike around arms
    have hotherwise := Nodes.sameText_overlay halike around otherwise
    refine ⟨?_, rfl⟩
    simp [Node.overlayMarked, Node.replaceCalls, Node.written, elseBranch, hbody.written, harms,
      hotherwise.written]
  | loop targets iterable body otherwise =>
    have hbody := Nodes.sameText_overlay halike around body
    have hotherwise := Nodes.sameText_overlay halike around otherwise
    refine ⟨?_, rfl⟩
    simp [Node.overlayMarked, Node.replaceCalls, Node.written, elseBranch, hbody.written,
      hotherwise.written]
  | group body =>
    have hbody := Nodes.sameText_overlay halike around body
    exact ⟨hbody.written, hbody.literal⟩
termination_by structural node

/-- Trees under overlays that replace alike read alike. -/
theorem Nodes.sameText_overlay (halike : ReplaceAlike stands own level own' level')
    (around : Option (String × Nat)) (nodes : Nodes Nat) :
    Nodes.SameText (Nodes.replaceCalls stands around (Nodes.overlayMarked own level nodes))
      (Nodes.replaceCalls stands around (Nodes.overlayMarked own' level' nodes)) := by
  cases nodes with
  | nil => exact ⟨rfl, rfl⟩
  | cons node rest =>
    exact .cons (Node.sameText_overlay halike around node)
      (Nodes.sameText_overlay halike around rest)
termination_by structural nodes

private theorem Arms.written_overlay (halike : ReplaceAlike stands own level own' level')
    (around : Option (String × Nat)) (arms : Arms Nat) :
    Arms.written (Arms.replaceCalls stands around (Arms.overlayMarked own level arms)) =
      Arms.written (Arms.replaceCalls stands around (Arms.overlayMarked own' level' arms)) := by
  match arms with
  | [] => rfl
  | (condition, body) :: rest =>
    have hbody := Nodes.sameText_overlay halike around body
    have hrest := Arms.written_overlay halike around rest
    simp [Arms.overlayMarked, Arms.replaceCalls, Arms.written, hbody.written, hrest]
termination_by structural arms

end

end Overlay

/-! ### Templates with one call -/

theorem Node.eq_extends {Mark : Type} {node : Node Mark} (hextends : node.isExtends = true) :
    ∃ target location, node = .leaf (.extendsFrom target location) := by
  unfold Node.isExtends at hextends
  split at hextends
  · exact ⟨_, _, rfl⟩
  · cases hextends

/-- Declarations have no own blocks. -/
theorem Nodes.collectOwn_filter_extends (nodes : Nodes Unit) (own : SortedMap (Nodes Unit)) :
    Nodes.collectOwn (nodes.filter (!·.isExtends)) own = Nodes.collectOwn nodes own := by
  induction nodes generalizing own with
  | nil => rfl
  | cons node rest ih =>
    rw [List.filter_cons, Nodes.collectOwn, ← ih]
    split
    · rfl
    · next hextends =>
      obtain ⟨target, location, rfl⟩ := Node.eq_extends (by simpa using hextends)
      rfl

theorem Nodes.strayCall?_filter_extends (nodes : Nodes Unit) :
    Nodes.strayCall? (nodes.filter (!·.isExtends)) = Nodes.strayCall? nodes := by
  induction nodes with
  | nil => rfl
  | cons node rest ih =>
    rw [List.filter_cons, Nodes.strayCall?, ← ih]
    split
    · rfl
    · next hextends =>
      obtain ⟨target, location, rfl⟩ := Node.eq_extends (by simpa using hextends)
      rfl

theorem filter_isImport_filter_extends (nodes : Nodes Unit) :
    (nodes.filter (!·.isExtends)).filter Node.isImport = nodes.filter Node.isImport := by
  rw [List.filter_filter]
  refine List.filter_congr fun node _ ↦ ?_
  cases hextends : node.isExtends with
  | false => simp
  | true =>
    obtain ⟨target, location, rfl⟩ := Node.eq_extends hextends
    rfl

namespace Template

/-- Apart from declarations, the template is one block that does no more than call the body above
it. -/
def PassesOn (t : Template) (name : String) : Prop :=
  ∃ location, t.nodes.filter (!·.isExtends) = [.block () name [.leaf (.output .super location)]]

variable {t : Template} {name : String}

theorem PassesOn.strayCall?_eq_none (hpasses : t.PassesOn name) :
    Nodes.strayCall? t.nodes = none := by
  obtain ⟨location, honly⟩ := hpasses
  rw [← Nodes.strayCall?_filter_extends, honly]
  rfl

theorem PassesOn.imports_eq_nil (hpasses : t.PassesOn name) :
    t.nodes.filter Node.isImport = [] := by
  obtain ⟨location, honly⟩ := hpasses
  rw [← filter_isImport_filter_extends, honly]
  rfl

theorem PassesOn.ownBlocks_eq (hpasses : t.PassesOn name) :
    ∃ location, Nodes.ownBlocks t.nodes =
      SortedMap.insert ∅ name [.leaf (.output .super location)] := by
  obtain ⟨location, honly⟩ := hpasses
  refine ⟨location, ?_⟩
  rw [Nodes.ownBlocks, ← Nodes.collectOwn_filter_extends, honly]
  rfl

end Template

namespace Hierarchy

/-- The merged tree with the winning definition of a block put back, whole, in place of each
outermost block of that name. -/
def reverted (h : Hierarchy) (name : String) : Nodes Nat :=
  match h.block? name with
  | none => h.merged
  | some winner =>
    Nodes.overlayMarked (SortedMap.insert ∅ name winner.body) winner.depth h.merged

variable {h : Hierarchy} {t : Template} {name : String} {limit : Nat}

theorem depth_lt_length {winner : BlockDefinition} (hwinner : h.block? name = some winner) :
    winner.depth < h.length := by
  obtain ⟨t, ht, -⟩ := exists_template_of_block? hwinner
  exact (List.getElem?_eq_some_iff.mp ht).1

theorem lt_length_of_mem_reverted {block : Block Nat}
    (hblock : block ∈ Nodes.blocks (h.reverted name)) : block.mark < h.length := by
  rw [reverted] at hblock
  split at hblock
  · exact lt_length_of_mem_merged hblock
  · next winner hwinner =>
    have hdepth := depth_lt_length hwinner
    exact Nodes.forall_blocks_overlay (p := fun level _ ↦ level < h.length)
      (fun _ _ _ ↦ ⟨hdepth, fun _ _ ↦ hdepth⟩) _ (fun _ ↦ lt_length_of_mem_merged) block hblock

/-- The call of a template that passes a block on stands for the winning definition of the block,
with its calls replaced from that level on. -/
theorem expansionOr_extendedBy_zero {winner : BlockDefinition}
    (hwinner : h.block? name = some winner) (hlimit : h.length ≤ limit) (t : Template) :
    expansionOr ((h.extendedBy t).expand limit) name 0 =
      collapse (Nodes.replaceCalls (expansionOr ((h.extendedBy t).expand limit))
        (some (name, winner.depth + 1)) (Nodes.mark (winner.depth + 1) winner.body)) := by
  have hnext : (h.extendedBy t).nextDefinition? name 0 = some (winner.depth + 1) := by
    rw [nextDefinition?_extendedBy_zero, head?_definingLevels, hwinner]
    rfl
  have hbody : (h.extendedBy t).bodyAt (winner.depth + 1) name = winner.body := by
    obtain ⟨s, hs, hfound⟩ := exists_template_of_block? hwinner
    rw [(h.carries_extendedBy t limit).body, bodyAt, hs, Option.bind_some, hfound]
    rfl
  rw [expansionOr_of_next (Nat.succ_le_succ hlimit) (Nat.succ_pos h.ancestors.length.succ) hnext,
    hbody]

/-- A block that no level defines is not in the merged tree. -/
theorem name_ne_of_mem_merged (hnone : h.block? name = none) {block : Block Nat}
    (hblock : block ∈ Nodes.blocks h.merged) : block.name ≠ name := by
  rintro rfl
  have hlevel := h.definingLevels_merged block hblock
  have hfirst := h.head?_definingLevels block.name
  rw [hnone, Option.map_none, List.head?_eq_none_iff] at hfirst
  rw [hfirst] at hlevel
  cases hlevel

/-- The call at the lowest level replaces a block like the winning definition on its own level. -/
theorem replaceAlike_passesOn {winner : BlockDefinition} (hwinner : h.block? name = some winner)
    (hlimit : h.length ≤ limit) (t : Template) (location : Option Location) :
    ReplaceAlike (expansionOr ((h.extendedBy t).expand limit))
      (SortedMap.insert ∅ name [.leaf (.output .super location)]) 0
      (SortedMap.insert ∅ name winner.body) (winner.depth + 1) := by
  intro other
  rw [SortedMap.get?_insert, SortedMap.get?_insert]
  by_cases hother : other = name
  · rw [if_pos hother, if_pos hother, hother]
    apply Option.Rel.some
    have hreads := Nodes.SameText.collapse (Nodes.replaceCalls
      (expansionOr ((h.extendedBy t).expand limit)) (some (name, winner.depth + 1))
      (Nodes.mark (winner.depth + 1) winner.body))
    rw [← expansionOr_extendedBy_zero hwinner hlimit t] at hreads
    exact hreads
  · rw [if_neg hother, if_neg hother]
    exact .none

/-- The tree over a template that passes a block on reads as the reverted tree. -/
theorem sameText_passesOn (hpasses : t.PassesOn name) (hlimit : h.length ≤ limit) :
    Nodes.SameText
      (Nodes.replaceCalls (expansionOr ((h.extendedBy t).expand limit)) none
        (h.extendedBy t).merged)
      (Nodes.replaceCalls (expansionOr (h.expand limit)) none (h.reverted name)) := by
  obtain ⟨location, hown⟩ := hpasses.ownBlocks_eq
  have hlevels : ∀ block ∈ Nodes.blocks (h.reverted name), block.mark < h.length :=
    fun _ ↦ lt_length_of_mem_reverted
  rw [merged_extendedBy hpasses.imports_eq_nil, hown, ← replaceCalls_extendedBy hlimit t hlevels,
    reverted]
  cases hwinner : h.block? name with
  | none =>
    rw [Nodes.overlay_eq_self]
    · exact ⟨rfl, rfl⟩
    · intro block hblock replacement hreplacement
      rw [Nodes.blocks_mapMarks, List.mem_map] at hblock
      obtain ⟨old, hold, rfl⟩ := hblock
      have hother : old.name ≠ name := name_ne_of_mem_merged hwinner hold
      rw [SortedMap.get?_insert, Block.mapMarks, if_neg hother] at hreplacement
      cases hreplacement
  | some winner =>
    rw [← Nodes.overlay_mapMarks]
    exact Nodes.sameText_overlay (replaceAlike_passesOn hwinner hlimit t location) none _

/-- The blocks of that name in the merged tree come from the level of the winning definition, with
all blocks inside them. -/
def KeepsWhole (h : Hierarchy) (name : String) : Prop :=
  ∀ winner, h.block? name = some winner → ∀ block ∈ Nodes.blocks h.merged, block.name = name →
    block.mark = winner.depth ∧ ∀ inner ∈ Nodes.blocks block.body, inner.mark = winner.depth

/-- In a template without two blocks of a name, a block that comes from the level of the winning
definition comes from that definition. -/
theorem ComesFrom.body_eq_winner {block : Block Nat} {source : Block Unit}
    {winner : BlockDefinition} (hcomes : h.ComesFrom block source)
    (hunique : ∀ s ∈ h.templates, ((Nodes.blocks s.nodes).map (·.name)).Nodup)
    (hwinner : h.block? block.name = some winner) (hmark : block.mark = winner.depth) :
    source.body = winner.body := by
  obtain ⟨s, hs, hsource, hsame, -⟩ := hcomes
  obtain ⟨t, ht, hfound⟩ := exists_template_of_block? hwinner
  obtain rfl : s = t := by
    rw [hmark] at hs
    exact Option.some.inj (hs.symm.trans ht)
  obtain ⟨other, hother, hnamed, hwinning⟩ := Nodes.mem_blocks_of_findBlock? hfound
  rw [← hwinning]
  apply congrArg Block.body
  apply List.inj_on_of_nodup_map (hunique s (List.mem_of_getElem? hs)) hsource hother
  rw [hsame, hnamed]

/-- Putting the winning definition back changes nothing where the block was kept whole, and no
template has two blocks of a name. -/
theorem reverted_eq_merged
    (hunique : ∀ s ∈ h.templates, ((Nodes.blocks s.nodes).map (·.name)).Nodup)
    (hwhole : h.KeepsWhole name) : h.reverted name = h.merged := by
  rw [reverted]
  split
  · rfl
  · next winner hwinner =>
    apply Nodes.overlay_eq_self
    intro block hblock replacement hreplacement
    rw [SortedMap.get?_insert] at hreplacement
    split at hreplacement
    · next hname =>
      obtain rfl := Option.some.inj hreplacement
      obtain ⟨hmark, hinner⟩ := hwhole winner hwinner block hblock hname
      obtain ⟨source, hcomes⟩ := h.exists_source_of_merged block hblock
      rw [← hname] at hwinner
      refine ⟨hmark, ?_⟩
      rw [hcomes.body_eq fun inner hmem ↦ (hinner inner hmem).trans hmark.symm, hmark,
        hcomes.body_eq_winner hunique hwinner hmark]
    · cases hreplacement

end Hierarchy

namespace Resolver

/-- A template that extends one that resolves, and does no more than pass one block on, resolves. It
reads as the other's merged tree does once the winning definition of the block is put back in its
places and calls are expanded. That is how the other's resolved tree reads if the block was kept
whole and no template has two blocks of a name. -/
theorem resolveFresh_passesOn {loader : Loader} {evaluate : Evaluator} {context : Context}
    {t leaf tree : Template} {h : Hierarchy} {name : String} {bound limit : Nat}
    (hbuild : (Hierarchy.build loader evaluate context t).outcome = .ok h)
    (htree : Resolver.resolveFresh ⟨loader, evaluate, bound⟩ t context = .ok tree)
    (hextends : leaf.Extends loader evaluate context t) (hnew : leaf.name ∉ h.names)
    (hpasses : leaf.PassesOn name) (hlimit : h.length ≤ limit) :
    ∃ resolved, Resolver.resolveFresh ⟨loader, evaluate, limit⟩ leaf context = .ok resolved ∧
      (∃ restored, h.expandTree limit (h.reverted name) = .ok restored ∧
        resolved.text = Nodes.written restored ∧
        resolved.literalText = Nodes.literalText restored) ∧
      ((∀ s ∈ h.templates, ((Nodes.blocks s.nodes).map (·.name)).Nodup) → h.KeepsWhole name →
        resolved.text = tree.text ∧ resolved.literalText = tree.literalText) := by
  obtain rfl : h.leaf = t := ((Hierarchy.build_eq_ok_iff _ _).mp hbuild).1
  have hleaf := Hierarchy.build_extendedBy hbuild hextends hnew
  rw [resolveFresh_of_build hbuild, Hierarchy.resolve_eq_run] at htree
  obtain ⟨hstray, nodes, hnodes, rfl⟩ := Hierarchy.resolveMerged_eq_ok_iff.mp htree
  have hstray' : ∀ s ∈ (h.extendedBy leaf).templates, Nodes.strayCall? s.nodes = none :=
    List.forall_mem_cons.mpr ⟨hpasses.strayCall?_eq_none, hstray⟩
  have hexpanded := Hierarchy.expandTree_of_levels (h := h.extendedBy leaf)
    (Nat.succ_le_succ hlimit) fun _ ↦ Hierarchy.lt_length_of_mem_merged
  have hlevels : ∀ block ∈ Nodes.blocks (h.reverted name), block.mark < h.length :=
    fun _ ↦ Hierarchy.lt_length_of_mem_reverted
  have hrestored := Hierarchy.expandTree_of_levels (Nat.le_succ_of_le hlimit) hlevels
  have hreads := Hierarchy.sameText_passesOn hpasses hlimit
  refine ⟨⟨leaf.name, _⟩, ?_, ⟨_, hrestored, hreads.written, hreads.literal⟩, ?_⟩
  · rw [resolveFresh_of_build hleaf, Hierarchy.resolve_eq_run]
    exact Hierarchy.resolveMerged_eq_ok_iff.mpr ⟨hstray', _, hexpanded, rfl⟩
  · intro hunique hwhole
    rw [Hierarchy.reverted_eq_merged hunique hwhole] at hrestored hreads
    -- both limits are large enough for all calls, and so give the same tree
    have hsame := (Hierarchy.expandTree_mono (Nat.le_max_left bound limit) hnodes).symm.trans
      (Hierarchy.expandTree_mono (Nat.le_max_right bound limit) hrestored)
    rw [← Except.ok.inj hsame] at hreads
    exact ⟨hreads.written, hreads.literal⟩

end Resolver

/-! ### A page that overrides an inner block -/

namespace OverriddenPage

/-- An outer block around an inner one. -/
def base : Template := ⟨"base", [.named "outer" [.named "inner" [.text "base"]]]⟩

/-- Overrides the inner block alone. -/
def page : Template := ⟨"page", [.extending "base", .named "inner" [.text "page"]]⟩

def hierarchy : Hierarchy := ⟨page, [base]⟩

def loader : Loader := { Loader.empty with stored := [⟨base, 1⟩, ⟨page, 2⟩] }

/-- Passes one block of the page on. -/
def passing (name : String) : Template := ⟨"leaf", [.extending "page", .named name [.superCall]]⟩

theorem build_page : (Hierarchy.build loader .standard ∅ page).outcome = .ok hierarchy := by
  decide +kernel

/-- The page with its own inner block. -/
def resolved : Template := ⟨"page", [.named "outer" [.named "inner" [.text "page"]]]⟩

theorem resolveFresh_page (limit : Nat) :
    Resolver.resolveFresh ⟨loader, .standard, limit⟩ page ∅ = .ok resolved := by
  have hplain : ∀ t ∈ hierarchy.templates, Nodes.hasSuperCall t.nodes = false := by decide
  have hmerged : hierarchy.mergedTemplate = resolved := by decide +kernel
  rw [Resolver.resolveFresh_of_build build_page, Hierarchy.resolve_eq_run,
    Hierarchy.resolveMerged_of_plain hplain, hmerged]

theorem passing_extends (name : String) : (passing name).Extends loader .standard ∅ page := by
  refine ⟨trimQuotes "page", ⟨page, 2⟩, .literally rfl, ?_, rfl⟩
  decide +kernel

/-- The inner block is kept whole, and a template that passes it on reads as the page. -/
theorem resolveFresh_passing_inner :
    (Hierarchy.build loader .standard ∅ page).outcome = .ok hierarchy ∧
      Resolver.resolveFresh ⟨loader, .standard, 0⟩ page ∅ = .ok resolved ∧
      hierarchy.KeepsWhole "inner" ∧
      ∃ tree, Resolver.resolveFresh ⟨loader, .standard, 2⟩ (passing "inner") ∅ = .ok tree ∧
        tree.text = resolved.text ∧ tree.literalText = resolved.literalText := by
  have hwhole : hierarchy.KeepsWhole "inner" := by
    intro winner hwinner
    have hpage : hierarchy.block? "inner" = some ⟨"page", 0, [.text "page"]⟩ := by decide +kernel
    obtain rfl := Option.some.inj (hpage.symm.trans hwinner)
    decide +kernel
  have hunique : ∀ s ∈ hierarchy.templates, ((Nodes.blocks s.nodes).map (·.name)).Nodup := by
    decide
  obtain ⟨tree, htree, -, hsame⟩ := Resolver.resolveFresh_passesOn build_page
    (resolveFresh_page 0) (passing_extends "inner") (by decide) ⟨none, rfl⟩ (Nat.le_refl 2)
  exact ⟨build_page, resolveFresh_page 0, hwhole, tree, htree, hsame hunique hwhole⟩

/-- The outer block is not kept whole, and passing it on brings the overridden inner block back. -/
theorem not_forall_passing_on :
    ¬∀ (loader : Loader) (evaluate : Evaluator) (context : Context) (t leaf tree : Template)
      (h : Hierarchy) (name : String) (limit : Nat),
      (Hierarchy.build loader evaluate context t).outcome = .ok h →
      (∀ s ∈ h.templates, ((Nodes.blocks s.nodes).map (·.name)).Nodup) →
      h.length < limit →
      Resolver.resolveFresh ⟨loader, evaluate, limit⟩ t context = .ok tree →
      (∃ block ∈ Nodes.blocks tree.nodes, block.name = name) →
      leaf.Extends loader evaluate context t → leaf.name ∉ h.names → leaf.PassesOn name →
      ∃ resolved, Resolver.resolveFresh ⟨loader, evaluate, limit⟩ leaf context = .ok resolved ∧
        resolved.text = tree.text ∧ resolved.literalText = tree.literalText := by
  intro hforall
  obtain ⟨tree, htree, -, hliteral⟩ := hforall loader .standard ∅ page (passing "outer") resolved
    hierarchy "outer" 3 build_page (by decide) (by decide) (resolveFresh_page 3)
    ⟨⟨(), "outer", [.named "inner" [.text "page"]]⟩, List.mem_cons_self, rfl⟩
    (passing_extends "outer") (by decide) ⟨none, rfl⟩
  have hbuild := Hierarchy.build_extendedBy build_page (passing_extends "outer") (by decide)
  rw [Resolver.resolveFresh_of_build hbuild, Hierarchy.resolve_eq_run] at htree
  obtain ⟨-, nodes, hnodes, rfl⟩ := Hierarchy.resolveMerged_eq_ok_iff.mp htree
  have hbase : (hierarchy.extendedBy (passing "outer")).expandTree 3
      (hierarchy.extendedBy (passing "outer")).merged =
        .ok [.named "outer" [.named "inner" [.text "base"]]] := by
    decide +kernel
  obtain rfl := Except.ok.inj (hbase.symm.trans hnodes)
  revert hliteral
  decide +kernel

end OverriddenPage

end TemplateInheritance
