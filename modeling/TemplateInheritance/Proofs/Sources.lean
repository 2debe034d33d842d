import TemplateInheritance.Proofs.MergedTree
import TemplateInheritance.Proofs.Placement

/-!
# Where the blocks of a merged tree come from

Every block of a merged tree is a block of the template on its level, with the blocks of its body
placed from that level down. Where all of them stayed with that level, the body is the template's
own.
-/

namespace TemplateInheritance

section Place

variable {replacement? : String → Option (Nat × Nodes Nat)} {level : Nat} {block : Block Nat}

mutual

private theorem Node.mem_blocks_place {node : Node Unit}
    (hmem : block ∈ Node.blocks (Node.place replacement? level node)) :
    (∃ source ∈ Node.blocks node,
      block = ⟨level, source.name, Nodes.place replacement? level source.body⟩) ∨
    ∃ name lower placed, replacement? name = some (lower, placed) ∧
      (block = ⟨lower, name, placed⟩ ∨ block ∈ Nodes.blocks placed) := by
  cases node with
  | leaf leaf => cases hmem
  | block mark name body =>
    rw [Node.place] at hmem
    split at hmem
    · next lower placed hreplaced =>
      exact .inr ⟨name, lower, placed, hreplaced, List.mem_cons.mp hmem⟩
    · rcases List.mem_cons.mp hmem with rfl | hmem
      · exact .inl ⟨⟨mark, name, body⟩, List.mem_cons_self, rfl⟩
      · refine (Nodes.mem_blocks_place hmem).imp_left ?_
        rintro ⟨source, hsource, hblock⟩
        exact ⟨source, .tail _ hsource, hblock⟩
  | conditional condition body arms otherwise =>
    simp only [Node.place, Node.blocks, List.mem_append, or_and_right, exists_or] at hmem ⊢
    rcases hmem with (hmem | hmem) | hmem
    · exact (Nodes.mem_blocks_place hmem).imp_left fun hsource ↦ .inl (.inl hsource)
    · exact (Arms.mem_blocks_place hmem).imp_left fun hsource ↦ .inl (.inr hsource)
    · exact (Nodes.mem_blocks_place hmem).imp_left .inr
  | loop targets iterable body otherwise =>
    simp only [Node.place, Node.blocks, List.mem_append, or_and_right, exists_or] at hmem ⊢
    rcases hmem with hmem | hmem
    · exact (Nodes.mem_blocks_place hmem).imp_left .inl
    · exact (Nodes.mem_blocks_place hmem).imp_left .inr
  | group body => exact Nodes.mem_blocks_place hmem
termination_by structural node

/-- A block of a placed sequence is one of the sequence, with its body placed, or came in with a
body that took a block over. -/
theorem Nodes.mem_blocks_place {nodes : Nodes Unit}
    (hmem : block ∈ Nodes.blocks (Nodes.place replacement? level nodes)) :
    (∃ source ∈ Nodes.blocks nodes,
      block = ⟨level, source.name, Nodes.place replacement? level source.body⟩) ∨
    ∃ name lower placed, replacement? name = some (lower, placed) ∧
      (block = ⟨lower, name, placed⟩ ∨ block ∈ Nodes.blocks placed) := by
  cases nodes with
  | nil => cases hmem
  | cons node rest =>
    simp only [Nodes.place, Nodes.blocks, List.mem_append, or_and_right, exists_or] at hmem ⊢
    rcases hmem with hmem | hmem
    · exact (Node.mem_blocks_place hmem).imp_left .inl
    · exact (Nodes.mem_blocks_place hmem).imp_left .inr
termination_by structural nodes

private theorem Arms.mem_blocks_place {arms : Arms Unit}
    (hmem : block ∈ Arms.blocks (Arms.place replacement? level arms)) :
    (∃ source ∈ Arms.blocks arms,
      block = ⟨level, source.name, Nodes.place replacement? level source.body⟩) ∨
    ∃ name lower placed, replacement? name = some (lower, placed) ∧
      (block = ⟨lower, name, placed⟩ ∨ block ∈ Nodes.blocks placed) := by
  match arms with
  | [] => cases hmem
  | (_, body) :: rest =>
    simp only [Arms.place, Arms.blocks, List.mem_append, or_and_right, exists_or] at hmem ⊢
    rcases hmem with hmem | hmem
    · exact (Nodes.mem_blocks_place hmem).imp_left .inl
    · exact (Arms.mem_blocks_place hmem).imp_left .inr
termination_by structural arms

end

mutual

private theorem Node.place_eq_mark {node : Node Unit}
    (hlower : ∀ name lower placed, replacement? name = some (lower, placed) → lower < level)
    (hstayed : ∀ block ∈ Node.blocks (Node.place replacement? level node), block.mark = level) :
    Node.place replacement? level node = Node.mark level node := by
  cases node with
  | leaf leaf => rfl
  | block mark name body =>
    rw [Node.place] at hstayed ⊢
    cases hreplaced : replacement? name with
    | some replacement =>
      rw [hreplaced] at hstayed
      have hmark : replacement.1 = level := hstayed _ List.mem_cons_self
      have := hlower name replacement.1 replacement.2 hreplaced
      omega
    | none =>
      rw [hreplaced] at hstayed
      have hbody := Nodes.place_eq_mark hlower fun block hblock ↦ hstayed block (.tail _ hblock)
      rw [Node.mark, ← hbody]
  | conditional condition body arms otherwise =>
    simp only [Node.place, Node.blocks, List.forall_mem_append] at hstayed
    rw [Node.place, Nodes.place_eq_mark hlower hstayed.1.1, Arms.place_eq_mark hlower hstayed.1.2,
      Nodes.place_eq_mark hlower hstayed.2, Node.mark]
  | loop targets iterable body otherwise =>
    simp only [Node.place, Node.blocks, List.forall_mem_append] at hstayed
    rw [Node.place, Nodes.place_eq_mark hlower hstayed.1, Nodes.place_eq_mark hlower hstayed.2,
      Node.mark]
  | group body => rw [Node.place, Nodes.place_eq_mark hlower hstayed, Node.mark]
termination_by structural node

/-- Where every block stayed with its level, nothing was taken over. -/
theorem Nodes.place_eq_mark {nodes : Nodes Unit}
    (hlower : ∀ name lower placed, replacement? name = some (lower, placed) → lower < level)
    (hstayed : ∀ block ∈ Nodes.blocks (Nodes.place replacement? level nodes),
      block.mark = level) :
    Nodes.place replacement? level nodes = Nodes.mark level nodes := by
  cases nodes with
  | nil => rfl
  | cons node rest =>
    simp only [Nodes.place, Nodes.blocks, List.forall_mem_append] at hstayed
    rw [Nodes.place, Node.place_eq_mark hlower hstayed.1, Nodes.place_eq_mark hlower hstayed.2,
      Nodes.mark]
termination_by structural nodes

private theorem Arms.place_eq_mark {arms : Arms Unit}
    (hlower : ∀ name lower placed, replacement? name = some (lower, placed) → lower < level)
    (hstayed : ∀ block ∈ Arms.blocks (Arms.place replacement? level arms), block.mark = level) :
    Arms.place replacement? level arms = Arms.mark level arms := by
  match arms with
  | [] => rfl
  | (_, body) :: rest =>
    simp only [Arms.place, Arms.blocks, List.forall_mem_append] at hstayed
    rw [Arms.place, Nodes.place_eq_mark hlower hstayed.1, Arms.place_eq_mark hlower hstayed.2,
      Arms.mark]
termination_by structural arms

end

end Place

namespace Hierarchy

variable {h : Hierarchy}

/-- A block that is taken over becomes an own block of a lower level. -/
theorem ownBlock?_of_takeover? {name : String} {level : Nat} {lower : Fin level}
    {body : Nodes Unit} (htakeover : h.takeover? name level = some (lower, body)) :
    h.ownBlock? name lower = some body := by
  obtain ⟨other, -, hother⟩ := List.exists_of_findSome?_eq_some htakeover
  obtain ⟨_, hown, hpair⟩ := Option.map_eq_some_iff.mp hother
  obtain ⟨rfl, rfl⟩ := Prod.mk.inj hpair
  exact hown

/-- The block stands in the template of its level, with the body of a block of that name, placed
from there down. -/
def ComesFrom (h : Hierarchy) (block : Block Nat) (source : Block Unit) : Prop :=
  ∃ t, h.templates[block.mark]? = some t ∧ source ∈ Nodes.blocks t.nodes ∧
    source.name = block.name ∧ block.body = h.placed block.mark source.body

/-- The blocks of a placed sequence come from the templates of their levels, if those of the
sequence are blocks of the template that it is taken from. -/
theorem exists_source_of_placed {level : Nat} {t : Template} (ht : h.templates[level]? = some t)
    {nodes : Nodes Unit} (hnodes : ∀ source ∈ Nodes.blocks nodes, source ∈ Nodes.blocks t.nodes) :
    ∀ block ∈ Nodes.blocks (h.placed level nodes), ∃ source, h.ComesFrom block source := by
  intro block hmem
  rw [placed] at hmem
  rcases Nodes.mem_blocks_place hmem with ⟨source, hsource, rfl⟩ | ⟨name, lower, body, hlower, hin⟩
  · exact ⟨source, t, ht, hnodes source hsource, rfl, by rw [placed]⟩
  · obtain ⟨⟨below, own⟩, htakeover, hpair⟩ := Option.map_eq_some_iff.mp hlower
    obtain ⟨rfl, rfl⟩ := Prod.mk.inj hpair
    obtain ⟨s, hs, hown⟩ := Option.bind_eq_some_iff.mp (ownBlock?_of_takeover? htakeover)
    have hblock := Nodes.outermost_subset (Nodes.mem_outermost_of_ownBlocks hown)
    rcases hin with rfl | hin
    · exact ⟨⟨(), name, own⟩, s, hs, hblock, rfl, rfl⟩
    · have := below.isLt
      exact exists_source_of_placed hs (fun inner hinner ↦ Nodes.blocks_subset hblock hinner)
        block hin
termination_by level

/-- Every block of the merged tree comes from the template of its level. -/
theorem exists_source_of_merged (h : Hierarchy) :
    ∀ block ∈ Nodes.blocks h.merged, ∃ source, h.ComesFrom block source := by
  intro block hmem
  rw [merged_eq_hoist, layeredMarked_eq_placed] at hmem
  have hplaced := mem_blocks_hoist (fun node hnode ↦ h.isImport_of_mem_mark_imports hnode) hmem
  have hroot : h.templates[h.ancestors.length]? = some h.root := by
    rw [root, ← List.getLast?_cons, List.getLast?_eq_getElem?]
    rfl
  exact exists_source_of_placed hroot (fun _ ↦ id) block hplaced

/-- A block whose inner blocks all stayed with its level has the body of its source. -/
theorem ComesFrom.body_eq {block : Block Nat} {source : Block Unit}
    (hcomes : h.ComesFrom block source)
    (hstayed : ∀ inner ∈ Nodes.blocks block.body, inner.mark = block.mark) :
    block.body = Nodes.mark block.mark source.body := by
  obtain ⟨-, -, -, -, hbody⟩ := hcomes
  rw [hbody] at hstayed ⊢
  rw [placed] at hstayed ⊢
  refine Nodes.place_eq_mark (fun name lower placed hlower ↦ ?_) hstayed
  obtain ⟨⟨below, own⟩, -, hpair⟩ := Option.map_eq_some_iff.mp hlower
  obtain ⟨rfl, -⟩ := Prod.mk.inj hpair
  exact below.isLt

end Hierarchy

end TemplateInheritance
