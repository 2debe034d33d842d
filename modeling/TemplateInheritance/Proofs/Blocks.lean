import TemplateInheritance.Block.Own
import TemplateInheritance.Hierarchy.Basic
import TemplateInheritance.Super.Expansion

/-!
# The blocks of a tree as a list

Every walk that looks for blocks meets them in document order, an outer block before the blocks
inside it. What the walks find is said once for that list, and so the recorded definitions of a
hierarchy name exactly the levels whose templates have the block.
-/

namespace TemplateInheritance

/-- A block taken out of its tree. -/
structure Block (Mark : Type) where
  mark : Mark
  name : String
  body : Nodes Mark

section Listing

variable {Mark : Type}

mutual

/-- The blocks of the node in document order, nested ones included. -/
def Node.blocks : Node Mark → List (Block Mark)
  | .leaf _ => []
  | .block mark name body => ⟨mark, name, body⟩ :: Nodes.blocks body
  | .conditional _ body arms otherwise =>
    Nodes.blocks body ++ Arms.blocks arms ++ Nodes.blocks otherwise
  | .loop _ _ body otherwise => Nodes.blocks body ++ Nodes.blocks otherwise
  | .group body => Nodes.blocks body
termination_by structural node => node

/-- The blocks of the sequence in document order. -/
def Nodes.blocks : Nodes Mark → List (Block Mark)
  | [] => []
  | node :: rest => Node.blocks node ++ Nodes.blocks rest
termination_by structural nodes => nodes

/-- The blocks of the arms in document order. -/
def Arms.blocks : Arms Mark → List (Block Mark)
  | [] => []
  | (_, body) :: rest => Nodes.blocks body ++ Arms.blocks rest
termination_by structural arms => arms

end

/-- The body of the first block of that name in a list. -/
def bodyOf? (name : String) (blocks : List (Block Mark)) : Option (Nodes Mark) :=
  (blocks.find? (·.name = name)).map (·.body)

theorem bodyOf?_append (name : String) (front back : List (Block Mark)) :
    bodyOf? name (front ++ back) = (bodyOf? name front).or (bodyOf? name back) := by
  simp only [bodyOf?, List.find?_append]
  cases front.find? (·.name = name) <;> rfl

theorem bodyOf?_cons (name : String) (block : Block Mark) (rest : List (Block Mark)) :
    bodyOf? name (block :: rest) =
      if block.name = name then some block.body else bodyOf? name rest := by
  by_cases h : block.name = name <;> simp [bodyOf?, h]

theorem mem_of_bodyOf? {name : String} {blocks : List (Block Mark)} {body : Nodes Mark}
    (hbody : bodyOf? name blocks = some body) :
    ∃ block ∈ blocks, block.name = name ∧ block.body = body := by
  obtain ⟨block, hblock, hbody⟩ := Option.map_eq_some_iff.mp hbody
  exact ⟨block, List.mem_of_find?_eq_some hblock, by simpa using List.find?_some hblock, hbody⟩

mutual

private theorem Node.findBlock?_eq_bodyOf? (name : String) (node : Node Mark) :
    Node.findBlock? name node = bodyOf? name (Node.blocks node) := by
  cases node with
  | leaf leaf => rfl
  | block mark other body =>
    simp [Node.findBlock?, Node.blocks, bodyOf?_cons, Nodes.findBlock?_eq_bodyOf?]
  | conditional condition body arms otherwise =>
    simp [Node.findBlock?, Node.blocks, bodyOf?_append, Nodes.findBlock?_eq_bodyOf?,
      Arms.findBlock?_eq_bodyOf?, Option.or_assoc]
  | loop targets iterable body otherwise =>
    simp [Node.findBlock?, Node.blocks, bodyOf?_append, Nodes.findBlock?_eq_bodyOf?]
  | group body => simp [Node.findBlock?, Node.blocks, Nodes.findBlock?_eq_bodyOf?]
termination_by structural node

/-- A search finds the first block of its name in document order. -/
theorem Nodes.findBlock?_eq_bodyOf? (name : String) (nodes : Nodes Mark) :
    Nodes.findBlock? name nodes = bodyOf? name (Nodes.blocks nodes) := by
  cases nodes with
  | nil => rfl
  | cons node rest =>
    simp [Nodes.findBlock?, Nodes.blocks, bodyOf?_append, Node.findBlock?_eq_bodyOf?,
      Nodes.findBlock?_eq_bodyOf?]
termination_by structural nodes

private theorem Arms.findBlock?_eq_bodyOf? (name : String) (arms : Arms Mark) :
    Arms.findBlock? name arms = bodyOf? name (Arms.blocks arms) := by
  match arms with
  | [] => rfl
  | (_, body) :: rest =>
    simp [Arms.findBlock?, Arms.blocks, bodyOf?_append, Nodes.findBlock?_eq_bodyOf? name body,
      Arms.findBlock?_eq_bodyOf? name rest]
termination_by structural arms

end

/-- A search succeeds exactly for the names of the tree's blocks. -/
theorem Nodes.isSome_findBlock?_iff (name : String) (nodes : Nodes Mark) :
    (Nodes.findBlock? name nodes).isSome ↔ ∃ block ∈ Nodes.blocks nodes, block.name = name := by
  rw [Nodes.findBlock?_eq_bodyOf?, bodyOf?, Option.isSome_map, List.find?_isSome]
  simp

/-- What a search finds is the body of a block of that name. -/
theorem Nodes.mem_blocks_of_findBlock? {name : String} {nodes body : Nodes Mark}
    (hfind : Nodes.findBlock? name nodes = some body) :
    ∃ block ∈ Nodes.blocks nodes, block.name = name ∧ block.body = body := by
  rw [Nodes.findBlock?_eq_bodyOf?] at hfind
  exact mem_of_bodyOf? hfind

mutual

private theorem Node.blocks_subset {block inner : Block Mark} {node : Node Mark}
    (hblock : block ∈ Node.blocks node) (hinner : inner ∈ Nodes.blocks block.body) :
    inner ∈ Node.blocks node := by
  cases node with
  | leaf leaf => cases hblock
  | block mark name body =>
    rcases List.mem_cons.mp hblock with rfl | hblock
    · exact .tail _ hinner
    · exact .tail _ (Nodes.blocks_subset hblock hinner)
  | conditional condition body arms otherwise =>
    simp only [Node.blocks, List.mem_append] at hblock ⊢
    rcases hblock with (hblock | hblock) | hblock
    · exact .inl (.inl (Nodes.blocks_subset hblock hinner))
    · exact .inl (.inr (Arms.blocks_subset hblock hinner))
    · exact .inr (Nodes.blocks_subset hblock hinner)
  | loop targets iterable body otherwise =>
    simp only [Node.blocks, List.mem_append] at hblock ⊢
    rcases hblock with hblock | hblock
    · exact .inl (Nodes.blocks_subset hblock hinner)
    · exact .inr (Nodes.blocks_subset hblock hinner)
  | group body =>
    simp only [Node.blocks] at hblock ⊢
    exact Nodes.blocks_subset hblock hinner
termination_by structural node

/-- The blocks inside a block of a tree are blocks of the tree. -/
theorem Nodes.blocks_subset {block inner : Block Mark} {nodes : Nodes Mark}
    (hblock : block ∈ Nodes.blocks nodes) (hinner : inner ∈ Nodes.blocks block.body) :
    inner ∈ Nodes.blocks nodes := by
  cases nodes with
  | nil => cases hblock
  | cons node rest =>
    simp only [Nodes.blocks, List.mem_append] at hblock ⊢
    rcases hblock with hblock | hblock
    · exact .inl (Node.blocks_subset hblock hinner)
    · exact .inr (Nodes.blocks_subset hblock hinner)
termination_by structural nodes

private theorem Arms.blocks_subset {block inner : Block Mark} {arms : Arms Mark}
    (hblock : block ∈ Arms.blocks arms) (hinner : inner ∈ Nodes.blocks block.body) :
    inner ∈ Arms.blocks arms := by
  match arms with
  | [] => cases hblock
  | (_, body) :: rest =>
    simp only [Arms.blocks, List.mem_append] at hblock ⊢
    rcases hblock with hblock | hblock
    · exact .inl (Nodes.blocks_subset hblock hinner)
    · exact .inr (Arms.blocks_subset hblock hinner)
termination_by structural arms

end

end Listing

/-! ### Recorded definitions -/

/-- Record blocks one after the other. -/
def Definitions.recordAll (origin : String) (depth : Nat) (blocks : List (Block Unit))
    (map : Definitions) : Definitions :=
  blocks.foldl (fun map block ↦ map.record block.name ⟨origin, depth, block.body⟩) map

section Recording

variable (origin : String) (depth : Nat)

mutual

private theorem Node.recordBlocks_eq (node : Node Unit) (map : Definitions) :
    Node.recordBlocks origin depth node map = map.recordAll origin depth (Node.blocks node) := by
  cases node with
  | leaf leaf => rfl
  | block mark name body =>
    simp [Node.recordBlocks, Node.blocks, Definitions.recordAll, Nodes.recordBlocks_eq]
  | conditional condition body arms otherwise =>
    simp [Node.recordBlocks, Node.blocks, Definitions.recordAll, Nodes.recordBlocks_eq,
      Arms.recordBlocks_eq]
  | loop targets iterable body otherwise =>
    simp [Node.recordBlocks, Node.blocks, Definitions.recordAll, Nodes.recordBlocks_eq]
  | group body => simp [Node.recordBlocks, Node.blocks, Nodes.recordBlocks_eq]
termination_by structural node

/-- Recording a tree records its blocks in document order. -/
theorem Nodes.recordBlocks_eq (nodes : Nodes Unit) (map : Definitions) :
    Nodes.recordBlocks origin depth nodes map =
      map.recordAll origin depth (Nodes.blocks nodes) := by
  cases nodes with
  | nil => rfl
  | cons node rest =>
    simp [Nodes.recordBlocks, Nodes.blocks, Definitions.recordAll, Node.recordBlocks_eq,
      Nodes.recordBlocks_eq]
termination_by structural nodes

private theorem Arms.recordBlocks_eq (arms : Arms Unit) (map : Definitions) :
    Arms.recordBlocks origin depth arms map = map.recordAll origin depth (Arms.blocks arms) := by
  match arms with
  | [] => rfl
  | (_, body) :: rest =>
    simp [Arms.recordBlocks, Arms.blocks, Definitions.recordAll, Nodes.recordBlocks_eq body,
      Arms.recordBlocks_eq rest]
termination_by structural arms

end

end Recording

/-- A name that is taken keeps its definition. -/
theorem Definitions.get?_record (map : Definitions) (name key : String)
    (definition : BlockDefinition) :
    (map.record name definition).get? key =
      (map.get? key).or (if name = key then some definition else none) := by
  unfold record SortedMap.contains
  by_cases hkey : name = key
  · subst hkey
    cases hget : map.get? name with
    | none => simp [SortedMap.get?_insert]
    | some known => simp [hget]
  · split
    · simp
    · simp [SortedMap.get?_insert, Ne.symm hkey]

/-- Of the blocks of one name the first is recorded, unless the name is taken. -/
theorem Definitions.get?_recordAll (origin : String) (depth : Nat) (blocks : List (Block Unit))
    (map : Definitions) (name : String) :
    (map.recordAll origin depth blocks).get? name =
      (map.get? name).or ((bodyOf? name blocks).map fun body ↦ ⟨origin, depth, body⟩) := by
  induction blocks generalizing map with
  | nil => simp [recordAll, bodyOf?]
  | cons block rest ih =>
    have hstep : map.recordAll origin depth (block :: rest) =
        (map.record block.name ⟨origin, depth, block.body⟩).recordAll origin depth rest := rfl
    rw [hstep, ih, bodyOf?_cons, Definitions.get?_record, Option.or_assoc]
    congr 1
    split <;> simp

/-- A recorded template adds the first block of each name that is not taken. -/
theorem Definitions.get?_recordTemplate (map : Definitions) (t : Template) (depth : Nat)
    (name : String) :
    (map.recordTemplate t depth).get? name =
      (map.get? name).or ((t.findBlock? name).map fun body ↦ ⟨t.name, depth, body⟩) := by
  rw [recordTemplate, Nodes.recordBlocks_eq, get?_recordAll, Template.findBlock?,
    Nodes.findBlock?_eq_bodyOf?]

/-! ### Own blocks -/

mutual

/-- The blocks of the node that stand in no other block, in document order. -/
def Node.outermost : Node Unit → List (Block Unit)
  | .leaf _ => []
  | .block mark name body => [⟨mark, name, body⟩]
  | .conditional _ body arms otherwise =>
    Nodes.outermost body ++ Arms.outermost arms ++ Nodes.outermost otherwise
  | .loop _ _ body otherwise => Nodes.outermost body ++ Nodes.outermost otherwise
  | .group body => Nodes.outermost body
termination_by structural node => node

/-- The blocks of the sequence that stand in no other block. -/
def Nodes.outermost : Nodes Unit → List (Block Unit)
  | [] => []
  | node :: rest => Node.outermost node ++ Nodes.outermost rest
termination_by structural nodes => nodes

/-- The blocks of the arms that stand in no other block. -/
def Arms.outermost : Arms Unit → List (Block Unit)
  | [] => []
  | (_, body) :: rest => Nodes.outermost body ++ Arms.outermost rest
termination_by structural arms => arms

end

mutual

private theorem Node.outermost_subset {block : Block Unit} {node : Node Unit}
    (hmem : block ∈ Node.outermost node) : block ∈ Node.blocks node := by
  cases node with
  | leaf leaf => cases hmem
  | block mark name body =>
    rw [List.mem_singleton.mp hmem]
    exact List.mem_cons_self
  | conditional condition body arms otherwise =>
    simp only [Node.outermost, Node.blocks, List.mem_append] at hmem ⊢
    exact hmem.imp (Or.imp Nodes.outermost_subset Arms.outermost_subset) Nodes.outermost_subset
  | loop targets iterable body otherwise =>
    simp only [Node.outermost, Node.blocks, List.mem_append] at hmem ⊢
    exact hmem.imp Nodes.outermost_subset Nodes.outermost_subset
  | group body => exact Nodes.outermost_subset hmem
termination_by structural node

/-- An outermost block is a block of the tree. -/
theorem Nodes.outermost_subset {block : Block Unit} {nodes : Nodes Unit}
    (hmem : block ∈ Nodes.outermost nodes) : block ∈ Nodes.blocks nodes := by
  cases nodes with
  | nil => cases hmem
  | cons node rest =>
    simp only [Nodes.outermost, Nodes.blocks, List.mem_append] at hmem ⊢
    exact hmem.imp Node.outermost_subset Nodes.outermost_subset
termination_by structural nodes

private theorem Arms.outermost_subset {block : Block Unit} {arms : Arms Unit}
    (hmem : block ∈ Arms.outermost arms) : block ∈ Arms.blocks arms := by
  match arms with
  | [] => cases hmem
  | (_, body) :: rest =>
    simp only [Arms.outermost, Arms.blocks, List.mem_append] at hmem ⊢
    exact hmem.imp Nodes.outermost_subset Arms.outermost_subset
termination_by structural arms

end

/-- Offer blocks one after the other; the last one of a name stays. -/
def offerAll (blocks : List (Block Unit)) (own : SortedMap (Nodes Unit)) :
    SortedMap (Nodes Unit) :=
  blocks.foldl (fun own block ↦ own.insert block.name block.body) own

mutual

private theorem Node.collectOwn_eq (node : Node Unit) (own : SortedMap (Nodes Unit)) :
    Node.collectOwn node own = offerAll (Node.outermost node) own := by
  cases node with
  | leaf leaf => rfl
  | block mark name body => rfl
  | conditional condition body arms otherwise =>
    simp [Node.collectOwn, Node.outermost, offerAll, Nodes.collectOwn_eq, Arms.collectOwn_eq]
  | loop targets iterable body otherwise =>
    simp [Node.collectOwn, Node.outermost, offerAll, Nodes.collectOwn_eq]
  | group body => simp [Node.collectOwn, Node.outermost, Nodes.collectOwn_eq]
termination_by structural node

/-- A template offers its outermost blocks in document order. -/
theorem Nodes.collectOwn_eq (nodes : Nodes Unit) (own : SortedMap (Nodes Unit)) :
    Nodes.collectOwn nodes own = offerAll (Nodes.outermost nodes) own := by
  cases nodes with
  | nil => rfl
  | cons node rest =>
    simp [Nodes.collectOwn, Nodes.outermost, offerAll, Node.collectOwn_eq, Nodes.collectOwn_eq]
termination_by structural nodes

private theorem Arms.collectOwn_eq (arms : Arms Unit) (own : SortedMap (Nodes Unit)) :
    Arms.collectOwn arms own = offerAll (Arms.outermost arms) own := by
  match arms with
  | [] => rfl
  | (_, body) :: rest =>
    simp [Arms.collectOwn, Arms.outermost, offerAll, Nodes.collectOwn_eq body,
      Arms.collectOwn_eq rest]
termination_by structural arms

end

/-- Of the offered blocks of one name the last one counts. -/
theorem get?_offerAll (name : String) (blocks : List (Block Unit)) (own : SortedMap (Nodes Unit)) :
    (offerAll blocks own).get? name = (bodyOf? name blocks.reverse).or (own.get? name) := by
  induction blocks generalizing own with
  | nil => rfl
  | cons block rest ih =>
    have hstep : offerAll (block :: rest) own = offerAll rest (own.insert block.name block.body) :=
      rfl
    rw [hstep, ih, List.reverse_cons, bodyOf?_append, Option.or_assoc, bodyOf?_cons,
      SortedMap.get?_insert]
    congr 1
    by_cases hname : block.name = name
    · simp [hname]
    · simp [hname, Ne.symm hname, bodyOf?]

/-- The own block of a name is the last one of the name among the outermost blocks. -/
theorem Nodes.get?_ownBlocks (nodes : Nodes Unit) (name : String) :
    (Nodes.ownBlocks nodes).get? name = bodyOf? name (Nodes.outermost nodes).reverse := by
  rw [Nodes.ownBlocks, Nodes.collectOwn_eq, get?_offerAll]
  exact Option.or_none

/-- An own block is one of the outermost blocks. -/
theorem Nodes.mem_outermost_of_ownBlocks {nodes : Nodes Unit} {name : String} {body : Nodes Unit}
    (hown : (Nodes.ownBlocks nodes).get? name = some body) :
    ⟨(), name, body⟩ ∈ Nodes.outermost nodes := by
  rw [Nodes.get?_ownBlocks] at hown
  obtain ⟨block, hmem, rfl, rfl⟩ := mem_of_bodyOf? hown
  exact List.mem_reverse.mp hmem

namespace Hierarchy

/-- The definition that a template of some level gives a block. -/
def definitionIn? (name : String) (leveled : Template × Nat) : Option BlockDefinition :=
  (leveled.1.findBlock? name).map fun body ↦ ⟨leveled.1.name, leveled.2, body⟩

theorem get?_recordLeveled (leveled : List (Template × Nat)) (map : Definitions)
    (name : String) :
    (leveled.foldl (fun map (t, level) ↦ map.recordTemplate t level) map).get? name =
      (map.get? name).or (leveled.findSome? (definitionIn? name)) := by
  induction leveled generalizing map with
  | nil => simp
  | cons first rest ih =>
    obtain ⟨t, level⟩ := first
    rw [List.foldl_cons, ih, Definitions.get?_recordTemplate, Option.or_assoc, List.findSome?_cons]
    congr 1
    cases h : definitionIn? name (t, level) with
    | none => rw [definitionIn?] at h; rw [h]; rfl
    | some definition => rw [definitionIn?] at h; rw [h]; rfl

/-- The winning definition of a name is that of the lowest level that has the block. -/
theorem block?_eq_findSome? (h : Hierarchy) (name : String) :
    h.block? name = h.templates.zipIdx.findSome? (definitionIn? name) := by
  rw [block?, definitions, get?_recordLeveled]
  rfl

private theorem definitionIn?_eq_none_iff {name : String} {leveled : Template × Nat} :
    definitionIn? name leveled = none ↔ leveled.1.defines name = false := by
  simp [definitionIn?, Template.defines]

/-- A block's chain lists the levels that have the block: starting the search at the winning
definition leaves none out. -/
theorem definers_eq_definingLevels (h : Hierarchy) (name : String) :
    h.definers name = h.definingLevels name := by
  unfold definers definingLevels
  rw [block?_eq_findSome?]
  split
  · next hnone =>
    have hundefined : h.templates.zipIdx.filter (fun (t, _) ↦ t.defines name) = [] := by
      refine List.filter_eq_nil_iff.mpr fun leveled hmem ↦ ?_
      have := definitionIn?_eq_none_iff.mp (List.findSome?_eq_none_iff.mp hnone leveled hmem)
      simp [this]
    rw [hundefined]
    rfl
  · next winner hsome =>
    obtain ⟨front, ⟨t, level⟩, back, hsplit, hwinner, hfront⟩ :=
      List.findSome?_eq_some_iff.mp hsome
    have hdepth : winner.depth = level := by
      obtain ⟨_, -, rfl⟩ := Option.map_eq_some_iff.mp hwinner
      rfl
    have hlevel : level = front.length := by
      have hindex : h.templates.zipIdx[front.length]? = some (t, level) := by simp [hsplit]
      rw [List.getElem?_zipIdx, Option.map_eq_some_iff] at hindex
      obtain ⟨_, -, hpair⟩ := hindex
      simpa using (congrArg Prod.snd hpair).symm
    have hundefined : front.filter (fun (t, _) ↦ t.defines name) = [] := by
      refine List.filter_eq_nil_iff.mpr fun leveled hmem ↦ ?_
      have := definitionIn?_eq_none_iff.mp (hfront leveled hmem)
      simp [this]
    rw [hsplit, hdepth, hlevel, List.drop_left, List.filter_append, hundefined, List.nil_append]

/-- The levels of a block's chain are those whose template has the block. -/
theorem mem_definingLevels_iff (h : Hierarchy) (name : String) (level : Nat) :
    level ∈ h.definingLevels name ↔ ∃ t, h.templates[level]? = some t ∧ t.defines name := by
  simp only [definingLevels, List.mem_map, List.mem_filter, Prod.exists, exists_eq_right,
    List.mem_zipIdx_iff_getElem?]

/-- Defining levels are listed from the lowest to the highest. -/
theorem pairwise_definingLevels (h : Hierarchy) (name : String) :
    (h.definingLevels name).Pairwise (· < ·) := by
  have hlevels : (h.templates.zipIdx.map Prod.snd).Pairwise (· < ·) := by
    rw [List.zipIdx_map_snd]
    exact List.pairwise_lt_range'
  exact hlevels.sublist (List.filter_sublist.map Prod.snd)

/-- The winning definition is the one that the template of its level gives the block. -/
theorem exists_template_of_block? {h : Hierarchy} {name : String} {winner : BlockDefinition}
    (hwinner : h.block? name = some winner) :
    ∃ t, h.templates[winner.depth]? = some t ∧ t.findBlock? name = some winner.body := by
  rw [block?_eq_findSome?] at hwinner
  obtain ⟨⟨t, level⟩, hmem, hdefinition⟩ := List.exists_of_findSome?_eq_some hwinner
  obtain ⟨body, hbody, rfl⟩ := Option.map_eq_some_iff.mp hdefinition
  exact ⟨t, List.mem_zipIdx_iff_getElem?.mp hmem, hbody⟩

/-- The winning definition is that of the first level that has the block. -/
theorem head?_definingLevels (h : Hierarchy) (name : String) :
    (h.definingLevels name).head? = (h.block? name).map (·.depth) := by
  rw [block?_eq_findSome?, definingLevels]
  induction h.templates.zipIdx with
  | nil => rfl
  | cons leveled rest ih =>
    rw [List.findSome?_cons, definitionIn?]
    cases hbody : leveled.1.findBlock? name with
    | none => simpa [Template.defines, hbody] using ih
    | some body => simp [Template.defines, hbody]

end Hierarchy

end TemplateInheritance
