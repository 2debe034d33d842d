import TemplateInheritance.Proofs.Blocks

/-!
# Recorded and found definitions

Templates recorded one after the other leave in the map what a search in them, one after the other,
comes upon first. So the winning definition of a hierarchy is that of its lowest level with such a
block, and the chain of a block name misses no level.
-/

namespace TemplateInheritance

/-- The definition is the first one of the name in a list of templates: it is found in the template
that stands at its depth, and nothing is found in the templates before. -/
structure FirstDefinition (ts : List Template) (name : String) (definition : BlockDefinition) :
    Prop where
  found : ∃ t, ts[definition.depth]? = some t ∧ t.name = definition.origin ∧
    t.findBlock? name = some definition.body
  first : ∀ t ∈ ts.take definition.depth, t.findBlock? name = none

variable {ts : List Template} {name : String} {definition : BlockDefinition}

private theorem forall_definitionIn?_eq_none_iff :
    (∀ leveled ∈ ts.zipIdx, Hierarchy.definitionIn? name leveled = none) ↔
      ∀ t ∈ ts, t.findBlock? name = none := by
  have hfst := List.forall_mem_map (f := Prod.fst) (l := ts.zipIdx)
    (P := fun t ↦ t.findBlock? name = none)
  rw [List.zipIdx_map_fst] at hfst
  rw [hfst]
  simp [Hierarchy.definitionIn?]

/-- A search that stops at the first template with such a block comes upon the first definition. -/
theorem findSome?_definitionIn?_eq_some_iff :
    ts.zipIdx.findSome? (Hierarchy.definitionIn? name) = some definition ↔
      FirstDefinition ts name definition := by
  rw [List.findSome?_eq_some_iff]
  constructor
  · rintro ⟨front, ⟨t, level⟩, back, hsplit, hdefinition, hfront⟩
    obtain ⟨before, _, rfl, rfl, hback⟩ := List.zipIdx_eq_append_iff.mp hsplit
    obtain ⟨_, after, rfl, hhead, -⟩ := List.zipIdx_eq_cons_iff.mp hback.symm
    cases hhead
    obtain ⟨body, hbody, rfl⟩ := Option.map_eq_some_iff.mp hdefinition
    constructor
    · exact ⟨t, by simp, rfl, hbody⟩
    · simpa using forall_definitionIn?_eq_none_iff.mp hfront
  · rintro ⟨⟨t, hat, horigin, hbody⟩, hfirst⟩
    obtain ⟨hdepth, rfl⟩ := List.getElem?_eq_some_iff.mp hat
    have hsplit : ts = ts.take definition.depth ++ ts[definition.depth] ::
        ts.drop (definition.depth + 1) := by simp
    refine ⟨(ts.take definition.depth).zipIdx, (ts[definition.depth], definition.depth),
      (ts.drop (definition.depth + 1)).zipIdx (definition.depth + 1), ?_, ?_, ?_⟩
    · have hzip := congrArg (List.zipIdx · 0) hsplit
      rw [List.zipIdx_append, List.zipIdx_cons, List.length_take,
        Nat.min_eq_left (Nat.le_of_lt hdepth), Nat.zero_add] at hzip
      exact hzip
    · rw [Hierarchy.definitionIn?, hbody, Option.map_some, horigin]
    · exact forall_definitionIn?_eq_none_iff.mpr hfirst

/-- The map of recorded templates holds the first definition of each name. -/
theorem Definitions.get?_recordTemplates_eq_some_iff :
    (Definitions.recordTemplates ts).get? name = some definition ↔
      FirstDefinition ts name definition := by
  rw [recordTemplates, Hierarchy.get?_recordLeveled, ← findSome?_definitionIn?_eq_some_iff]
  rfl

/-- A name is recorded if it is found in some template. -/
theorem Definitions.contains_recordTemplates_iff :
    (Definitions.recordTemplates ts).contains name = true ↔
      ∃ t ∈ ts, (t.findBlock? name).isSome = true := by
  have hget : (Definitions.recordTemplates ts).get? name =
      ts.zipIdx.findSome? (Hierarchy.definitionIn? name) := Hierarchy.get?_recordLeveled _ ∅ name
  rw [SortedMap.contains, hget, ← Option.ne_none_iff_isSome, Ne, List.findSome?_eq_none_iff,
    forall_definitionIn?_eq_none_iff]
  simp [Option.isSome_iff_ne_none]

namespace Hierarchy

/-- Whatever templates are recorded one after the other into an empty map, each one level above the
one before, the map has a name exactly if a search finds it in one of them, and its definition is
then the first that the search comes upon: with the depth and the name of that template and the body
that is found in it. Hence the winning definition of a hierarchy is the most derived one, and the
chain of a block lists, in rising order, all levels whose templates have such a block at any
depth of nesting. -/
theorem recorded_eq_found (ts : List Template) (h : Hierarchy) (name : String) :
    ((Definitions.recordTemplates ts).contains name = true ↔
      ∃ t ∈ ts, (t.findBlock? name).isSome = true) ∧
    (∀ definition, (Definitions.recordTemplates ts).get? name = some definition ↔
      FirstDefinition ts name definition) ∧
    (∀ definition, h.block? name = some definition ↔
      FirstDefinition h.templates name definition) ∧
    (h.definers name).Pairwise (· < ·) ∧
    ∀ level, level ∈ h.definers name ↔
      ∃ t, h.templates[level]? = some t ∧ ∃ block ∈ Nodes.blocks t.nodes, block.name = name := by
  refine ⟨Definitions.contains_recordTemplates_iff, ?_, ?_, ?_, ?_⟩
  · intro definition
    exact Definitions.get?_recordTemplates_eq_some_iff
  · intro definition
    exact Definitions.get?_recordTemplates_eq_some_iff
  · rw [definers_eq_definingLevels]
    exact h.pairwise_definingLevels name
  · intro level
    simp only [definers_eq_definingLevels, mem_definingLevels_iff, Template.defines,
      Template.findBlock?, Nodes.isSome_findBlock?_iff]

/-- Of two blocks of one name, an outer one and the one inside it, the outer one is recorded, and
neither gives way to a template above. -/
example :
    let page : Template := ⟨"page", [.group [.named "body" [.named "body" [.text "inner"]]]]⟩
    let base : Template := ⟨"base", [.named "body" [], .named "foot" []]⟩
    (Definitions.recordTemplates [page, base]).entries =
      [("body", ⟨"page", 0, [.named "body" [.text "inner"]]⟩), ("foot", ⟨"base", 1, []⟩)] := by
  decide +kernel

end Hierarchy

end TemplateInheritance
