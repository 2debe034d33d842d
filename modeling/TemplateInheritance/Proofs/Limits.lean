import Mathlib.Data.List.Perm.Subperm
import TemplateInheritance.Proofs.StrayCalls

/-!
# The limit only cuts off

A larger limit keeps every resolution that succeeds, with its tree, and a call that is too deep for
it is too deep for a smaller one. No call is deeper than the levels below the one that its block
was taken from, so that one less than the number of templates is limit enough.
-/

namespace TemplateInheritance

/-! ### Trees whose calls agree -/

section Agreement

variable {Mark : Type} {stands stands' : String → Mark → Node Unit}

mutual

private theorem Node.replaceCalls_congr {around : Option (String × Mark)} {node : Node Mark}
    (hsame : ∀ call ∈ Node.calls around node, stands call.1 call.2 = stands' call.1 call.2) :
    Node.replaceCalls stands around node = Node.replaceCalls stands' around node := by
  cases node with
  | leaf leaf =>
    cases around with
    | none => rfl
    | some block =>
      simp only [Node.replaceCalls, Leaf.replaceCall]
      split
      · next hcall => exact hsame block (by simp [Node.calls, Leaf.calls, hcall])
      · rfl
  | block mark name body =>
    rw [Node.replaceCalls, Nodes.replaceCalls_congr hsame, Node.replaceCalls]
  | conditional condition body arms otherwise =>
    simp only [Node.calls, List.forall_mem_append] at hsame
    rw [Node.replaceCalls, Nodes.replaceCalls_congr hsame.1.1, Arms.replaceCalls_congr hsame.1.2,
      Nodes.replaceCalls_congr hsame.2, Node.replaceCalls]
  | loop targets iterable body otherwise =>
    simp only [Node.calls, List.forall_mem_append] at hsame
    rw [Node.replaceCalls, Nodes.replaceCalls_congr hsame.1, Nodes.replaceCalls_congr hsame.2,
      Node.replaceCalls]
  | group body => rw [Node.replaceCalls, Nodes.replaceCalls_congr hsame, Node.replaceCalls]
termination_by structural node

/-- Only what the calls of a sequence stand for decides what replaces them. -/
theorem Nodes.replaceCalls_congr {around : Option (String × Mark)} {nodes : Nodes Mark}
    (hsame : ∀ call ∈ Nodes.calls around nodes, stands call.1 call.2 = stands' call.1 call.2) :
    Nodes.replaceCalls stands around nodes = Nodes.replaceCalls stands' around nodes := by
  cases nodes with
  | nil => rfl
  | cons node rest =>
    simp only [Nodes.calls, List.forall_mem_append] at hsame
    rw [Nodes.replaceCalls, Node.replaceCalls_congr hsame.1, Nodes.replaceCalls_congr hsame.2,
      Nodes.replaceCalls]
termination_by structural nodes

private theorem Arms.replaceCalls_congr {around : Option (String × Mark)} {arms : Arms Mark}
    (hsame : ∀ call ∈ Arms.calls around arms, stands call.1 call.2 = stands' call.1 call.2) :
    Arms.replaceCalls stands around arms = Arms.replaceCalls stands' around arms := by
  match arms with
  | [] => rfl
  | (condition, body) :: rest =>
    simp only [Arms.calls, List.forall_mem_append] at hsame
    rw [Arms.replaceCalls, Nodes.replaceCalls_congr hsame.1, Arms.replaceCalls_congr hsame.2,
      Arms.replaceCalls]
termination_by structural arms

end

variable {expand expand' : String → Mark → Except ResolveError (Node Unit)}

theorem firstError?_eq_none_iff {calls : List (String × Mark)} :
    firstError? expand calls = none ↔ ∀ call ∈ calls, ∃ node, expand call.1 call.2 = .ok node := by
  rw [firstError?, List.findSome?_eq_none_iff]
  refine forall₂_congr fun call _ ↦ ?_
  cases hcall : expand call.1 call.2 <;> simp [hcall]

/-- A sequence can be expanded exactly if each of its calls can. -/
theorem Nodes.expandCalls_eq_ok_iff {around : Option (String × Mark)} {nodes : Nodes Mark}
    {filled : Nodes Unit} :
    Nodes.expandCalls expand around nodes = .ok filled ↔
      (∀ call ∈ Nodes.calls around nodes, ∃ node, expand call.1 call.2 = .ok node) ∧
        Nodes.replaceCalls (expansionOr expand) around nodes = filled := by
  rw [← firstError?_eq_none_iff, Nodes.expandCalls]
  cases firstError? expand (Nodes.calls around nodes) <;> simp

/-- An expansion of calls that keeps what another one finds keeps the trees, too. -/
theorem Nodes.expandCalls_mono {around : Option (String × Mark)} {nodes : Nodes Mark}
    {filled : Nodes Unit}
    (hkeeps : ∀ call ∈ Nodes.calls around nodes, ∀ node,
      expand call.1 call.2 = .ok node → expand' call.1 call.2 = .ok node)
    (hok : Nodes.expandCalls expand around nodes = .ok filled) :
    Nodes.expandCalls expand' around nodes = .ok filled := by
  obtain ⟨hcalls, rfl⟩ := Nodes.expandCalls_eq_ok_iff.mp hok
  apply Nodes.expandCalls_eq_ok_iff.mpr
  constructor
  · intro call hcall
    obtain ⟨node, hnode⟩ := hcalls call hcall
    exact ⟨node, hkeeps call hcall node hnode⟩
  · apply Nodes.replaceCalls_congr
    intro call hcall
    obtain ⟨node, hnode⟩ := hcalls call hcall
    rw [expansionOr, expansionOr, hnode, hkeeps call hcall node hnode]

end Agreement

namespace Hierarchy

/-! ### Levels carried over -/

/-- Levels of one hierarchy carried to levels of another, limit and all: what is within the limit
stays so, the next definition is carried along, and the bodies are the same. -/
structure Carries (h : Hierarchy) (limit : Nat) (h' : Hierarchy) (limit' : Nat)
    (f : Nat → Nat) : Prop where
  below : ∀ name level, h.definersBelow name level ≤ limit →
    h'.definersBelow name (f level) ≤ limit'
  next : ∀ name level, h'.nextDefinition? name (f level) = (h.nextDefinition? name level).map f
  body : ∀ name level, h'.bodyAt (f level) name = h.bodyAt level name

/-- What a call stands for, it stands for wherever its level is carried. -/
theorem Carries.expand {h h' : Hierarchy} {limit limit' : Nat} {f : Nat → Nat}
    (hcarries : h.Carries limit h' limit' f) {name : String} {level : Nat} {node : Node Unit}
    (hok : h.expand limit name level = .ok node) :
    h'.expand limit' name (f level) = .ok node := by
  by_cases hdeep : limit < h.definersBelow name level
  · rw [expand_of_deep hdeep] at hok
    cases hok
  have hdeep' : ¬limit' < h'.definersBelow name (f level) := by
    have := hcarries.below name level (Nat.le_of_not_lt hdeep)
    omega
  have hnext' := hcarries.next name level
  cases hnext : h.nextDefinition? name level with
  | none =>
    rw [hnext] at hnext'
    rw [expand_of_topmost hdeep' hnext', ← expand_of_topmost hdeep hnext]
    exact hok
  | some above =>
    rw [hnext] at hnext'
    rw [expand_of_next hdeep hnext] at hok
    rw [expand_of_next hdeep' hnext', hcarries.body]
    cases hbody : Nodes.expandCalls (fun inner (_ : Unit) ↦ h.expand limit inner above)
        (some (name, ())) (h.bodyAt above name) with
    | error e =>
      rw [hbody] at hok
      cases hok
    | ok body =>
      have := nextDefinition?_bounds hnext
      have hbody' : Nodes.expandCalls (fun inner (_ : Unit) ↦ h'.expand limit' inner (f above))
          (some (name, ())) (h.bodyAt above name) = .ok body := by
        apply Nodes.expandCalls_mono _ hbody
        intro call _ inner hinner
        exact hcarries.expand hinner
      rw [hbody', ← hbody]
      exact hok
termination_by h.length - level

variable {h : Hierarchy} {limit limit' : Nat}

/-! ### A larger limit -/

/-- What a call stands for under a limit, it stands for under every larger one. -/
theorem expand_mono (hle : limit ≤ limit') {name : String} {level : Nat} {node : Node Unit}
    (hok : h.expand limit name level = .ok node) : h.expand limit' name level = .ok node := by
  have hcarries : h.Carries limit h limit' id :=
    ⟨fun _ _ hlimit ↦ Nat.le_trans hlimit hle, fun _ _ ↦ by simp, fun _ _ ↦ rfl⟩
  exact hcarries.expand hok

/-- A tree that can be expanded under a limit is expanded alike under every larger one. -/
theorem expandTree_mono (hle : limit ≤ limit') {tree : Nodes Nat} {nodes : Nodes Unit}
    (hok : h.expandTree limit tree = .ok nodes) : h.expandTree limit' tree = .ok nodes :=
  Nodes.expandCalls_mono (fun _ _ _ hcall ↦ expand_mono hle hcall) hok

/-! ### Limits that suffice -/

/-- No more levels below define a block than there are levels below. -/
theorem definersBelow_le (h : Hierarchy) (name : String) (level : Nat) :
    h.definersBelow name level ≤ level := by
  have hnodup : ((h.definingLevels name).filter (· < level)).Nodup :=
    ((h.pairwise_definingLevels name).imp Nat.ne_of_lt).filter _
  have hsubset : (h.definingLevels name).filter (· < level) ⊆ List.range level := by
    intro lower hlower
    simpa using (List.mem_filter.mp hlower).2
  rw [definersBelow_eq]
  simpa using (List.subperm_of_subset hnodup hsubset).length_le

/-- With a limit for all levels but one, no call in a block from any level is too deep. -/
theorem not_deep (hlimit : h.length ≤ limit + 1) (name : String) {level : Nat}
    (hlevel : level < h.length) : ¬limit < h.definersBelow name level := by
  have := h.definersBelow_le name level
  omega

/-- With a limit for all levels but one, a call in a block from any level stands for something. -/
theorem exists_expand (hlimit : h.length ≤ limit + 1) (name : String) {level : Nat}
    (hlevel : level < h.length) : ∃ node, h.expand limit name level = .ok node := by
  have hdeep := not_deep hlimit name hlevel
  cases hnext : h.nextDefinition? name level with
  | none => exact ⟨_, expand_of_topmost hdeep hnext⟩
  | some above =>
    have hbounds := nextDefinition?_bounds hnext
    have hbody : Nodes.expandCalls (fun inner (_ : Unit) ↦ h.expand limit inner above)
        (some (name, ())) (h.bodyAt above name) = .ok _ :=
      Nodes.expandCalls_eq_ok_iff.mpr
        ⟨fun call _ ↦ exists_expand hlimit call.1 hbounds.2, rfl⟩
    rw [expand_of_next hdeep hnext, hbody]
    exact ⟨_, rfl⟩
termination_by h.length - level

/-- With a limit for all levels but one, a tree whose blocks come from levels of the hierarchy can
be expanded. -/
theorem expandTree_of_levels (hlimit : h.length ≤ limit + 1) {tree : Nodes Nat}
    (hlevels : ∀ block ∈ Nodes.blocks tree, block.mark < h.length) :
    h.expandTree limit tree =
      .ok (Nodes.replaceCalls (expansionOr (h.expand limit)) none tree) := by
  refine Nodes.expandCalls_eq_ok_iff.mpr ⟨fun call hcall ↦ ?_, rfl⟩
  rcases Nodes.mem_calls hcall with hnone | ⟨block, hblock, rfl⟩
  · cases hnone
  · exact exists_expand hlimit block.name (hlevels block hblock)

/-- The blocks of the merged tree come from levels of the hierarchy. -/
theorem lt_length_of_mem_merged {block : Block Nat} (hblock : block ∈ Nodes.blocks h.merged) :
    block.mark < h.length :=
  lt_length_of_mem_definingLevels (h.definingLevels_merged block hblock)

/-! ### Resolutions under two limits -/

/-- A resolution succeeds exactly if no call is stray and the merged tree can be expanded. -/
theorem resolveMerged_eq_ok_iff {t : Template} :
    ((h.resolveMerged limit).run []).1 = .ok t ↔
      (∀ s ∈ h.templates, Nodes.strayCall? s.nodes = none) ∧
        ∃ nodes, h.expandTree limit h.merged = .ok nodes ∧ ⟨h.leaf.name, nodes⟩ = t := by
  rw [← findSome?_strayError?_eq_none_iff]
  cases hfound : h.templates.findSome? strayError? with
  | some e => simp [resolveMerged_of_findSome? hfound]
  | none =>
    have hstray := findSome?_strayError?_eq_none_iff.mp hfound
    rw [resolveMerged_eq_expandTree h limit hstray, map_eq_ok_iff]
    simp

/-- A resolution that succeeds under a limit succeeds with the same tree under every larger one, so
that a call too deep for the larger limit is too deep for the smaller one. A limit of one less than
the number of templates is never too small. -/
theorem resolveMerged_limits (h : Hierarchy) {limit limit' : Nat} (hle : limit ≤ limit') :
    (∀ t, ((h.resolveMerged limit).run []).1 = .ok t →
      ((h.resolveMerged limit').run []).1 = .ok t) ∧
    (∀ block bound, ((h.resolveMerged limit').run []).1 = .error (.superTooDeep block bound) →
      ∃ block, ((h.resolveMerged limit).run []).1 = .error (.superTooDeep block limit)) ∧
    (h.length - 1 ≤ limit → ∀ block bound,
      ((h.resolveMerged limit).run []).1 ≠ .error (.superTooDeep block bound)) := by
  have hkeeps (t : Template) (hok : ((h.resolveMerged limit).run []).1 = .ok t) :
      ((h.resolveMerged limit').run []).1 = .ok t := by
    obtain ⟨hstray, nodes, hnodes, ht⟩ := resolveMerged_eq_ok_iff.mp hok
    exact resolveMerged_eq_ok_iff.mpr ⟨hstray, nodes, expandTree_mono hle hnodes, ht⟩
  refine ⟨hkeeps, fun block bound herror ↦ ?_, fun hlimit block bound herror ↦ ?_⟩
  · cases hsmaller : ((h.resolveMerged limit).run []).1 with
    | ok t => cases herror.symm.trans (hkeeps t hsmaller)
    | error e =>
      have hfound := findSome?_strayError?_of_tooDeep herror
      obtain ⟨other, rfl⟩ := error_of_resolveMerged hfound hsmaller
      exact ⟨other, rfl⟩
  · have hfound := findSome?_strayError?_of_tooDeep herror
    have hstray := findSome?_strayError?_eq_none_iff.mp hfound
    have hlength : h.length ≤ limit + 1 := by omega
    have htree := expandTree_of_levels hlength fun _ ↦ lt_length_of_mem_merged
    have hok := resolveMerged_eq_ok_iff.mpr ⟨hstray, _, htree, rfl⟩
    cases herror.symm.trans hok

end Hierarchy

namespace CallTower

/-- A page of one block that asks for the body above it. -/
def page (name : String) : Template := ⟨name, [.named "body" [.superCall]]⟩

/-- Three pages that each ask for the body above, the topmost in vain. -/
def hierarchy : Hierarchy := ⟨page "ground", [page "first", page "second"]⟩

/-- The call at the top is too deep for a limit of one and so for zero, and not for two. -/
theorem resolveMerged_limits_hierarchy :
    ((hierarchy.resolveMerged 1).run []).1 = .error (.superTooDeep "body" 1) ∧
      (∃ block, ((hierarchy.resolveMerged 0).run []).1 = .error (.superTooDeep block 0)) ∧
      ((hierarchy.resolveMerged 2).run []).1 = .ok ⟨"ground", [.named "body" [.text ""]]⟩ ∧
      ((hierarchy.resolveMerged 3).run []).1 = .ok ⟨"ground", [.named "body" [.text ""]]⟩ ∧
      ∀ block bound,
        ((hierarchy.resolveMerged 2).run []).1 ≠ .error (.superTooDeep block bound) := by
  have hstray : ∀ t ∈ hierarchy.templates, Nodes.strayCall? t.nodes = none := by decide
  have hdeep : ((hierarchy.resolveMerged 1).run []).1 = .error (.superTooDeep "body" 1) := by
    rw [Hierarchy.resolveMerged_eq_expandTree hierarchy 1 hstray]
    decide +kernel
  have hok : ((hierarchy.resolveMerged 2).run []).1 =
      .ok ⟨"ground", [.named "body" [.text ""]]⟩ := by
    rw [Hierarchy.resolveMerged_eq_expandTree hierarchy 2 hstray]
    decide +kernel
  have hsmaller := (hierarchy.resolveMerged_limits (Nat.zero_le 1)).2.1 "body" 1 hdeep
  have hlarger := hierarchy.resolveMerged_limits (Nat.le_succ 2)
  exact ⟨hdeep, hsmaller, hok, hlarger.1 _ hok, hlarger.2.2 (by decide)⟩

end CallTower

end TemplateInheritance
