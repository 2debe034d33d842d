import TemplateInheritance.Proofs.SuperCalls

/-!
# Stray calls are reported first

Templates are searched for a call outside all blocks before anything is substituted, and the first
one found is the error. A tree that passes the search has a block around every call, in the tree
itself and in the bodies that come into it, so that no substitution ever lacks one.
-/

namespace TemplateInheritance

/-! ### Leaves outside blocks -/

section Listing

variable {Mark : Type}

mutual

/-- The leaves of the node that stand in no block, in document order. -/
def Node.openLeaves : Node Mark → List Leaf
  | .leaf leaf => [leaf]
  | .block .. => []
  | .conditional _ body arms otherwise =>
    Nodes.openLeaves body ++ Arms.openLeaves arms ++ Nodes.openLeaves otherwise
  | .loop _ _ body otherwise => Nodes.openLeaves body ++ Nodes.openLeaves otherwise
  | .group body => Nodes.openLeaves body
termination_by structural node => node

/-- The leaves of the sequence that stand in no block, in document order. -/
def Nodes.openLeaves : Nodes Mark → List Leaf
  | [] => []
  | node :: rest => Node.openLeaves node ++ Nodes.openLeaves rest
termination_by structural nodes => nodes

/-- The leaves of the arms that stand in no block, in document order. -/
def Arms.openLeaves : Arms Mark → List Leaf
  | [] => []
  | (_, body) :: rest => Nodes.openLeaves body ++ Arms.openLeaves rest
termination_by structural arms => arms

end

mutual

private theorem Node.strayCall?_eq_findSome? (node : Node Mark) :
    Node.strayCall? node = (Node.openLeaves node).findSome? Leaf.superCall? := by
  cases node <;>
    simp [Node.strayCall?, Node.openLeaves, Nodes.strayCall?_eq_findSome?,
      Arms.strayCall?_eq_findSome?, Option.or_assoc]
termination_by structural node

/-- The search for a stray call stops at the first call among the leaves outside blocks. -/
theorem Nodes.strayCall?_eq_findSome? (nodes : Nodes Mark) :
    Nodes.strayCall? nodes = (Nodes.openLeaves nodes).findSome? Leaf.superCall? := by
  cases nodes <;>
    simp [Nodes.strayCall?, Nodes.openLeaves, Node.strayCall?_eq_findSome?,
      Nodes.strayCall?_eq_findSome?]
termination_by structural nodes

private theorem Arms.strayCall?_eq_findSome? (arms : Arms Mark) :
    Arms.strayCall? arms = (Arms.openLeaves arms).findSome? Leaf.superCall? := by
  match arms with
  | [] => rfl
  | (_, body) :: rest =>
    simp [Arms.strayCall?, Arms.openLeaves, Nodes.strayCall?_eq_findSome? body,
      Arms.strayCall?_eq_findSome? rest]
termination_by structural arms

end

end Listing

theorem Leaf.superCall?_eq_some_iff {leaf : Leaf} {location : Option Location} :
    leaf.superCall? = some location ↔ leaf = .output .super location := by
  cases leaf with
  | output expr found => cases expr <;> simp [superCall?, Expr.isSuper]
  | _ => simp [superCall?]

theorem Leaf.superCall?_eq_none_iff {leaf : Leaf} :
    leaf.superCall? = none ↔ ∀ location, leaf ≠ .output .super location := by
  rw [Option.eq_none_iff_forall_ne_some]
  exact forall_congr' fun location ↦ not_congr superCall?_eq_some_iff

/-! ### Stray calls of templates -/

namespace Template

/-- A call stands in no block of the template. -/
def HasStrayCall (t : Template) : Prop :=
  ∃ location, Leaf.output .super location ∈ Nodes.openLeaves t.nodes

/-- The first stray call of the template has that location. -/
def FirstStrayCall (t : Template) (location : Option Location) : Prop :=
  ∃ before after, Nodes.openLeaves t.nodes = before ++ Leaf.output .super location :: after ∧
    ∀ other, Leaf.output .super other ∉ before

variable {t : Template}

theorem strayCall?_eq_some_iff {location : Option Location} :
    Nodes.strayCall? t.nodes = some location ↔ t.FirstStrayCall location := by
  rw [Nodes.strayCall?_eq_findSome?, List.findSome?_eq_some_iff]
  constructor
  · rintro ⟨before, leaf, after, hsplit, hcall, hbefore⟩
    rw [Leaf.superCall?_eq_some_iff.mp hcall] at hsplit
    refine ⟨before, after, hsplit, fun other hmem ↦ ?_⟩
    exact Leaf.superCall?_eq_none_iff.mp (hbefore _ hmem) other rfl
  · rintro ⟨before, after, hsplit, hbefore⟩
    refine ⟨before, _, after, hsplit, rfl, fun leaf hmem ↦ ?_⟩
    rw [Leaf.superCall?_eq_none_iff]
    rintro other rfl
    exact hbefore other hmem

theorem strayCall?_eq_none_iff : Nodes.strayCall? t.nodes = none ↔ ¬t.HasStrayCall := by
  rw [Nodes.strayCall?_eq_findSome?, List.findSome?_eq_none_iff]
  simp only [Leaf.superCall?_eq_none_iff, HasStrayCall, not_exists]
  constructor
  · intro hnone location hmem
    exact hnone _ hmem location rfl
  · rintro hnone leaf hmem location rfl
    exact hnone location hmem

theorem strayError?_eq_some_iff {e : ResolveError} :
    Hierarchy.strayError? t = some e ↔
      ∃ location, t.FirstStrayCall location ∧ .superOutsideBlock (some t.name) location = e := by
  rw [Hierarchy.strayError?, Option.map_eq_some_iff]
  exact exists_congr fun location ↦ and_congr_left' strayCall?_eq_some_iff

theorem strayError?_eq_none_iff : Hierarchy.strayError? t = none ↔ ¬t.HasStrayCall := by
  rw [Hierarchy.strayError?, Option.map_eq_none_iff, strayCall?_eq_none_iff]

end Template

/-! ### Errors of a substitution -/

/-- Whatever is remembered, the substitution fails with no error but one of that kind. -/
def FailsOnly {α : Type} (kind : ResolveError → Prop) (x : Substitution α) : Prop :=
  ∀ memo e, (x.run memo).1 = .error e → kind e

section FailsOnly

variable {α β : Type} {kind : ResolveError → Prop}

theorem failsOnly_pure (a : α) : FailsOnly kind (pure a) :=
  fun _ _ herror ↦ by cases herror

theorem failsOnly_throw {e : ResolveError} (he : kind e) :
    FailsOnly kind (throw e : Substitution α) := by
  intro memo other herror
  rw [← Except.error.inj herror]
  exact he

theorem failsOnly_bind {x : Substitution α} {next : α → Substitution β} (hx : FailsOnly kind x)
    (hnext : ∀ a, FailsOnly kind (next a)) : FailsOnly kind (x >>= next) := by
  intro memo e herror
  have hfirst := hx memo
  rw [run_bind] at herror
  generalize x.run memo = ran at herror hfirst
  obtain ⟨result, memo'⟩ := ran
  cases result with
  | error other =>
    obtain rfl := Except.error.inj herror
    exact hfirst other rfl
  | ok a => exact hnext a memo' e herror

variable {Mark : Type} {call : String → Mark → Substitution (Node Unit)}

private theorem Leaf.failsOnly_fill (hcall : ∀ name mark, FailsOnly kind (call name mark))
    {around : Option (String × Mark)} {leaf : Leaf}
    (hstray : around = none → leaf.superCall? = none) : FailsOnly kind (leaf.fill call around) := by
  unfold Leaf.fill
  cases hsuper : leaf.superCall? with
  | none => exact failsOnly_pure _
  | some location =>
    cases around with
    | none => cases hsuper.symm.trans (hstray rfl)
    | some block => exact hcall block.1 block.2

mutual

private theorem Node.failsOnly_fill (hcall : ∀ name mark, FailsOnly kind (call name mark))
    {around : Option (String × Mark)} {node : Node Mark}
    (hstray : around = none → Node.strayCall? node = none) :
    FailsOnly kind (Node.fill call around node) := by
  cases node with
  | leaf leaf => exact Leaf.failsOnly_fill hcall hstray
  | block mark name body =>
    rw [Node.fill]
    apply failsOnly_bind
    · apply Nodes.failsOnly_fill hcall
      intro hnone
      cases hnone
    · intro filled
      exact failsOnly_pure _
  | conditional condition body arms otherwise =>
    simp only [Node.strayCall?, Option.or_eq_none_iff] at hstray
    rw [Node.fill]
    apply failsOnly_bind (Nodes.failsOnly_fill hcall fun h ↦ (hstray h).1.1)
    intro filled
    apply failsOnly_bind (Arms.failsOnly_fill hcall fun h ↦ (hstray h).1.2)
    intro filledArms
    apply failsOnly_bind (Nodes.failsOnly_fill hcall fun h ↦ (hstray h).2)
    intro filledElse
    exact failsOnly_pure _
  | loop targets iterable body otherwise =>
    simp only [Node.strayCall?, Option.or_eq_none_iff] at hstray
    rw [Node.fill]
    apply failsOnly_bind (Nodes.failsOnly_fill hcall fun h ↦ (hstray h).1)
    intro filled
    apply failsOnly_bind (Nodes.failsOnly_fill hcall fun h ↦ (hstray h).2)
    intro filledElse
    exact failsOnly_pure _
  | group body =>
    rw [Node.fill]
    apply failsOnly_bind (Nodes.failsOnly_fill hcall hstray)
    intro filled
    exact failsOnly_pure _
termination_by structural node

/-- Where no call is stray, only what the calls themselves fail with can go wrong. -/
theorem Nodes.failsOnly_fill (hcall : ∀ name mark, FailsOnly kind (call name mark))
    {around : Option (String × Mark)} {nodes : Nodes Mark}
    (hstray : around = none → Nodes.strayCall? nodes = none) :
    FailsOnly kind (Nodes.fill call around nodes) := by
  cases nodes with
  | nil => exact failsOnly_pure _
  | cons node rest =>
    simp only [Nodes.strayCall?, Option.or_eq_none_iff] at hstray
    rw [Nodes.fill]
    apply failsOnly_bind (Node.failsOnly_fill hcall fun h ↦ (hstray h).1)
    intro filled
    apply failsOnly_bind (Nodes.failsOnly_fill hcall fun h ↦ (hstray h).2)
    intro filledRest
    exact failsOnly_pure _
termination_by structural nodes

private theorem Arms.failsOnly_fill (hcall : ∀ name mark, FailsOnly kind (call name mark))
    {around : Option (String × Mark)} {arms : Arms Mark}
    (hstray : around = none → Arms.strayCall? arms = none) :
    FailsOnly kind (Arms.fill call around arms) := by
  match arms with
  | [] => exact failsOnly_pure _
  | (condition, body) :: rest =>
    simp only [Arms.strayCall?, Option.or_eq_none_iff] at hstray
    rw [Arms.fill]
    apply failsOnly_bind (Nodes.failsOnly_fill hcall fun h ↦ (hstray h).1)
    intro filled
    apply failsOnly_bind (Arms.failsOnly_fill hcall fun h ↦ (hstray h).2)
    intro filledRest
    exact failsOnly_pure _
termination_by structural arms

end

end FailsOnly

/-! ### Errors of a resolution -/

namespace Hierarchy

/-- The first template with a stray call, the requested one before its ancestors, and the location
of the first stray call in it. -/
def FirstStrayCall (h : Hierarchy) (t : Template) (location : Option Location) : Prop :=
  ∃ below above, h.templates = below ++ t :: above ∧ (∀ s ∈ below, ¬s.HasStrayCall) ∧
    t.FirstStrayCall location

/-- A call can fail for nothing but too many definitions below it. -/
theorem failsOnly_substitute (h : Hierarchy) (limit : Nat) (name : String) (level : Nat) :
    FailsOnly (fun e ↦ ∃ block, e = .superTooDeep block limit)
      (h.substitute limit name level) := by
  intro memo
  rw [substitute]
  by_cases hdeep : limit < h.definersBelow name level
  · rw [if_pos hdeep]
    exact failsOnly_throw ⟨name, rfl⟩ memo
  rw [if_neg hdeep, run_get_bind]
  split
  · exact failsOnly_pure _ memo
  split
  · exact failsOnly_pure _ memo
  · next above hnext =>
    have := definerAbove?_bounds hnext
    -- a body that comes in is the body of a block, which all its calls have around them
    have hbody : FailsOnly (fun e ↦ ∃ block, e = .superTooDeep block limit)
        (Nodes.fill (fun inner (_ : Unit) ↦ h.substitute limit inner above) (some (name, ()))
          (h.bodyAt above name)) := by
      apply Nodes.failsOnly_fill
      · intro inner _
        exact failsOnly_substitute h limit inner above
      · intro hnone
        cases hnone
    refine failsOnly_bind hbody (fun body memo' e herror ↦ ?_) memo
    cases herror
termination_by h.length - level

variable {h : Hierarchy} {limit : Nat} {memo : Memo}

/-- Resolving a tree ends with the first stray call there is, or is substituting its calls. -/
theorem resolveSuper_cases (h : Hierarchy) (limit : Nat) (name : String) (tree : Nodes Nat) :
    (∃ e, (h.templates ++ [Template.mk name (Nodes.unmarked tree)]).findSome? strayError? =
        some e ∧ h.resolveSuper limit name tree = throw e) ∨
      (Nodes.strayCall? tree = none ∧
        h.resolveSuper limit name tree =
          Nodes.fill (h.substitute limit) none tree >>= fun nodes ↦ pure ⟨name, nodes⟩) := by
  rw [resolveSuper]
  cases hfound : (h.templates ++ [Template.mk name (Nodes.unmarked tree)]).findSome?
      strayError? with
  | some e => exact .inl ⟨e, rfl, rfl⟩
  | none =>
    refine .inr ⟨?_, rfl⟩
    have htree := List.findSome?_eq_none_iff.mp hfound ⟨name, Nodes.unmarked tree⟩ (by simp)
    rw [strayError?, Option.map_eq_none_iff, Nodes.unmarked, Nodes.strayCall?_mark] at htree
    exact htree

/-- However a tree is resolved, an error about a stray call names the template that it stands in. -/
theorem resolveSuper_ne_unnamed (h : Hierarchy) (name : String) (tree : Nodes Nat)
    (location : Option Location) :
    ((h.resolveSuper limit name tree).run memo).1 ≠
      .error (.superOutsideBlock none location) := by
  intro herror
  rcases h.resolveSuper_cases limit name tree with ⟨e, hfound, hthrow⟩ | ⟨hstray, hfill⟩
  · rw [hthrow] at herror
    obtain rfl := Except.error.inj herror
    obtain ⟨_, t, _, -, ht, -⟩ := List.findSome?_eq_some_iff.mp hfound
    obtain ⟨_, -, hnamed⟩ := Template.strayError?_eq_some_iff.mp ht
    cases hnamed
  · rw [hfill] at herror
    have honly : FailsOnly (fun e ↦ ∃ block, e = .superTooDeep block limit)
        (Nodes.fill (h.substitute limit) none tree >>= fun nodes ↦
          pure (Template.mk name nodes)) := by
      apply failsOnly_bind
      · exact Nodes.failsOnly_fill (h.failsOnly_substitute limit) fun _ ↦ hstray
      · intro nodes
        exact failsOnly_pure _
    obtain ⟨block, hdeep⟩ := honly memo _ herror
    cases hdeep

theorem findSome?_strayError?_eq_some_iff {e : ResolveError} :
    h.templates.findSome? strayError? = some e ↔
      ∃ t location, h.FirstStrayCall t location ∧
        .superOutsideBlock (some t.name) location = e := by
  rw [List.findSome?_eq_some_iff]
  constructor
  · rintro ⟨below, t, above, hsplit, ht, hbelow⟩
    obtain ⟨location, hfirst, he⟩ := Template.strayError?_eq_some_iff.mp ht
    refine ⟨t, location, ⟨below, above, hsplit, fun s hs ↦ ?_, hfirst⟩, he⟩
    exact Template.strayError?_eq_none_iff.mp (hbelow s hs)
  · rintro ⟨t, location, ⟨below, above, hsplit, hbelow, hfirst⟩, he⟩
    refine ⟨below, t, above, hsplit, ?_, fun s hs ↦ ?_⟩
    · exact Template.strayError?_eq_some_iff.mpr ⟨location, hfirst, he⟩
    · exact Template.strayError?_eq_none_iff.mpr (hbelow s hs)

theorem findSome?_strayError?_eq_none_iff :
    h.templates.findSome? strayError? = none ↔
      ∀ t ∈ h.templates, Nodes.strayCall? t.nodes = none := by
  rw [List.findSome?_eq_none_iff]
  refine forall₂_congr fun t _ ↦ ?_
  rw [strayError?, Option.map_eq_none_iff]

/-- The merged tree is searched after the templates, and has no stray call that they do not have. -/
theorem findSome?_strayError?_merged (h : Hierarchy) :
    (h.templates ++ [Template.mk h.leaf.name (Nodes.unmarked h.merged)]).findSome? strayError? =
      h.templates.findSome? strayError? := by
  rw [List.findSome?_append]
  cases hfound : h.templates.findSome? strayError? with
  | some e => rfl
  | none =>
    have hroot := findSome?_strayError?_eq_none_iff.mp hfound h.root h.root_mem_templates
    simp [strayError?, Nodes.unmarked, Nodes.strayCall?_mark, h.strayCall?_merged, hroot]

/-- A stray call of a template is the outcome, whatever the limit and the memory. -/
theorem resolveMerged_of_findSome? {e : ResolveError}
    (hfound : h.templates.findSome? strayError? = some e) :
    ((h.resolveMerged limit).run memo).1 = .error e := by
  rw [resolveMerged, resolveSuper, h.findSome?_strayError?_merged, hfound]
  rfl

/-- Where a call is found too deep, no call was found stray. -/
theorem findSome?_strayError?_of_tooDeep {block : String} {bound : Nat}
    (herror : ((h.resolveMerged limit).run memo).1 = .error (.superTooDeep block bound)) :
    h.templates.findSome? strayError? = none := by
  cases hfound : h.templates.findSome? strayError? with
  | none => rfl
  | some e =>
    rw [resolveMerged_of_findSome? hfound] at herror
    obtain ⟨t, location, -, rfl⟩ := findSome?_strayError?_eq_some_iff.mp hfound
    cases herror

/-- Without a stray call, the merged tree can only fail with a call that is too deep. -/
theorem error_of_resolveMerged (hfound : h.templates.findSome? strayError? = none)
    {e : ResolveError} (herror : ((h.resolveMerged limit).run memo).1 = .error e) :
    ∃ block, e = .superTooDeep block limit := by
  have hstray := findSome?_strayError?_eq_none_iff.mp hfound
  rw [resolveMerged_of_noStray hstray] at herror
  have honly : FailsOnly (fun e ↦ ∃ block, e = .superTooDeep block limit)
      (Nodes.fill (h.substitute limit) none h.merged) := by
    apply Nodes.failsOnly_fill (h.failsOnly_substitute limit)
    exact fun _ ↦ strayCall?_merged_eq_none hstray
  exact failsOnly_bind honly (fun nodes ↦ failsOnly_pure _) memo e herror

/-- Some template has a first stray call exactly if some template has any. -/
theorem exists_firstStrayCall_iff (h : Hierarchy) :
    (∃ t location, h.FirstStrayCall t location) ↔ ∃ t ∈ h.templates, t.HasStrayCall := by
  constructor
  · rintro ⟨t, location, below, above, hsplit, -, before, after, hleaves, -⟩
    exact ⟨t, by simp [hsplit], location, by simp [hleaves]⟩
  · rintro ⟨t, ht, hstray⟩
    cases hfound : h.templates.findSome? strayError? with
    | none =>
      have hnone := findSome?_strayError?_eq_none_iff.mp hfound t ht
      exact absurd hstray (Template.strayCall?_eq_none_iff.mp hnone)
    | some e =>
      obtain ⟨s, location, hfirst, -⟩ := findSome?_strayError?_eq_some_iff.mp hfound
      exact ⟨s, location, hfirst⟩

/-- The error about a stray call is about the first one. -/
theorem resolveMerged_eq_superOutsideBlock_iff {name? : Option String}
    {location : Option Location} :
    ((h.resolveMerged limit).run memo).1 = .error (.superOutsideBlock name? location) ↔
      ∃ t, h.FirstStrayCall t location ∧ name? = some t.name := by
  constructor
  · intro herror
    cases hfound : h.templates.findSome? strayError? with
    | none =>
      obtain ⟨block, hdeep⟩ := error_of_resolveMerged hfound herror
      cases hdeep
    | some e =>
      rw [resolveMerged_of_findSome? hfound] at herror
      obtain ⟨t, other, ht, rfl⟩ := findSome?_strayError?_eq_some_iff.mp hfound
      cases herror
      exact ⟨t, ht, rfl⟩
  · rintro ⟨t, ht, rfl⟩
    apply resolveMerged_of_findSome?
    exact findSome?_strayError?_eq_some_iff.mpr ⟨t, location, ht, rfl⟩

/-- Resolving the merged tree fails for a stray call exactly if some template has one, replaced
skeletons included. The error is about the first such template from the requested one up and tells
the location of the first such call in it. It comes before any call that is too deep, and no tree,
merged or not, makes an error that names no template. -/
theorem resolveMerged_reports_stray (h : Hierarchy) (limit : Nat) (memo : Memo) :
    ((∃ name? location, ((h.resolveMerged limit).run memo).1 =
        .error (.superOutsideBlock name? location)) ↔ ∃ t ∈ h.templates, t.HasStrayCall) ∧
    (∀ name? location, ((h.resolveMerged limit).run memo).1 =
        .error (.superOutsideBlock name? location) ↔
      ∃ t, h.FirstStrayCall t location ∧ name? = some t.name) ∧
    (∀ block bound, ((h.resolveMerged limit).run memo).1 = .error (.superTooDeep block bound) →
      ∀ t ∈ h.templates, ¬t.HasStrayCall) ∧
    ∀ name tree location, ((h.resolveSuper limit name tree).run memo).1 ≠
      .error (.superOutsideBlock none location) := by
  refine ⟨?_, fun _ _ ↦ resolveMerged_eq_superOutsideBlock_iff, ?_, h.resolveSuper_ne_unnamed⟩
  · rw [← exists_firstStrayCall_iff]
    constructor
    · rintro ⟨name?, location, herror⟩
      obtain ⟨t, hfirst, -⟩ := resolveMerged_eq_superOutsideBlock_iff.mp herror
      exact ⟨t, location, hfirst⟩
    · rintro ⟨t, location, hfirst⟩
      exact ⟨_, _, resolveMerged_eq_superOutsideBlock_iff.mpr ⟨t, hfirst, rfl⟩⟩
  · intro block bound herror t ht
    have hclean := findSome?_strayError?_eq_none_iff.mp (findSome?_strayError?_of_tooDeep herror)
    exact Template.strayCall?_eq_none_iff.mp (hclean t ht)

/-- A call in a condition of a replaced skeleton comes before one that is too deep for the limit. -/
example :
    let middle : Template :=
      ⟨"middle", [.conditional (.var "admin") [.superCall] [] [], .named "body" [.superCall]]⟩
    let root : Template := ⟨"root", [.named "body" []]⟩
    let h : Hierarchy := ⟨⟨"leaf", [.named "body" [.superCall]]⟩, [middle, root]⟩
    ((h.resolveMerged 0).run []).1 = .error (.superOutsideBlock (some "middle") none) := by
  decide +kernel

end Hierarchy

end TemplateInheritance
