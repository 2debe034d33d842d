import TemplateInheritance.Proofs.MergedTree
import TemplateInheritance.Proofs.Placement
import TemplateInheritance.Super.Expansion

/-!
# Substitution and expansion

Substituting calls with a memory gives what expanding them without one gives. A walk that fills in
calls fails like the first call that fails, and a memory holds nothing but expansions as long as
calls come from levels that define their block. All calls of a merged tree do.
-/

namespace TemplateInheritance

/-! ### Calls and the blocks around them -/

section Calls

variable {Mark : Type} {call : String × Mark}

mutual

private theorem Node.mem_calls {around : Option (String × Mark)} {node : Node Mark}
    (hmem : call ∈ Node.calls around node) :
    around = some call ∨ ∃ block ∈ Node.blocks node, call = (block.name, block.mark) := by
  cases node with
  | leaf leaf =>
    simp only [Node.calls, Leaf.calls] at hmem
    split at hmem
    · exact .inl (Option.mem_toList.mp hmem)
    · cases hmem
  | block mark name body =>
    simp only [Node.calls] at hmem
    rcases Nodes.mem_calls hmem with haround | ⟨block, hblock, hcall⟩
    · exact .inr ⟨⟨mark, name, body⟩, List.mem_cons_self, (Option.some.inj haround).symm⟩
    · exact .inr ⟨block, .tail _ hblock, hcall⟩
  | conditional condition body arms otherwise =>
    simp only [Node.calls, Node.blocks, List.mem_append, or_and_right, exists_or] at hmem ⊢
    rcases hmem with (hmem | hmem) | hmem
    · exact (Nodes.mem_calls hmem).imp_right fun hblock ↦ .inl (.inl hblock)
    · exact (Arms.mem_calls hmem).imp_right fun hblock ↦ .inl (.inr hblock)
    · exact (Nodes.mem_calls hmem).imp_right .inr
  | loop targets iterable body otherwise =>
    simp only [Node.calls, Node.blocks, List.mem_append, or_and_right, exists_or] at hmem ⊢
    rcases hmem with hmem | hmem
    · exact (Nodes.mem_calls hmem).imp_right .inl
    · exact (Nodes.mem_calls hmem).imp_right .inr
  | group body => exact Nodes.mem_calls hmem
termination_by structural node

/-- A call in a sequence belongs to a block of the sequence or to the one around it. -/
theorem Nodes.mem_calls {around : Option (String × Mark)} {nodes : Nodes Mark}
    (hmem : call ∈ Nodes.calls around nodes) :
    around = some call ∨ ∃ block ∈ Nodes.blocks nodes, call = (block.name, block.mark) := by
  cases nodes with
  | nil => cases hmem
  | cons node rest =>
    simp only [Nodes.calls, Nodes.blocks, List.mem_append, or_and_right, exists_or] at hmem ⊢
    rcases hmem with hmem | hmem
    · exact (Node.mem_calls hmem).imp_right .inl
    · exact (Nodes.mem_calls hmem).imp_right .inr
termination_by structural nodes

private theorem Arms.mem_calls {around : Option (String × Mark)} {arms : Arms Mark}
    (hmem : call ∈ Arms.calls around arms) :
    around = some call ∨ ∃ block ∈ Arms.blocks arms, call = (block.name, block.mark) := by
  match arms with
  | [] => cases hmem
  | (_, body) :: rest =>
    simp only [Arms.calls, Arms.blocks, List.mem_append, or_and_right, exists_or] at hmem ⊢
    rcases hmem with hmem | hmem
    · exact (Nodes.mem_calls hmem).imp_right .inl
    · exact (Arms.mem_calls hmem).imp_right .inr
termination_by structural arms

end

end Calls

/-! ### Filling in calls that may fail -/

/-- A value, unless there is an error. -/
def valueUnless {α : Type} (error? : Option ResolveError) (value : α) : Except ResolveError α :=
  match error? with
  | some e => .error e
  | none => .ok value

section Filling

variable {Mark : Type} {expand : String → Mark → Except ResolveError (Node Unit)}

theorem firstError?_append (front back : List (String × Mark)) :
    firstError? expand (front ++ back) = (firstError? expand front).or (firstError? expand back) :=
  List.findSome?_append

private theorem Leaf.fill_eq {around : Option (String × Mark)} {leaf : Leaf}
    (hstray : around = none → leaf.superCall? = none) :
    leaf.fill expand around =
      valueUnless (firstError? expand (leaf.calls around))
        (leaf.replaceCall (expansionOr expand) around) := by
  cases hcall : leaf.superCall? with
  | none =>
    have hplain : leaf.isSuperCall = false := by
      rw [← isSome_superCall?, hcall]
      rfl
    cases around <;> simp [fill, calls, replaceCall, hcall, hplain] <;> rfl
  | some location =>
    have hsuper : leaf.isSuperCall = true := by
      rw [← isSome_superCall?, hcall]
      rfl
    cases around with
    | none => cases hcall.symm.trans (hstray rfl)
    | some block =>
      obtain ⟨name, mark⟩ := block
      simp only [fill, calls, replaceCall, hcall, hsuper, if_true, Option.toList_some, firstError?,
        List.findSome?_cons, List.findSome?_nil, expansionOr]
      cases expand name mark <;> rfl

mutual

private theorem Node.fill_eq {around : Option (String × Mark)} {node : Node Mark}
    (hstray : around = none → Node.strayCall? node = none) :
    Node.fill expand around node =
      valueUnless (firstError? expand (Node.calls around node))
        (Node.replaceCalls (expansionOr expand) around node) := by
  cases node with
  | leaf leaf => exact Leaf.fill_eq hstray
  | block mark name body =>
    have hbody : some (name, mark) = none → Nodes.strayCall? body = none := fun h ↦ by cases h
    rw [Node.fill, Nodes.fill_eq hbody, Node.calls]
    cases firstError? expand (Nodes.calls (some (name, mark)) body) <;> rfl
  | conditional condition body arms otherwise =>
    simp only [Node.strayCall?, Option.or_eq_none_iff] at hstray
    rw [Node.fill, Nodes.fill_eq fun h ↦ (hstray h).1.1, Arms.fill_eq fun h ↦ (hstray h).1.2,
      Nodes.fill_eq fun h ↦ (hstray h).2, Node.calls, firstError?_append, firstError?_append]
    cases firstError? expand (Nodes.calls around body) <;>
      cases firstError? expand (Arms.calls around arms) <;>
      cases firstError? expand (Nodes.calls around otherwise) <;> rfl
  | loop targets iterable body otherwise =>
    simp only [Node.strayCall?, Option.or_eq_none_iff] at hstray
    rw [Node.fill, Nodes.fill_eq fun h ↦ (hstray h).1, Nodes.fill_eq fun h ↦ (hstray h).2,
      Node.calls, firstError?_append]
    cases firstError? expand (Nodes.calls around body) <;>
      cases firstError? expand (Nodes.calls around otherwise) <;> rfl
  | group body =>
    rw [Node.fill, Nodes.fill_eq hstray, Node.calls]
    cases firstError? expand (Nodes.calls around body) <;> rfl
termination_by structural node

/-- Without stray calls, filling in fails like the first call that fails, and replaces every call
if none does. -/
theorem Nodes.fill_eq {around : Option (String × Mark)} {nodes : Nodes Mark}
    (hstray : around = none → Nodes.strayCall? nodes = none) :
    Nodes.fill expand around nodes =
      valueUnless (firstError? expand (Nodes.calls around nodes))
        (Nodes.replaceCalls (expansionOr expand) around nodes) := by
  cases nodes with
  | nil => rfl
  | cons node rest =>
    simp only [Nodes.strayCall?, Option.or_eq_none_iff] at hstray
    rw [Nodes.fill, Node.fill_eq fun h ↦ (hstray h).1, Nodes.fill_eq fun h ↦ (hstray h).2,
      Nodes.calls, firstError?_append]
    cases firstError? expand (Node.calls around node) <;>
      cases firstError? expand (Nodes.calls around rest) <;> rfl
termination_by structural nodes

private theorem Arms.fill_eq {around : Option (String × Mark)} {arms : Arms Mark}
    (hstray : around = none → Arms.strayCall? arms = none) :
    Arms.fill expand around arms =
      valueUnless (firstError? expand (Arms.calls around arms))
        (Arms.replaceCalls (expansionOr expand) around arms) := by
  match arms with
  | [] => rfl
  | (_, body) :: rest =>
    simp only [Arms.strayCall?, Option.or_eq_none_iff] at hstray
    rw [Arms.fill, Nodes.fill_eq fun h ↦ (hstray h).1, Arms.fill_eq fun h ↦ (hstray h).2,
      Arms.calls, firstError?_append]
    cases firstError? expand (Nodes.calls around body) <;>
      cases firstError? expand (Arms.calls around rest) <;> rfl
termination_by structural arms

end

/-- Filling in the expansions of calls is expanding them. -/
theorem Nodes.fill_eq_expandCalls {around : Option (String × Mark)} {nodes : Nodes Mark}
    (hstray : around = none → Nodes.strayCall? nodes = none) :
    Nodes.fill expand around nodes = Nodes.expandCalls expand around nodes := by
  rw [Nodes.fill_eq hstray]
  rfl

end Filling

/-! ### Computations with a memory -/

/-- From every valid memory the substitution comes to that outcome, and it leaves a valid one. -/
def Yields {α : Type} (valid : Memo → Prop) (x : Substitution α) (outcome : Except ResolveError α) :
    Prop :=
  ∀ memo, valid memo → (x.run memo).1 = outcome ∧ valid (x.run memo).2

section Yields

variable {α β : Type} {valid : Memo → Prop}

theorem yields_pure (a : α) : Yields valid (pure a) (pure a) :=
  fun _ hmemo ↦ ⟨rfl, hmemo⟩

theorem yields_throw (e : ResolveError) :
    Yields valid (throw e : Substitution α) (throw e) :=
  fun _ hmemo ↦ ⟨rfl, hmemo⟩

/-- A failure ends a computation, and the memory stays as the failing part left it. -/
theorem run_bind (x : Substitution α) (next : α → Substitution β) (memo : Memo) :
    (x >>= next).run memo =
      match x.run memo with
      | (.ok a, memo) => (next a).run memo
      | (.error e, memo) => (.error e, memo) := by
  show (ExceptT.bindCont next (x.run memo).1) (x.run memo).2 = _
  obtain ⟨result, memo'⟩ := x.run memo
  cases result <;> rfl

theorem run_get_bind (next : Memo → Substitution α) (memo : Memo) :
    (get >>= next).run memo = (next memo).run memo := rfl

theorem yields_bind {x : Substitution α} {outcome : Except ResolveError α}
    {next : α → Substitution β} {nextOutcome : α → Except ResolveError β}
    (hx : Yields valid x outcome)
    (hnext : ∀ a, outcome = .ok a → Yields valid (next a) (nextOutcome a)) :
    Yields valid (x >>= next) (outcome >>= nextOutcome) := by
  intro memo hmemo
  obtain ⟨houtcome, hmemo'⟩ := hx memo hmemo
  rw [run_bind]
  generalize x.run memo = ran at houtcome hmemo'
  obtain ⟨result, memo'⟩ := ran
  obtain rfl : result = outcome := houtcome
  cases result with
  | error e => exact ⟨rfl, hmemo'⟩
  | ok a => exact hnext a rfl memo' hmemo'

variable {Mark : Type} {substitute : String → Mark → Substitution (Node Unit)}
  {expand : String → Mark → Except ResolveError (Node Unit)}

private theorem Leaf.yields_fill {around : Option (String × Mark)} {leaf : Leaf}
    (hcalls : ∀ call ∈ leaf.calls around,
      Yields valid (substitute call.1 call.2) (expand call.1 call.2)) :
    Yields valid (leaf.fill substitute around) (leaf.fill expand around) := by
  unfold Leaf.fill
  cases hcall : leaf.superCall? with
  | none => exact yields_pure _
  | some location =>
    cases around with
    | none => exact yields_throw _
    | some block =>
      refine hcalls block ?_
      simp [calls, ← isSome_superCall?, hcall]

mutual

private theorem Node.yields_fill {around : Option (String × Mark)} {node : Node Mark}
    (hcalls : ∀ call ∈ Node.calls around node,
      Yields valid (substitute call.1 call.2) (expand call.1 call.2)) :
    Yields valid (Node.fill substitute around node) (Node.fill expand around node) := by
  cases node with
  | leaf leaf => exact Leaf.yields_fill hcalls
  | block mark name body =>
    rw [Node.fill, Node.fill]
    exact yields_bind (Nodes.yields_fill hcalls) fun _ _ ↦ yields_pure _
  | conditional condition body arms otherwise =>
    simp only [Node.calls, List.forall_mem_append] at hcalls
    rw [Node.fill, Node.fill]
    refine yields_bind (Nodes.yields_fill hcalls.1.1) fun _ _ ↦ ?_
    refine yields_bind (Arms.yields_fill hcalls.1.2) fun _ _ ↦ ?_
    exact yields_bind (Nodes.yields_fill hcalls.2) fun _ _ ↦ yields_pure _
  | loop targets iterable body otherwise =>
    simp only [Node.calls, List.forall_mem_append] at hcalls
    rw [Node.fill, Node.fill]
    refine yields_bind (Nodes.yields_fill hcalls.1) fun _ _ ↦ ?_
    exact yields_bind (Nodes.yields_fill hcalls.2) fun _ _ ↦ yields_pure _
  | group body =>
    rw [Node.fill, Node.fill]
    exact yields_bind (Nodes.yields_fill hcalls) fun _ _ ↦ yields_pure _
termination_by structural node

/-- Filling in with a memory comes to the same as without one, if every call does. -/
theorem Nodes.yields_fill {around : Option (String × Mark)} {nodes : Nodes Mark}
    (hcalls : ∀ call ∈ Nodes.calls around nodes,
      Yields valid (substitute call.1 call.2) (expand call.1 call.2)) :
    Yields valid (Nodes.fill substitute around nodes) (Nodes.fill expand around nodes) := by
  cases nodes with
  | nil => exact yields_pure _
  | cons node rest =>
    simp only [Nodes.calls, List.forall_mem_append] at hcalls
    rw [Nodes.fill, Nodes.fill]
    refine yields_bind (Node.yields_fill hcalls.1) fun _ _ ↦ ?_
    exact yields_bind (Nodes.yields_fill hcalls.2) fun _ _ ↦ yields_pure _
termination_by structural nodes

private theorem Arms.yields_fill {around : Option (String × Mark)} {arms : Arms Mark}
    (hcalls : ∀ call ∈ Arms.calls around arms,
      Yields valid (substitute call.1 call.2) (expand call.1 call.2)) :
    Yields valid (Arms.fill substitute around arms) (Arms.fill expand around arms) := by
  match arms with
  | [] => exact yields_pure _
  | (_, body) :: rest =>
    simp only [Arms.calls, List.forall_mem_append] at hcalls
    rw [Arms.fill, Arms.fill]
    refine yields_bind (Nodes.yields_fill hcalls.1) fun _ _ ↦ ?_
    exact yields_bind (Arms.yields_fill hcalls.2) fun _ _ ↦ yields_pure _
termination_by structural arms

end

end Yields

/-! ### What a hierarchy remembers -/

namespace Hierarchy

theorem definersBelow_eq (h : Hierarchy) (name : String) (level : Nat) :
    h.definersBelow name level = ((h.definingLevels name).filter (· < level)).length := by
  rw [definersBelow, definers_eq_definingLevels, List.countP_eq_length_filter]

theorem definerAbove?_eq (h : Hierarchy) (name : String) (level : Nat) :
    h.definerAbove? name level = h.nextDefinition? name level := by
  rw [definerAbove?, definers_eq_definingLevels, nextDefinition?]

variable {h : Hierarchy} {limit : Nat}

private theorem definersBelow_lt {name : String} {lower level : Nat}
    (hlower : lower ∈ h.definingLevels name) (hlt : lower < level) :
    h.definersBelow name lower < h.definersBelow name level := by
  simp only [definersBelow, definers_eq_definingLevels]
  refine countP_lt_of_mem hlower (fun other hother ↦ ?_) (by simpa using hlt) (by simp)
  have : other < lower := by simpa using hother
  simpa using Nat.lt_trans this hlt

/-- Among the levels that define a block, each has its own number of levels below. -/
theorem definersBelow_inj {name : String} {level other : Nat}
    (hlevel : level ∈ h.definingLevels name) (hother : other ∈ h.definingLevels name)
    (heq : h.definersBelow name level = h.definersBelow name other) : level = other := by
  rcases Nat.lt_trichotomy level other with hlt | rfl | hlt
  · have := definersBelow_lt hlevel hlt
    omega
  · rfl
  · have := definersBelow_lt hother hlt
    omega

/-- The calls in the body that a level gives a block come from blocks that the level defines. -/
theorem mem_definingLevels_of_call {name : String} {above : Nat}
    (habove : above ∈ h.definingLevels name)
    {call : String × Unit}
    (hcall : call ∈ Nodes.calls (some (name, ())) (h.bodyAt above name)) :
    above ∈ h.definingLevels call.1 := by
  rcases Nodes.mem_calls hcall with houter | ⟨inner, hinner, rfl⟩
  · obtain rfl := Option.some.inj houter
    exact habove
  · obtain ⟨t, ht, hdefines⟩ := (h.mem_definingLevels_iff _ _).mp habove
    obtain ⟨body, hbody⟩ := Option.isSome_iff_exists.mp hdefines
    obtain ⟨block, hblock, -, rfl⟩ := Nodes.mem_blocks_of_findBlock? hbody
    have hat : h.bodyAt above name = block.body := by simp [bodyAt, ht, hbody]
    rw [hat] at hinner
    exact mem_definingLevels_of_block ht (Nodes.blocks_subset hblock hinner)

section Expansion

variable {name : String} {level : Nat}

theorem expand_of_deep (hdeep : limit < h.definersBelow name level) :
    h.expand limit name level = .error (.superTooDeep name limit) := by
  rw [expand, ← definersBelow_eq, if_pos hdeep]

/-- A call with no definition above it expands to empty text. -/
theorem expand_of_topmost (hdeep : ¬limit < h.definersBelow name level)
    (hnext : h.nextDefinition? name level = none) :
    h.expand limit name level = .ok (.text "") := by
  rw [expand, ← definersBelow_eq, if_neg hdeep]
  split
  · rfl
  · next hsome => cases hnext.symm.trans hsome

/-- A call expands to the body of the next definition, expanded from there. -/
theorem expand_of_next (hdeep : ¬limit < h.definersBelow name level) {above : Nat}
    (hnext : h.nextDefinition? name level = some above) :
    h.expand limit name level =
      Nodes.expandCalls (fun inner (_ : Unit) ↦ h.expand limit inner above) (some (name, ()))
        (h.bodyAt above name) >>= fun body ↦ pure (collapse body) := by
  rw [expand, ← definersBelow_eq, if_neg hdeep]
  split
  · next hnone => cases hnone.symm.trans hnext
  · next found hfound =>
    obtain rfl := Option.some.inj (hnext.symm.trans hfound)
    cases Nodes.expandCalls (fun inner (_ : Unit) ↦ h.expand limit inner above)
      (some (name, ())) (h.bodyAt above name) <;> rfl

/-- A call's expansion depends on how many levels below define the block and which is the next. -/
theorem expand_congr {other : Nat}
    (hbelow : h.definersBelow name level = h.definersBelow name other)
    (hnext : h.nextDefinition? name level = h.nextDefinition? name other) :
    h.expand limit name level = h.expand limit name other := by
  by_cases hdeep : limit < h.definersBelow name level
  · rw [expand_of_deep hdeep, expand_of_deep (hbelow ▸ hdeep)]
  cases habove : h.nextDefinition? name level with
  | none =>
    rw [expand_of_topmost hdeep habove, expand_of_topmost (hbelow ▸ hdeep) (hnext ▸ habove)]
  | some above =>
    rw [expand_of_next hdeep habove, expand_of_next (hbelow ▸ hdeep) (hnext ▸ habove)]

end Expansion

/-! ### What calls may remember -/

/-- A kind of calls that a memory can serve: what comes up in the bodies of such calls is of the
kind, and those that share a place in the memory have the same next definition. -/
structure Servable (h : Hierarchy) (limit : Nat) (asked : String → Nat → Prop) : Prop where
  inner : ∀ {name level above} {call : String × Unit}, asked name level →
    h.definersBelow name level ≤ limit → h.nextDefinition? name level = some above →
    call ∈ Nodes.calls (some (name, ())) (h.bodyAt above name) → asked call.1 above
  alike : ∀ {name level other}, asked name level → asked name other →
    h.definersBelow name level ≤ limit →
    h.definersBelow name level = h.definersBelow name other →
    h.nextDefinition? name level = h.nextDefinition? name other

/-- Whatever a call of the kind finds in the memory is its expansion. -/
def RemembersFor (h : Hierarchy) (limit : Nat) (asked : String → Nat → Prop) (memo : Memo) : Prop :=
  ∀ name level, asked name level → ∀ known,
    memo.lookup (name, h.definersBelow name level) = some known →
      h.expand limit name level = .ok known

variable {asked : String → Nat → Prop}

theorem remembersFor_nil : h.RemembersFor limit asked [] := fun _ _ _ _ hlookup ↦ by cases hlookup

/-- The expansion of a call may be added to the memory. -/
theorem RemembersFor.cons {memo : Memo} (hmemo : h.RemembersFor limit asked memo)
    (hservable : h.Servable limit asked) {name : String} {level : Nat} (hasked : asked name level)
    (hlimit : h.definersBelow name level ≤ limit) {found : Node Unit}
    (hfound : h.expand limit name level = .ok found) :
    h.RemembersFor limit asked (((name, h.definersBelow name level), found) :: memo) := by
  intro other level' hasked' known hlookup
  rw [List.lookup_cons] at hlookup
  split at hlookup
  · next heq =>
    obtain ⟨rfl, hbelow⟩ := Prod.mk.inj (eq_of_beq heq)
    have hnext := hservable.alike hasked hasked' hlimit hbelow.symm
    rw [← expand_congr hbelow.symm hnext, hfound, Option.some.inj hlookup]
  · exact hmemo other level' hasked' known hlookup

private theorem yields_remember (hservable : h.Servable limit asked) {name : String} {level : Nat}
    (hasked : asked name level) (hlimit : h.definersBelow name level ≤ limit) {found : Node Unit}
    (hfound : h.expand limit name level = .ok found) :
    Yields (h.RemembersFor limit asked)
      (do
        modify fun memo ↦ ((name, h.definersBelow name level), found) :: memo
        pure found)
      (pure found) :=
  fun _ hmemo ↦ ⟨rfl, hmemo.cons hservable hasked hlimit hfound⟩

/-- A call that a memory can serve comes to its expansion. -/
theorem yields_substitute_of_servable (hservable : h.Servable limit asked) {name : String}
    {level : Nat} (hasked : asked name level) :
    Yields (h.RemembersFor limit asked) (h.substitute limit name level)
      (h.expand limit name level) := by
  intro memo hmemo
  rw [substitute]
  by_cases hdeep : limit < h.definersBelow name level
  · rw [if_pos hdeep, expand_of_deep hdeep]
    exact yields_throw _ memo hmemo
  rw [if_neg hdeep, run_get_bind]
  split
  · next known hknown =>
    rw [hmemo name level hasked known hknown]
    exact yields_pure known memo hmemo
  split
  · next hnext =>
    rw [definerAbove?_eq] at hnext
    rw [expand_of_topmost hdeep hnext]
    exact yields_pure _ memo hmemo
  · next above hnext =>
    rw [definerAbove?_eq] at hnext
    have hlimit : h.definersBelow name level ≤ limit := Nat.le_of_not_lt hdeep
    -- the calls in the new body come from `above`, which is nearer to the root
    have hbody : Yields (h.RemembersFor limit asked)
        (Nodes.fill (fun inner (_ : Unit) ↦ h.substitute limit inner above) (some (name, ()))
          (h.bodyAt above name))
        (Nodes.expandCalls (fun inner (_ : Unit) ↦ h.expand limit inner above) (some (name, ()))
          (h.bodyAt above name)) := by
      rw [← Nodes.fill_eq_expandCalls fun hnone ↦ by cases hnone]
      have := nextDefinition?_bounds hnext
      exact Nodes.yields_fill fun call hcall ↦
        yields_substitute_of_servable hservable (hservable.inner hasked hlimit hnext hcall)
    have hexpand := expand_of_next hdeep hnext
    rw [hexpand]
    refine yields_bind hbody (fun body hok ↦ ?_) memo hmemo
    exact yields_remember hservable hasked hlimit (by rw [hexpand, hok]; rfl)
termination_by h.length - level

/-- Calls from levels that define their block can be served: no two of them share a place. -/
theorem servable_definingLevels (h : Hierarchy) (limit : Nat) :
    h.Servable limit fun name level ↦ level ∈ h.definingLevels name where
  inner _ _ hnext hcall := mem_definingLevels_of_call (List.mem_of_find?_eq_some hnext) hcall
  alike hlevel hother _ hbelow := by rw [definersBelow_inj hlevel hother hbelow]

/-- The memory is right about all calls from levels that define their block. -/
abbrev Remembers (h : Hierarchy) (limit : Nat) : Memo → Prop :=
  h.RemembersFor limit fun name level ↦ level ∈ h.definingLevels name

theorem remembers_nil : h.Remembers limit [] := remembersFor_nil

/-- A call from a level that defines its block comes to its expansion. -/
theorem yields_substitute {name : String} {level : Nat} (hlevel : level ∈ h.definingLevels name) :
    Yields (h.Remembers limit) (h.substitute limit name level) (h.expand limit name level) :=
  yields_substitute_of_servable (h.servable_definingLevels limit) hlevel

/-- With no stray calls in the templates of a hierarchy, substituting the calls of its merged tree
is expanding them. -/
theorem resolveMerged_eq_expandTree (h : Hierarchy) (limit : Nat)
    (hstray : ∀ t ∈ h.templates, Nodes.strayCall? t.nodes = none) :
    ((h.resolveMerged limit).run []).1 =
      (h.expandTree limit h.merged).map fun nodes ↦ ⟨h.leaf.name, nodes⟩ := by
  have hfill : Yields (h.Remembers limit) (Nodes.fill (h.substitute limit) none h.merged)
      (h.expandTree limit h.merged) := by
    rw [expandTree, ← Nodes.fill_eq_expandCalls fun _ ↦ strayCall?_merged_eq_none hstray]
    refine Nodes.yields_fill fun call hcall ↦ yields_substitute ?_
    rcases Nodes.mem_calls hcall with hnone | ⟨block, hblock, rfl⟩
    · cases hnone
    · exact h.definingLevels_merged block hblock
  rw [resolveMerged_of_noStray hstray]
  have hrun := yields_bind hfill (fun nodes _ ↦ yields_pure (Template.mk h.leaf.name nodes)) []
    remembers_nil
  exact hrun.1

end Hierarchy

namespace NestedPage

/-- A call in a call goes up from level to level, and is one too many under a limit of zero. -/
theorem resolveMerged_hierarchy :
    (∀ t ∈ hierarchy.templates, Nodes.strayCall? t.nodes = none) ∧
      ((hierarchy.resolveMerged 1).run []).1 =
        .ok ⟨"leaf",
          [.leaf (.importNames (.literal (.string "icons")) [⟨"star", none⟩]),
            .leaf (.importAs (.literal (.string "forms")) "forms"),
            .named "page"
              [.named "foot" [.text "middle", .text ""],
                .named "body" [.text "leaf ", .group [.text "middle ", .text "root"]]],
            .conditional (.var "extra")
              [.named "body" [.text "leaf ", .group [.text "middle ", .text "root"]]] []
              [.named "foot" []]]⟩ ∧
      ((hierarchy.resolveMerged 0).run []).1 = .error (.superTooDeep "body" 0) := by
  have hstray : ∀ t ∈ hierarchy.templates, Nodes.strayCall? t.nodes = none := by decide
  refine ⟨hstray, ?_, ?_⟩
  · rw [Hierarchy.resolveMerged_eq_expandTree hierarchy 1 hstray]
    decide +kernel
  · rw [Hierarchy.resolveMerged_eq_expandTree hierarchy 0 hstray]
    decide +kernel

end NestedPage

end TemplateInheritance
