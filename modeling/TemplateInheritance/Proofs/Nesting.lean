import Mathlib.Data.List.Perm.Subperm
import TemplateInheritance.Proofs.Limits
import TemplateInheritance.Super.Nesting

/-!
# Calls that are too deep

A resolution fails for the depth of a call exactly if some call is found with more definitions of
its block below it than the limit allows. Such a call is nested deeper than the limit if every one
of these definitions was substituted around it. Definitions that were passed over count as well, and
because of them a call can be too deep that is not nested at all.
-/

namespace TemplateInheritance

namespace Hierarchy

variable {h : Hierarchy} {limit : Nat}

/-! ### The call that fails -/

/-- If the calls of a list fail as a search says, the first error is that of the first call which
the search finds. -/
private theorem firstError?_eq_map_findSome? {Mark : Type}
    {expand : String → Mark → Except ResolveError (Node Unit)}
    {find : String × Mark → Option NestedCall} {calls : List (String × Mark)}
    (hsame : ∀ call ∈ calls, ∀ e, expand call.1 call.2 = .error e ↔
      ∃ failing, find call = some failing ∧ .superTooDeep failing.name limit = e) :
    firstError? expand calls =
      (calls.findSome? find).map fun failing ↦ .superTooDeep failing.name limit := by
  induction calls with
  | nil => rfl
  | cons call rest ih =>
    obtain ⟨name, mark⟩ := call
    have hfirst := hsame (name, mark) (.head _)
    have hrest := ih fun other hother ↦ hsame other (.tail _ hother)
    cases hcall : expand name mark with
    | error e =>
      obtain ⟨failing, hfound, he⟩ := (hfirst e).mp hcall
      simp [firstError?, hcall, hfound, he]
    | ok node =>
      cases hfound : find (name, mark) with
      | none => simpa [firstError?, hcall, hfound] using hrest
      | some failing => cases hcall.symm.trans ((hfirst _).mpr ⟨failing, hfound, rfl⟩)

section TooDeep

variable {call : NestedCall}

private theorem tooDeep?_of_deep (hdeep : limit < h.definersBelow call.name call.level) :
    h.tooDeep? limit call = some call := by
  rw [tooDeep?, if_pos hdeep]

private theorem tooDeep?_of_topmost (hdeep : ¬limit < h.definersBelow call.name call.level)
    (hnext : h.nextDefinition? call.name call.level = none) : h.tooDeep? limit call = none := by
  rw [tooDeep?, if_neg hdeep]
  split
  · rfl
  · next hsome => cases hnext.symm.trans hsome

private theorem tooDeep?_of_next (hdeep : ¬limit < h.definersBelow call.name call.level)
    {above : Nat} (hnext : h.nextDefinition? call.name call.level = some above) :
    h.tooDeep? limit call =
      (Nodes.calls (some (call.name, ())) (h.bodyAt above call.name)).findSome? fun (name, _) ↦
        h.tooDeep? limit (call.inner name above) := by
  rw [tooDeep?, if_neg hdeep]
  split
  · next hnone => cases hnone.symm.trans hnext
  · next found hfound =>
    obtain rfl := Option.some.inj (hnext.symm.trans hfound)
    rfl

end TooDeep

/-- A call fails with the first call that is found too deep where it is substituted. -/
private theorem expand_eq_error_iff (h : Hierarchy) (limit : Nat) (call : NestedCall)
    (e : ResolveError) :
    h.expand limit call.name call.level = .error e ↔
      ∃ failing, h.tooDeep? limit call = some failing ∧ .superTooDeep failing.name limit = e := by
  by_cases hdeep : limit < h.definersBelow call.name call.level
  · rw [expand_of_deep hdeep, tooDeep?_of_deep hdeep]
    simp
  cases hnext : h.nextDefinition? call.name call.level with
  | none =>
    rw [expand_of_topmost hdeep hnext, tooDeep?_of_topmost hdeep hnext]
    simp
  | some above =>
    have hbounds := nextDefinition?_bounds hnext
    have hbody : firstError? (fun inner (_ : Unit) ↦ h.expand limit inner above)
        (Nodes.calls (some (call.name, ())) (h.bodyAt above call.name)) =
        (h.tooDeep? limit call).map fun failing ↦ .superTooDeep failing.name limit := by
      rw [tooDeep?_of_next hdeep hnext]
      apply firstError?_eq_map_findSome?
      intro inner _
      exact expand_eq_error_iff h limit (call.inner inner.1 above)
    rw [expand_of_next hdeep hnext, Nodes.expandCalls, hbody]
    cases h.tooDeep? limit call with
    | none => simp
    | some failing =>
      constructor
      · intro herror
        exact ⟨failing, rfl, Except.error.inj herror⟩
      · rintro ⟨other, hother, rfl⟩
        rw [← Option.some.inj hother]
        rfl
termination_by h.length - call.level
decreasing_by
  simp only [NestedCall.inner]
  omega

/-- Resolving fails for a depth exactly if no call is stray and some call is found too deep. -/
theorem resolveMerged_eq_superTooDeep_iff {name : String} {bound : Nat} :
    ((h.resolveMerged limit).run []).1 = .error (.superTooDeep name bound) ↔
      (∀ t ∈ h.templates, Nodes.strayCall? t.nodes = none) ∧
        ∃ failing, h.failingCall? limit = some failing ∧ failing.name = name ∧ limit = bound := by
  have hcalls : firstError? (h.expand limit) (Nodes.calls none h.merged) =
      (h.failingCall? limit).map fun failing ↦ .superTooDeep failing.name limit := by
    apply firstError?_eq_map_findSome?
    intro call _
    exact expand_eq_error_iff h limit ⟨call.1, call.2, []⟩
  have htree (hstray : ∀ t ∈ h.templates, Nodes.strayCall? t.nodes = none) :
      ((h.resolveMerged limit).run []).1 = .error (.superTooDeep name bound) ↔
        ∃ failing, h.failingCall? limit = some failing ∧ failing.name = name ∧ limit = bound := by
    rw [resolveMerged_eq_expandTree h limit hstray, expandTree, Nodes.expandCalls, hcalls]
    cases h.failingCall? limit <;> simp [Except.map]
  constructor
  · intro herror
    have hstray := findSome?_strayError?_eq_none_iff.mp (findSome?_strayError?_of_tooDeep herror)
    exact ⟨hstray, (htree hstray).mp herror⟩
  · rintro ⟨hstray, hfailing⟩
    exact (htree hstray).mpr hfailing

/-! ### What made it fail -/

/-- What is found too deep has more definitions below it than the limit. -/
private theorem lt_definersBelow_of_tooDeep? {call failing : NestedCall}
    (hfound : h.tooDeep? limit call = some failing) :
    limit < h.definersBelow failing.name failing.level := by
  by_cases hdeep : limit < h.definersBelow call.name call.level
  · rw [tooDeep?_of_deep hdeep] at hfound
    rwa [← Option.some.inj hfound]
  cases hnext : h.nextDefinition? call.name call.level with
  | none =>
    rw [tooDeep?_of_topmost hdeep hnext] at hfound
    cases hfound
  | some above =>
    have hbounds := nextDefinition?_bounds hnext
    rw [tooDeep?_of_next hdeep hnext] at hfound
    obtain ⟨inner, -, hinner⟩ := List.exists_of_findSome?_eq_some hfound
    exact lt_definersBelow_of_tooDeep? hinner
termination_by h.length - call.level
decreasing_by
  simp only [NestedCall.inner]
  omega

/-- Each definition below a call was passed through or passed over. -/
theorem definersBelow_eq_add (h : Hierarchy) (call : NestedCall) :
    h.definersBelow call.name call.level =
      (h.passedThrough call).length + (h.passedOver call).length := by
  rw [definersBelow_eq,
    List.length_eq_length_filter_add fun level ↦ (call.name, level) ∈ call.around]
  simp [passedThrough, passedOver, List.filter_filter, Bool.and_comm]

/-- A call is nested at least as deep as there are definitions that were passed through. -/
theorem length_passedThrough_le (h : Hierarchy) (call : NestedCall) :
    (h.passedThrough call).length ≤ call.depth := by
  have hnodup : ((h.passedThrough call).map fun level ↦ (call.name, level)).Nodup := by
    apply List.pairwise_map.mpr
    apply ((h.pairwise_definingLevels call.name).filter _).imp
    intro lower higher hlt heq
    exact Nat.ne_of_lt hlt (Prod.mk.inj heq).2
  have hsubset : (h.passedThrough call).map (fun level ↦ (call.name, level)) ⊆ call.around := by
    intro entry hentry
    obtain ⟨level, hlevel, rfl⟩ := List.mem_map.mp hentry
    have hbelow := (List.mem_filter.mp hlevel).2
    exact (of_decide_eq_true hbelow).2
  rw [NestedCall.depth, ← List.length_map (fun level ↦ (call.name, level))]
  exact (List.subperm_of_subset hnodup hsubset).length_le

/-- The call that makes a resolution fail is nested deeper than the limit, if the definitions that
were passed over count with the substitutions around it. -/
theorem lt_depth_of_superTooDeep {name : String} {bound : Nat}
    (herror : ((h.resolveMerged limit).run []).1 = .error (.superTooDeep name bound)) :
    ∃ failing, h.failingCall? limit = some failing ∧ failing.name = name ∧ bound = limit ∧
      limit < failing.depth + (h.passedOver failing).length := by
  obtain ⟨-, failing, hfailing, hname, hbound⟩ := resolveMerged_eq_superTooDeep_iff.mp herror
  obtain ⟨placed, -, hfound⟩ := List.exists_of_findSome?_eq_some hfailing
  have hlower := lt_definersBelow_of_tooDeep? hfound
  rw [definersBelow_eq_add] at hlower
  have hthrough := h.length_passedThrough_le failing
  exact ⟨failing, hfailing, hname, hbound.symm, by omega⟩

end Hierarchy

/-! ### A definition that takes no place -/

namespace WrappedPage

/-- Asks for a body above it, in vain. -/
def base : Template := ⟨"base", [.named "title" [.text "Base", .superCall]]⟩

/-- Passes the title on. -/
def middle : Template := ⟨"middle", [.extending "base", .named "title" [.superCall]]⟩

/-- Its title stands in a block that no parent has a place for. -/
def leaf (parent : String) : Template :=
  ⟨"leaf", [.extending parent, .named "wrapper" [.named "title" [.text "Leaf"]]]⟩

def towering : Hierarchy := ⟨leaf "middle", [middle, base]⟩

/-- The call at the top is nested once, and the title of the leaf was passed over. -/
theorem lt_depth_towering :
    ((towering.resolveMerged 1).run []).1 = .error (.superTooDeep "title" 1) ∧
      ∃ failing, towering.failingCall? 1 = some failing ∧ failing.name = "title" ∧ 1 = 1 ∧
        1 < failing.depth + (towering.passedOver failing).length := by
  have hdeep : ((towering.resolveMerged 1).run []).1 = .error (.superTooDeep "title" 1) := by
    rw [Hierarchy.resolveMerged_eq_expandTree towering 1 (by decide)]
    decide +kernel
  exact ⟨hdeep, Hierarchy.lt_depth_of_superTooDeep hdeep⟩

def loader : Loader := { Loader.empty with stored := [⟨base, 1⟩, ⟨leaf "base", 2⟩] }

/-- Not every call that makes a resolution fail is nested deeper than the limit. -/
theorem not_forall_tooDeep_nested :
    ¬∀ (loader : Loader) (context : Context) (t : Template) (h : Hierarchy),
      (Hierarchy.build loader .standard context t).outcome = .ok h →
        ∀ (limit : Nat) (name : String) (bound : Nat),
          ((h.resolveMerged limit).run []).1 = .error (.superTooDeep name bound) →
            ∃ failing, h.failingCall? limit = some failing ∧ limit < failing.depth := by
  intro hforall
  have hbuild : (Hierarchy.build loader .standard ∅ (leaf "base")).outcome =
      .ok ⟨leaf "base", [base]⟩ := by decide +kernel
  have hdeep : ((Hierarchy.resolveMerged ⟨leaf "base", [base]⟩ 0).run []).1 =
      .error (.superTooDeep "title" 0) := by decide +kernel
  obtain ⟨failing, hfailing, hnested⟩ := hforall loader ∅ (leaf "base") _ hbuild 0 "title" 0 hdeep
  have hwritten : Hierarchy.failingCall? ⟨leaf "base", [base]⟩ 0 = some ⟨"title", 1, []⟩ := by
    decide +kernel
  rw [hwritten] at hfailing
  rw [← Option.some.inj hfailing] at hnested
  exact absurd hnested (by decide)

end WrappedPage

end TemplateInheritance
