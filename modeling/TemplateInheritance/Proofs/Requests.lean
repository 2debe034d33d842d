import TemplateInheritance.Proofs.SuperCalls
import TemplateInheritance.Super.Requests

/-!
# When the memory of a resolver shows

Where no calls collide, whatever is remembered is what the call would find by itself, and a
resolver answers like one that remembers nothing, request after request. Calls from levels that
define their block never collide. A block without an origin may come from a level that does not
define it, and there the memory can answer with the wrong body.
-/

namespace TemplateInheritance

namespace Hierarchy

variable {h : Hierarchy} {limit : Nat} {requests : List SuperRequest}

/-! ### Substituting without a memory -/

/-- To substitute afresh is to expand. -/
theorem substituteAfresh_eq_expand (h : Hierarchy) (limit : Nat) (name : String) (level : Nat) :
    h.substituteAfresh limit name level = h.expand limit name level := by
  rw [substituteAfresh]
  by_cases hdeep : limit < h.definersBelow name level
  · rw [if_pos hdeep, expand_of_deep hdeep]
    rfl
  rw [if_neg hdeep]
  split
  · next hnone =>
    rw [definerAbove?_eq] at hnone
    rw [expand_of_topmost hdeep hnone]
    rfl
  · next above habove =>
    rw [definerAbove?_eq] at habove
    have := nextDefinition?_bounds habove
    have hinner : (fun inner (_ : Unit) ↦ h.substituteAfresh limit inner above) =
        fun inner _ ↦ h.expand limit inner above :=
      funext fun inner ↦ funext fun _ ↦ substituteAfresh_eq_expand h limit inner above
    rw [expand_of_next hdeep habove, hinner, Nodes.fill_eq_expandCalls fun hnone ↦ by cases hnone]
termination_by h.length - level

/-! ### Calls that do not collide -/

/-- Without collisions, the calls that come up can be served from the memory. -/
theorem servable_of_not_collides (hapart : ¬h.Collides limit requests) :
    h.Servable limit (h.Reaches limit requests) where
  inner houter hlimit hnext hcall := by
    rw [← definerAbove?_eq] at hnext
    exact .inherited houter hlimit hnext hcall
  alike hlevel hother hlimit hbelow := by
    rw [← definerAbove?_eq, ← definerAbove?_eq]
    apply Decidable.byContradiction
    intro hnext
    exact hapart ⟨_, _, _, hlevel, hother, hlimit, hbelow, hnext⟩

/-- A resolver whose memory is right about the calls that come up answers a request as if it
remembered nothing, and its memory stays right. -/
theorem yields_resolveSuper (hapart : ¬h.Collides limit requests) {request : SuperRequest}
    (hrequest : request ∈ requests) :
    Yields (h.RemembersFor limit (h.Reaches limit requests))
      (h.resolveSuper limit request.template.name request.tree) (h.answerAfresh limit request) := by
  have hafresh : h.substituteAfresh limit = h.expand limit :=
    funext fun name ↦ funext fun level ↦ h.substituteAfresh_eq_expand limit name level
  rw [resolveSuper, answerAfresh, hafresh]
  generalize (h.templates ++ [_]).findSome? strayError? = stray
  cases stray with
  | some e => exact yields_throw e
  | none =>
    refine yields_bind (Nodes.yields_fill fun call hcall ↦ ?_) fun nodes _ ↦ yields_pure _
    exact yields_substitute_of_servable (servable_of_not_collides hapart)
      (.written hrequest hcall)

private theorem answers_of_remembersFor (hapart : ¬h.Collides limit requests)
    {rest : List SuperRequest} (hrest : rest ⊆ requests) {memo : Memo}
    (hmemo : h.RemembersFor limit (h.Reaches limit requests) memo) :
    h.answers limit memo rest = rest.map (h.answerAfresh limit) := by
  induction rest generalizing memo with
  | nil => rfl
  | cons request rest ih =>
    obtain ⟨hrequest, hrest⟩ := List.cons_subset.mp hrest
    obtain ⟨hanswer, hmemo'⟩ := yields_resolveSuper hapart hrequest memo hmemo
    rw [answers, List.map_cons, ← ih hrest hmemo', ← hanswer]
    rfl

/-- Unless calls collide, a resolver answers every request of a sequence as if it remembered
nothing, whether the requests before were answered with a tree or an error. -/
theorem answers_eq_afresh (h : Hierarchy) (limit : Nat) (requests : List SuperRequest)
    (hapart : ¬h.Collides limit requests) :
    h.answers limit [] requests = requests.map (h.answerAfresh limit) :=
  answers_of_remembersFor hapart (List.Subset.refl requests) remembersFor_nil

/-- Requests whose calls come from levels that define their block do not collide. -/
theorem not_collides_of_defined
    (hdefined : ∀ request ∈ requests, ∀ call ∈ Nodes.calls none request.tree,
      call.2 ∈ h.definingLevels call.1) : ¬h.Collides limit requests := by
  have hreaches {name : String} {level : Nat} (hreached : h.Reaches limit requests name level) :
      level ∈ h.definingLevels name := by
    induction hreached with
    | written hrequest hcall => exact hdefined _ hrequest _ hcall
    | inherited houter hlimit habove hcall ih =>
      rw [definerAbove?_eq] at habove
      exact mem_definingLevels_of_call (List.mem_of_find?_eq_some habove) hcall
  rintro ⟨name, level, other, hlevel, hother, -, hbelow, hnext⟩
  rw [definersBelow_inj (hreaches hlevel) (hreaches hother) hbelow] at hnext
  exact hnext rfl

end Hierarchy

/-! ### A page that passes its blocks on -/

namespace PassingPage

/-- Fills a block with an inner one. -/
def root : Template := ⟨"root", [.named "outer" [.named "inner" [.text "root"]]]⟩

/-- Adds to both blocks. -/
def middle : Template :=
  ⟨"middle",
    [.extending "root",
      .named "outer" [.named "inner" [.text "middle ", .superCall], .superCall]]⟩

/-- Has no block of its own. -/
def leaf : Template := ⟨"leaf", [.extending "middle"]⟩

def hierarchy : Hierarchy := ⟨leaf, [middle, root]⟩

def loader : Loader := { Loader.empty with stored := [⟨root, 1⟩, ⟨middle, 2⟩, ⟨leaf, 3⟩] }

/-- A tree that fails at its second call under a limit of zero, and the merged tree without the
call of the outer block. -/
def located : List SuperRequest :=
  [⟨⟨"both", [.named "inner" [.superCall], .named "inner" [.superCall]]⟩, [.mk 1 [], .mk 2 []]⟩,
    ⟨⟨"leaf", [.named "outer" [.named "inner" [.text "middle ", .superCall]]]⟩,
      [.mk 1 [.mk 1 []]]⟩]

/-- What was remembered before the failure serves the next tree, and rightly so. -/
theorem answers_located :
    ¬hierarchy.Collides 0 located ∧
      hierarchy.answers 0 [] located =
        [.error (.superTooDeep "inner" 0),
          .ok ⟨"leaf", [.named "outer" [.named "inner" [.text "middle ", .text "root"]]]⟩] := by
  have hdefined : ∀ request ∈ located, ∀ call ∈ Nodes.calls none request.tree,
      call.2 ∈ hierarchy.definingLevels call.1 := by decide +kernel
  have hapart : ¬hierarchy.Collides 0 located := Hierarchy.not_collides_of_defined hdefined
  refine ⟨hapart, ?_⟩
  rw [Hierarchy.answers_eq_afresh hierarchy 0 located hapart]
  decide +kernel

/-- The merged tree with nothing said about where its blocks were taken from. Its inner block counts
as the leaf's, and its call is remembered where the middle template's own call is looked up. -/
def unlocated : SuperRequest :=
  ⟨⟨"leaf", [.named "outer" [.named "inner" [.text "middle ", .superCall], .superCall]]⟩, []⟩

/-- Not every resolver answers as if it remembered nothing, even to a single request. -/
theorem not_forall_answers_afresh :
    ¬∀ (loader : Loader) (context : Context) (t : Template) (h : Hierarchy),
      (Hierarchy.build loader .standard context t).outcome = .ok h →
        ∀ (limit : Nat) (requests : List SuperRequest),
          h.answers limit [] requests = requests.map (h.answerAfresh limit) := by
  intro hforall
  have hbuild : (Hierarchy.build loader .standard ∅ leaf).outcome = .ok hierarchy := by
    decide +kernel
  have hsame := hforall loader ∅ leaf hierarchy hbuild 10 [unlocated]
  revert hsame
  decide +kernel

end PassingPage

end TemplateInheritance
