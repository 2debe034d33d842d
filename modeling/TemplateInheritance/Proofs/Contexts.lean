import Mathlib.Data.List.Chain
import TemplateInheritance.Proofs.Shortcuts
import TemplateInheritance.Proofs.Walks

/-!
# What of a context matters

An expression has the same value in all contexts that agree on its variables. Building evaluates
the targets of the templates it walks and nothing else, so contexts that agree on the variables of
these targets give the same walk to the same end. Where all parents are named by literals, no
context has a say.
-/

namespace TemplateInheritance

/-! ### Variables -/

/-- The variables in an expression, those of branches that are not taken included. -/
def Expr.vars : Expr → List String
  | .literal _ | .super => []
  | .var name => [name]
  | .field object _ => object.vars
  | .conditional condition thenValue otherwise =>
    condition.vars ++ thenValue.vars ++ otherwise.vars

/-- The variables in the target by which the template names its parent. -/
def Template.targetVars (t : Template) : List String :=
  match t.declaration? with
  | none => []
  | some (target, _) => target.vars

/-- The contexts bind the names to the same values, or leave them unbound alike. -/
def Context.AgreeOn (names : List String) (context context' : Context) : Prop :=
  ∀ name ∈ names, context'.get? name = context.get? name

instance (names : List String) (context context' : Context) :
    Decidable (context.AgreeOn names context') :=
  inferInstanceAs (Decidable (∀ name ∈ names, context'.get? name = context.get? name))

variable {context context' : Context}

theorem Context.AgreeOn.of_subset {names names' : List String}
    (hagree : context.AgreeOn names context') (hsubset : names' ⊆ names) :
    context.AgreeOn names' context' :=
  fun name hmem ↦ hagree name (hsubset hmem)

/-- The value of an expression depends on its variables only. -/
theorem Expr.eval_of_agreeOn (expr : Expr) (hagree : context.AgreeOn expr.vars context') :
    expr.eval context' = expr.eval context := by
  induction expr with
  | literal value => rfl
  | super => rfl
  | var name => rw [eval, eval, hagree name List.mem_cons_self]
  | field object fieldName ih => rw [eval, eval, ih hagree]
  | conditional condition thenValue otherwise ihCondition ihThen ihOtherwise =>
    have hcondition := ihCondition (hagree.of_subset (by simp [vars]))
    have hthen := ihThen (hagree.of_subset (by simp [vars]))
    have hotherwise := ihOtherwise (hagree.of_subset (by simp [vars]))
    rw [eval, eval, hcondition, hthen, hotherwise]

/-- What a template asks for depends on the variables of its target only. -/
theorem Template.parentName?_of_agreeOn (t : Template)
    (hagree : context.AgreeOn t.targetVars context') :
    t.parentName? .standard context' = t.parentName? .standard context := by
  unfold parentName?
  unfold targetVars at hagree
  split
  · rfl
  · next target location hdeclared =>
    rw [hdeclared] at hagree
    rw [Evaluator.standard, target.eval_of_agreeOn hagree]

/-- A parent that is named literally is named without a variable. -/
theorem Template.targetVars_of_static {t : Template} (hstatic : t.hasDynamicExtends = false) :
    t.targetVars = [] := by
  unfold targetVars
  split
  · rfl
  · next target location hdeclared =>
    cases target with
    | literal value => rfl
    | var | field | conditional | super =>
      simp [hasDynamicExtends, hdeclared, Expr.isDynamic] at hstatic

/-! ### The same walk in another context -/

/-- The requests and the outcome of a walk tell what was loaded. -/
theorem Ascent.ext_requests {α : Type} {ascent ascent' : Ascent α}
    (houtcome : ascent.outcome = ascent'.outcome) (hrequests : ascent.requests = ascent'.requests) :
    ascent = ascent' := by
  obtain ⟨loaded, outcome⟩ := ascent
  obtain ⟨loaded', outcome'⟩ := ascent'
  obtain rfl : outcome = outcome' := houtcome
  obtain rfl : loaded = loaded' := List.append_cancel_right hrequests
  rfl

section Walks

variable {loader : Loader} {evaluate : Evaluator}

theorem Template.Extends.of_parentName? {child parent : Template}
    (hsame : child.parentName? evaluate context' = child.parentName? evaluate context)
    (hextends : child.Extends loader evaluate context parent) :
    child.Extends loader evaluate context' parent := by
  obtain ⟨name, found, hasks, hload, hfound⟩ := hextends
  exact ⟨name, found, asks_iff.mpr (hsame.trans (asks_iff.mp hasks)), hload, hfound⟩

theorem Template.Stuck.of_parentName? {walked : List String} {t : Template} {e : ResolveError}
    (hsame : t.parentName? evaluate context' = t.parentName? evaluate context)
    (hstuck : t.Stuck loader evaluate context walked e) :
    t.Stuck loader evaluate context' walked e := by
  cases hstuck with
  | misled hmisleads => exact .misled (misleads_iff.mpr (hsame.trans (misleads_iff.mp hmisleads)))
  | refused hasks hload => exact .refused (asks_iff.mpr (hsame.trans (asks_iff.mp hasks))) hload
  | circular hasks hload hseen =>
    exact .circular (asks_iff.mpr (hsame.trans (asks_iff.mp hasks))) hload hseen

namespace Hierarchy

variable {h : Hierarchy} {outcome : Except ResolveError Hierarchy}

private theorem Walk.of_parentName?
    (hsame : ∀ t ∈ h.templates, t.parentName? evaluate context' = t.parentName? evaluate context)
    (hwalk : h.Walk loader evaluate context) : h.Walk loader evaluate context' := by
  refine ⟨List.IsChain.imp_of_mem_imp (fun child _ hmem _ hextends ↦ ?_) hwalk.steps,
    hwalk.distinct⟩
  exact hextends.of_parentName? (hsame child hmem)

private theorem Ends.of_parentName?
    (hsame : ∀ t ∈ h.templates, t.parentName? evaluate context' = t.parentName? evaluate context)
    (hends : h.Ends loader evaluate context outcome) : h.Ends loader evaluate context' outcome := by
  cases hends with
  | root hroot => exact .root hroot
  | stuck hstuck => exact .stuck (hstuck.of_parentName? (hsame h.root h.root_mem_templates))

/-- Where the templates of a walk ask for the same parents in another context, building is the same
there. -/
theorem build_of_parentName? (hwalk : h.Walk loader evaluate context)
    (hends : h.Ends loader evaluate context outcome)
    (hsame : ∀ t ∈ h.templates,
      t.parentName? evaluate context' = t.parentName? evaluate context) :
    build loader evaluate context' h.leaf = build loader evaluate context h.leaf := by
  obtain ⟨houtcome, hrequests⟩ := build_of_walk hwalk hends
  obtain ⟨houtcome', hrequests'⟩ :=
    build_of_walk (hwalk.of_parentName? hsame) (hends.of_parentName? hsame)
  have hasked : h.templates.filterMap (·.request? evaluate context') =
      h.templates.filterMap (·.request? evaluate context) := by
    refine List.filterMap_congr fun t hmem ↦ ?_
    rw [Template.request?, Template.request?, hsame t hmem]
  refine Ascent.ext_requests (houtcome'.trans houtcome.symm) ?_
  rw [hrequests', hrequests, hasked]

/-- Contexts that bind the variables of the walked targets alike give the same walk to the same
end. Where all parents of a built hierarchy are named by literals, every context gives that
hierarchy and what it resolves to. -/
theorem build_depends_on_targets (loader : Loader) (t : Template) (context : Context) :
    (∀ context' : Context,
      (∀ walked, t.WalkedFrom loader .standard context walked →
        context.AgreeOn walked.targetVars context') →
      build loader .standard context' t = build loader .standard context t) ∧
    ∀ h, (build loader .standard context t).outcome = .ok h → h.isDynamic = false →
      ∀ context' : Context,
        build loader .standard context' t = build loader .standard context t ∧
        ∀ limit,
          (Resolver.mk loader .standard limit).resolveFresh t context' = h.resolve limit := by
  obtain ⟨walked, outcome, rfl, hwalk, hends⟩ := exists_walk loader .standard context t
  constructor
  · intro context' hagree
    refine build_of_parentName? hwalk hends fun u hmem ↦ u.parentName?_of_agreeOn ?_
    exact hagree u ⟨walked, rfl, hwalk, hmem⟩
  · intro h hok hstatic context'
    obtain rfl := hends.eq_of_ok ((build_of_walk hwalk hends).1.symm.trans hok)
    have hsame : build loader .standard context' walked.leaf =
        build loader .standard context walked.leaf := by
      refine build_of_parentName? hwalk hends fun u hmem ↦ u.parentName?_of_agreeOn ?_
      have hliteral : u.hasDynamicExtends = false := by
        simpa using List.any_eq_false.mp hstatic u hmem
      rw [Template.targetVars_of_static hliteral]
      exact fun name hname ↦ nomatch hname
    exact ⟨hsame, fun limit ↦ Resolver.resolveFresh_of_build ((congrArg _ hsame).trans hok)⟩

end Hierarchy

end Walks

namespace AliasedPage

/-- A context with one more name that no target reads. -/
def visited : Context := .ofList [("frame", .string "frame"), ("user", .string "ada")]

/-- A page over the frame alone, which it names by a literal. -/
def direct : Template := ⟨"direct", [.extending "frame", .named "title" [.text "direct"]]⟩

/-- The page asks for its layout by a literal and the layout for its frame by a variable, so what
else a context binds has no say. Over the frame alone, no context has a say. -/
theorem build_depends_on_frame :
    (∀ walked, page.WalkedFrom loader .standard (framed "frame") walked →
      (framed "frame").AgreeOn walked.targetVars visited) ∧
    (Hierarchy.build loader .standard visited page).outcome = .ok ⟨page, [layout, frame]⟩ ∧
    ∀ context', (Hierarchy.build loader .standard context' direct).outcome =
      .ok ⟨direct, [frame]⟩ := by
  have hstored : ∀ found ∈ loader.stored,
      (framed "frame").AgreeOn found.template.targetVars visited := by decide +kernel
  have hagree : ∀ walked, page.WalkedFrom loader .standard (framed "frame") walked →
      (framed "frame").AgreeOn walked.targetVars visited := by
    intro walked hwalked
    rcases hwalked.eq_or_stored with rfl | ⟨found, hfound, rfl⟩
    · exact hstored ⟨page, 1⟩ List.mem_cons_self
    · exact hstored found hfound
  have hdirect : (Hierarchy.build loader .standard ∅ direct).outcome = .ok ⟨direct, [frame]⟩ := by
    decide +kernel
  refine ⟨hagree, ?_, fun context' ↦ ?_⟩
  · rw [(Hierarchy.build_depends_on_targets loader page (framed "frame")).1 visited hagree]
    decide +kernel
  · obtain ⟨hsame, -⟩ := (Hierarchy.build_depends_on_targets loader direct ∅).2 _ hdirect
      (by decide) context'
    rw [hsame, hdirect]

end AliasedPage

end TemplateInheritance
