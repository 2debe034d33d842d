import Mathlib.Data.List.Perm.Subperm
import TemplateInheritance.Hierarchy.Walk
import TemplateInheritance.Proofs.Building

/-!
# Building goes along walks

From a template that declares no parent or is stuck, building does not go on; from any other it
takes the one step that the loader's answer allows. So there is one walk that building follows to
its end, and the outcome is read off the last template. The walk is no longer than there are names
to walk, as the loader answers with stored templates only.
-/

namespace TemplateInheritance

theorem Expr.isDynamic_iff (expr : Expr) :
    expr.isDynamic = true ↔ ∀ value, expr ≠ .literal value := by
  cases expr <;> simp [Expr.isDynamic]

/-! ### What a template asks for -/

namespace Template

variable {loader : Loader} {evaluate : Evaluator} {context : Context} {t : Template}

theorem asks_iff {name : String} :
    t.Asks evaluate context name ↔ t.parentName? evaluate context = .ok (some name) := by
  constructor
  · intro hasks
    cases hasks with
    | literally hdeclared => simp [parentName?, hdeclared, Expr.literalString?]
    | evaluated hdeclared hother hvalue => simp [parentName?, hdeclared, hother, hvalue]
  · intro hparent
    unfold parentName? at hparent
    split at hparent
    · cases hparent
    · next target location hdeclared =>
      split at hparent
      · next text hliteral =>
        obtain rfl : target = .literal (.string text) := by
          unfold Expr.literalString? at hliteral
          split at hliteral
          · rw [Option.some.inj hliteral]
          · cases hliteral
        obtain rfl := Option.some.inj (Except.ok.inj hparent)
        exact .literally hdeclared
      · next hother =>
        split at hparent
        · cases hparent
        · next found hvalue =>
          obtain rfl := Option.some.inj (Except.ok.inj hparent)
          exact .evaluated hdeclared hother hvalue
        · cases hparent

theorem Asks.declaration?_ne_none {name : String} (hasks : t.Asks evaluate context name) :
    t.declaration? ≠ none := by
  cases hasks with
  | literally hdeclared => simp [hdeclared]
  | evaluated hdeclared => simp [hdeclared]

theorem misleads_iff {e : ResolveError} :
    t.Misleads evaluate context e ↔ t.parentName? evaluate context = .error e := by
  constructor
  · intro hmisleads
    cases hmisleads with
    | unevaluated hdeclared hother hvalue => simp [parentName?, hdeclared, hother, hvalue]
    | @notString target location value hdeclared hother hvalue hkind =>
      cases value with
      | string name => exact absurd rfl (hkind name)
      | _ => simp [parentName?, hdeclared, hother, hvalue]
  · intro hparent
    unfold parentName? at hparent
    split at hparent
    · cases hparent
    · next target location hdeclared =>
      split at hparent
      · cases hparent
      · next hother =>
        split at hparent
        · next hvalue =>
          obtain rfl := Except.error.inj hparent
          exact .unevaluated hdeclared hother hvalue
        · cases hparent
        · next value hkind hvalue =>
          obtain rfl := Except.error.inj hparent
          exact .notString hdeclared hother hvalue fun name heq ↦ hkind name heq

theorem request?_eq_some_iff {name : String} :
    t.request? evaluate context = some name ↔ t.Asks evaluate context name := by
  rw [asks_iff, request?]
  cases t.parentName? evaluate context <;> simp [Except.toOption]

end Template

/-! ### The steps of building -/

@[simp] theorem Ascent.requests_ok {α : Type} (loaded : List String) (a : α) :
    (Ascent.mk loaded (.ok a)).requests = loaded := List.append_nil loaded

theorem Ascent.requests_cons {α : Type} (name : String) (loaded : List String)
    (outcome : Except ResolveError α) :
    (Ascent.mk (name :: loaded) outcome).requests = name :: (Ascent.mk loaded outcome).requests :=
  rfl

/-- What the outcome of a walk is made into has no say in its requests. -/
theorem Ascent.requests_map {α β : Type} (ascent : Ascent α) (f : α → β) :
    (Ascent.mk ascent.loaded (ascent.outcome.map f)).requests = ascent.requests := by
  obtain ⟨loaded, outcome⟩ := ascent
  cases outcome with
  | ok a => rfl
  | error e => cases e <;> rfl

namespace Hierarchy

section Steps

variable {loader : Loader} {evaluate : Evaluator} {context : Context} {walked : List String}
  {t : Template}

theorem ascend_of_root (hroot : t.declaration? = none) :
    ascend loader evaluate context walked t = ⟨[], .ok []⟩ := by
  rw [← t.parentName?_eq_none_iff evaluate context] at hroot
  rw [ascend, hroot]

/-- A stuck template ends the walk. It asks for one name, unless it names none. -/
theorem ascend_of_stuck {e : ResolveError}
    (hstuck : t.Stuck loader evaluate context walked e) :
    (ascend loader evaluate context walked t).outcome = .error e ∧
      (ascend loader evaluate context walked t).requests =
        (t.request? evaluate context).toList := by
  cases hstuck with
  | misled hmisleads =>
    have hparent := Template.misleads_iff.mp hmisleads
    rw [ascend, hparent, Template.request?, hparent]
    cases hmisleads <;> exact ⟨rfl, rfl⟩
  | refused hasks hload =>
    rw [Template.asks_iff] at hasks
    rw [ascend_of_refused hasks hload, Template.request?, hasks]
    exact ⟨rfl, rfl⟩
  | circular hasks hload hseen =>
    rw [Template.asks_iff] at hasks
    rw [ascend_of_seen hasks hload hseen, Template.request?, hasks]
    exact ⟨rfl, rfl⟩

/-- A template declares no parent, is stuck, or is answered with a template of a new name. -/
theorem root_or_stuck_or_loaded (loader : Loader) (evaluate : Evaluator) (context : Context)
    (walked : List String) (t : Template) :
    t.declaration? = none ∨ (∃ e, t.Stuck loader evaluate context walked e) ∨
      ∃ name found, t.Asks evaluate context name ∧ loader.load name = .ok found ∧
        found.name ∉ walked := by
  cases hparent : t.parentName? evaluate context with
  | error e => exact .inr (.inl ⟨e, .misled (Template.misleads_iff.mpr hparent)⟩)
  | ok asked =>
    cases asked with
    | none => exact .inl ((t.parentName?_eq_none_iff _ _).mp hparent)
    | some name =>
      have hasks := Template.asks_iff.mpr hparent
      cases hload : loader.load name with
      | error e => exact .inr (.inl ⟨_, .refused hasks hload⟩)
      | ok found =>
        by_cases hseen : found.name ∈ walked
        · exact .inr (.inl ⟨_, .circular hasks hload hseen⟩)
        · exact .inr (.inr ⟨name, found, hasks, hload, hseen⟩)

private theorem names_append_cons (walked : List String) (found : SharedTemplate)
    (above : List Template) :
    walked ++ (found.template :: above).map (·.name) =
      walked ++ [found.name] ++ above.map (·.name) := by
  rw [List.append_assoc]
  rfl

/-- The last of `t` and the templates above it declares no parent, or is stuck at the names that
are walked up to there. -/
private def Finished (loader : Loader) (evaluate : Evaluator) (context : Context)
    (walked : List String) (t : Template) (ancestors : List Template) : Prop :=
  (ancestors.getLast?.getD t).declaration? = none ∨
    ∃ e, (ancestors.getLast?.getD t).Stuck loader evaluate context
      (walked ++ ancestors.map (·.name)) e

/-- Every walk can be taken to an end, as each step uses up the name of a stored template. -/
private theorem exists_ancestors (loader : Loader) (evaluate : Evaluator) (context : Context)
    (walked : List String) (hwalked : walked.Nodup) (t : Template) :
    ∃ ancestors : List Template,
      (t :: ancestors).IsChain (Template.Extends loader evaluate context) ∧
      (walked ++ ancestors.map (·.name)).Nodup ∧
      Finished loader evaluate context walked t ancestors := by
  rcases root_or_stuck_or_loaded loader evaluate context walked t with
    hroot | ⟨e, hstuck⟩ | ⟨name, found, hasks, hload, hnew⟩
  · exact ⟨[], .singleton t, by simpa using hwalked, .inl hroot⟩
  · exact ⟨[], .singleton t, by simpa using hwalked, .inr ⟨e, by simpa using hstuck⟩⟩
  · have hnodup : (walked ++ [found.name]).Nodup :=
      List.nodup_append_comm.mp (List.nodup_cons.mpr ⟨hnew, hwalked⟩)
    have := Loader.unwalked_append_lt (Loader.mem_of_load hload) (by simpa using hnew)
    obtain ⟨above, hchain, hdistinct, hend⟩ :=
      exists_ancestors loader evaluate context (walked ++ [found.name]) hnodup found.template
    refine ⟨found.template :: above, .cons_cons ⟨name, found, hasks, hload, rfl⟩ hchain, ?_, ?_⟩
    · rw [names_append_cons]
      exact hdistinct
    · rw [Finished, names_append_cons, List.getLast?_cons]
      exact hend
termination_by loader.unwalked walked

/-- Building goes along a walk up to its last template. -/
private theorem ascend_of_chain (walked : List String) {ancestors : List Template}
    (hchain : (t :: ancestors).IsChain (Template.Extends loader evaluate context))
    (hdistinct : (walked ++ ancestors.map (·.name)).Nodup) :
    let last := ascend loader evaluate context (walked ++ ancestors.map (·.name))
      (ancestors.getLast?.getD t)
    (ascend loader evaluate context walked t).outcome = last.outcome.map (ancestors ++ ·) ∧
      (ascend loader evaluate context walked t).requests =
        (t :: ancestors).dropLast.filterMap (·.request? evaluate context) ++ last.requests := by
  induction ancestors generalizing walked t with
  | nil =>
    simp only [List.map_nil, List.append_nil, List.getLast?_nil, Option.getD_none]
    refine ⟨?_, rfl⟩
    cases (ascend loader evaluate context walked t).outcome <;> rfl
  | cons parent above ih =>
    obtain ⟨⟨name, found, hasks, hload, rfl⟩, habove⟩ := List.isChain_cons_cons.mp hchain
    rw [names_append_cons] at hdistinct ⊢
    have hnew : found.name ∉ walked := by
      rw [List.append_assoc, List.nodup_append'] at hdistinct
      exact fun hseen ↦ hdistinct.2.2 hseen List.mem_cons_self
    obtain ⟨houtcome, hrequests⟩ := ih (walked ++ [found.name]) habove hdistinct
    have hasked : t.request? evaluate context = some name :=
      Template.request?_eq_some_iff.mpr hasks
    rw [ascend_of_new (Template.asks_iff.mp hasks) hload hnew, List.getLast?_cons, Option.getD_some]
    constructor
    · dsimp only
      rw [houtcome]
      cases (ascend loader evaluate context (walked ++ [found.name] ++ above.map (·.name))
        (above.getLast?.getD found.template)).outcome <;> rfl
    · have hbelow : (t :: found.template :: above).dropLast.filterMap
            (·.request? evaluate context) =
          name :: (found.template :: above).dropLast.filterMap (·.request? evaluate context) := by
        rw [List.dropLast_cons_cons]
        exact List.filterMap_cons_some hasked
      rw [hbelow, List.cons_append, Ascent.requests_cons, Ascent.requests_map, hrequests]

end Steps

section Walks

variable {loader : Loader} {evaluate : Evaluator} {context : Context} {h : Hierarchy}

/-- Building goes along a walk and then on from its root. -/
private theorem build_of_steps (hwalk : h.Walk loader evaluate context) :
    let last := ascend loader evaluate context h.names h.root
    (build loader evaluate context h.leaf).outcome =
        last.outcome.map (fun above ↦ ⟨h.leaf, h.ancestors ++ above⟩) ∧
      (build loader evaluate context h.leaf).requests =
        h.templates.dropLast.filterMap (·.request? evaluate context) ++ last.requests := by
  obtain ⟨houtcome, hrequests⟩ := ascend_of_chain [h.leaf.name] hwalk.steps hwalk.distinct
  have hmap : (ascend loader evaluate context [h.leaf.name] h.leaf).outcome =
      (ascend loader evaluate context h.names h.root).outcome.map (h.ancestors ++ ·) := houtcome
  constructor
  · rw [build_eq]
    dsimp only
    rw [hmap]
    cases (ascend loader evaluate context h.names h.root).outcome <;> rfl
  · rw [build_eq, Ascent.requests_map]
    exact hrequests

/-- Building from the first template of a walk comes to the end of the walk. The loader is asked
once by each template that names a parent. -/
theorem build_of_walk {outcome : Except ResolveError Hierarchy}
    (hwalk : h.Walk loader evaluate context) (hends : h.Ends loader evaluate context outcome) :
    (build loader evaluate context h.leaf).outcome = outcome ∧
      (build loader evaluate context h.leaf).requests =
        h.templates.filterMap (·.request? evaluate context) := by
  obtain ⟨houtcome, hrequests⟩ := build_of_steps hwalk
  rw [houtcome, hrequests, ← h.dropLast_append_root, List.filterMap_append,
    dropLast_append_root]
  cases hends with
  | root hroot =>
    have hnone : h.root.request? evaluate context = none := by
      rw [Template.request?, (h.root.parentName?_eq_none_iff _ _).mpr hroot]
      rfl
    rw [ascend_of_root hroot]
    exact ⟨by simp [Except.map], by simp [hnone]⟩
  | stuck hstuck =>
    obtain ⟨hfailed, hasked⟩ := ascend_of_stuck hstuck
    rw [hfailed, hasked]
    refine ⟨rfl, ?_⟩
    cases hrequest : h.root.request? evaluate context <;> simp [hrequest]

/-- A walk that succeeds comes to its own hierarchy. -/
theorem Ends.eq_of_ok {outcome : Except ResolveError Hierarchy} {built : Hierarchy}
    (hends : h.Ends loader evaluate context outcome) (hok : outcome = .ok built) : h = built := by
  subst hok
  cases hends
  rfl

/-- There is a walk from every template, and it has an end. -/
theorem exists_walk (loader : Loader) (evaluate : Evaluator) (context : Context) (t : Template) :
    ∃ (h : Hierarchy) (outcome : Except ResolveError Hierarchy), h.leaf = t ∧
      h.Walk loader evaluate context ∧ h.Ends loader evaluate context outcome := by
  obtain ⟨ancestors, hchain, hdistinct, hend⟩ :=
    exists_ancestors loader evaluate context [t.name] (List.nodup_singleton _) t
  have hwalk : (Hierarchy.mk t ancestors).Walk loader evaluate context := ⟨hchain, hdistinct⟩
  rcases hend with hroot | ⟨e, hstuck⟩
  · exact ⟨⟨t, ancestors⟩, _, rfl, hwalk, .root hroot⟩
  · exact ⟨⟨t, ancestors⟩, _, rfl, hwalk, .stuck hstuck⟩

/-! ### What walks are bounded by -/

private theorem stored_of_chain {t : Template} {ancestors : List Template}
    (hchain : (t :: ancestors).IsChain (Template.Extends loader evaluate context)) :
    ∀ s ∈ ancestors, ∃ found ∈ loader.stored, found.template = s := by
  induction ancestors generalizing t with
  | nil => intro s hmem; cases hmem
  | cons parent above ih =>
    obtain ⟨⟨name, found, -, hload, rfl⟩, habove⟩ := List.isChain_cons_cons.mp hchain
    intro s hmem
    rcases List.mem_cons.mp hmem with rfl | hmem
    · exact ⟨found, Loader.mem_of_load hload, rfl⟩
    · exact ih habove s hmem

/-- Above the first template there are at most as many as there are stored names. -/
theorem Walk.length_ancestors_le (hwalk : h.Walk loader evaluate context) :
    h.ancestors.length ≤ loader.storedNames.length := by
  have hdistinct : (h.ancestors.map (·.name)).Nodup := (List.nodup_cons.mp hwalk.distinct).2
  have hsubset : h.ancestors.map (·.name) ⊆ loader.storedNames := by
    intro name hmem
    obtain ⟨s, hs, rfl⟩ := List.mem_map.mp hmem
    obtain ⟨found, hfound, rfl⟩ := stored_of_chain hwalk.steps s hs
    exact List.mem_dedup.mpr (List.mem_map_of_mem (f := (·.name)) hfound)
  calc h.ancestors.length = (h.ancestors.map (·.name)).length := (List.length_map ..).symm
    _ ≤ loader.storedNames.length := (List.subperm_of_subset hdistinct hsubset).length_le

private theorem declaration?_ne_none_of_chain {templates : List Template}
    (hchain : templates.IsChain (Template.Extends loader evaluate context)) :
    ∀ s ∈ templates.dropLast, s.declaration? ≠ none := by
  induction hchain with
  | nil => intro s hmem; cases hmem
  | singleton t => intro s hmem; cases hmem
  | @cons_cons child parent above hextends _ ih =>
    obtain ⟨name, _, hasks, -, -⟩ := hextends
    intro s hmem
    rw [List.dropLast_cons_cons] at hmem
    rcases List.mem_cons.mp hmem with rfl | hmem
    · exact hasks.declaration?_ne_none
    · exact ih s hmem

/-- Every template of a walk declares a parent, unless it is the last one. -/
theorem Walk.declaration?_ne_none (hwalk : h.Walk loader evaluate context) :
    ∀ s ∈ h.templates.dropLast, s.declaration? ≠ none :=
  declaration?_ne_none_of_chain hwalk.steps

theorem contains_iff (h : Hierarchy) (name : String) :
    h.contains name = true ↔ ∃ s ∈ h.templates, s.name = name := by
  simp [contains, names]

theorem isDynamic_iff (h : Hierarchy) :
    h.isDynamic = true ↔ ∃ s ∈ h.templates, ∃ target location,
      s.declaration? = some (target, location) ∧ ∀ value, target ≠ .literal value := by
  simp only [isDynamic, List.any_eq_true, Template.hasDynamicExtends, Option.any_eq_true,
    Prod.exists, Expr.isDynamic_iff]

/-! ### Building and walks -/

/-- Building comes to what the walk from the template comes to. It asks the loader once by each
walked template that names a parent, and at most once more than there are stored names. In a built
hierarchy, each template is what the loader answers to the one before it, no name comes twice, and
the root alone declares no parent. What is gathered on the way are the names of the hierarchy, and
whether the target of some template in it is no literal. -/
theorem build_follows_extends (loader : Loader) (evaluate : Evaluator) (context : Context)
    (t : Template) :
    (∀ outcome, (build loader evaluate context t).outcome = outcome ↔
      ∃ h : Hierarchy, h.leaf = t ∧ h.Walk loader evaluate context ∧
        h.Ends loader evaluate context outcome) ∧
    (build loader evaluate context t).requests.length ≤ loader.storedNames.length + 1 ∧
    ∀ h, (build loader evaluate context t).outcome = .ok h →
      h.leaf = t ∧ h.Walk loader evaluate context ∧
      (∀ s ∈ h.templates.dropLast, s.declaration? ≠ none) ∧ h.root.declaration? = none ∧
      ∃ g, (gather loader evaluate context t).outcome = .ok g ∧ g.hierarchy = h ∧
        (∀ name, g.contains name = true ↔ ∃ s ∈ h.templates, s.name = name) ∧
        (g.dynamic = true ↔ ∃ s ∈ h.templates, ∃ target location,
          s.declaration? = some (target, location) ∧ ∀ value, target ≠ .literal value) := by
  obtain ⟨walked, outcome, rfl, hwalk, hends⟩ := exists_walk loader evaluate context t
  obtain ⟨houtcome, hrequests⟩ := build_of_walk hwalk hends
  refine ⟨fun other ↦ ⟨?_, ?_⟩, ?_, ?_⟩
  · rintro rfl
    exact ⟨walked, rfl, hwalk, houtcome ▸ hends⟩
  · rintro ⟨h, hleaf, hwalk', hends'⟩
    exact hleaf ▸ (build_of_walk hwalk' hends').1
  · rw [hrequests]
    calc (walked.templates.filterMap (·.request? evaluate context)).length
        ≤ walked.templates.length := List.length_filterMap_le ..
      _ = walked.ancestors.length + 1 := rfl
      _ ≤ loader.storedNames.length + 1 := Nat.succ_le_succ hwalk.length_ancestors_le
  · intro h hok
    obtain rfl := hends.eq_of_ok (houtcome.symm.trans hok)
    refine ⟨rfl, hwalk, hwalk.declaration?_ne_none, declaration?_root_of_build hok, ?_⟩
    obtain ⟨g, hgather, rfl⟩ := (map_eq_ok_iff _ _ _).mp hok
    obtain ⟨-, -, hcontains, hdynamic⟩ := gathered_eq hgather
    refine ⟨g, hgather, rfl, fun name ↦ ?_, ?_⟩
    · rw [hcontains, contains_iff]
    · rw [hdynamic, isDynamic_iff]

end Walks

end Hierarchy

/-- A walked template is the first one or a stored one. -/
theorem Template.WalkedFrom.eq_or_stored {loader : Loader} {evaluate : Evaluator}
    {context : Context} {t walked : Template}
    (hwalked : t.WalkedFrom loader evaluate context walked) :
    walked = t ∨ ∃ found ∈ loader.stored, found.template = walked := by
  obtain ⟨h, rfl, hwalk, hmem⟩ := hwalked
  rcases List.mem_cons.mp hmem with rfl | hmem
  · exact .inl rfl
  · exact .inr (Hierarchy.stored_of_chain hwalk.steps walked hmem)

/-! ### A page under two names -/

namespace AliasedPage

/-- Asks for the layout by an alias, in quotation marks. -/
def page : Template := ⟨"page", [.extending "'main'", .named "title" []]⟩

/-- Asks for the frame that the context names. -/
def layout : Template := ⟨"layout", [.leaf (.extendsFrom (.var "frame") none)]⟩

def frame : Template := ⟨"frame", [.named "title" []]⟩

def loader : Loader :=
  { Loader.empty with
    stored := [⟨page, 1⟩, ⟨layout, 2⟩, ⟨frame, 3⟩], aliases := [("main", "layout")] }

/-- The context that names the frame. -/
def framed (name : String) : Context := .ofList [("frame", .string name)]

/-- The page is built over its layout and the frame, and it is gathered that some parent is named by
the context. -/
theorem build_follows_extends_framed :
    (Hierarchy.build loader .standard (framed "frame") page).outcome =
        .ok ⟨page, [layout, frame]⟩ ∧
      Hierarchy.Walk loader .standard (framed "frame") ⟨page, [layout, frame]⟩ ∧
      ∃ g, (Hierarchy.gather loader .standard (framed "frame") page).outcome = .ok g ∧
        g.contains "layout" = true ∧ g.dynamic = true := by
  have hok : (Hierarchy.build loader .standard (framed "frame") page).outcome =
      .ok ⟨page, [layout, frame]⟩ := by decide +kernel
  obtain ⟨-, -, hbuilt⟩ :=
    Hierarchy.build_follows_extends loader .standard (framed "frame") page
  obtain ⟨-, hwalk, -, -, g, hgather, -, hcontains, hdynamic⟩ := hbuilt _ hok
  refine ⟨hok, hwalk, g, hgather, ?_, ?_⟩
  · exact (hcontains "layout").mpr ⟨layout, .tail _ (.head _), rfl⟩
  · exact hdynamic.mpr ⟨layout, .tail _ (.head _), .var "frame", none, rfl, fun _ ↦ nofun⟩

/-- A context that names the layout by its alias closes a circle. -/
example : (Hierarchy.build loader .standard (framed "main") page).outcome =
    .error (.circular "layout" ["page", "layout"]) := by decide +kernel

/-- A loader that refuses every request lets no page be built over a layout. -/
example :
    let broken : Loader := { loader with failing := .always "connection refused" }
    (Hierarchy.build broken .standard (framed "frame") page).outcome =
      .error (.parentLoad "main" "page" (.failed "main" (.message "connection refused"))) := by
  decide +kernel

end AliasedPage

end TemplateInheritance
