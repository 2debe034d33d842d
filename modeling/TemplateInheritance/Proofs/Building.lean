import TemplateInheritance.Proofs.Gathering

/-!
# What a built hierarchy depends on

A walk that succeeds is taken apart into its steps once, and everything about built hierarchies is
read off the steps: the root declares no parent, and the templates outside the hierarchy have no
say in it.
-/

namespace TemplateInheritance

/-- A mapped outcome succeeds exactly when the outcome does. -/
theorem map_eq_ok_iff {ε α β : Type} (f : α → β) (outcome : Except ε α) (b : β) :
    outcome.map f = .ok b ↔ ∃ a, outcome = .ok a ∧ f a = b := by
  cases outcome with
  | error e => simp [Except.map]
  | ok a => simp [Except.map]

/-- A template has no parent exactly when it declares none. -/
theorem Template.parentName?_eq_none_iff (t : Template) (evaluate : Evaluator) (context : Context) :
    t.parentName? evaluate context = .ok none ↔ t.declaration? = none := by
  unfold Template.parentName?
  split
  · next hnone => simp [hnone]
  · next target location hsome =>
    rw [hsome]
    split
    · simp
    · split <;> simp

namespace Hierarchy

variable {loader : Loader} {evaluate : Evaluator} {context : Context}

/-- A walk that succeeds either stops at a template without a parent, or takes one step to a
stored template of a new name and goes on from there. -/
theorem ascend_eq_ok_iff (walked : List String) (t : Template) (ancestors : List Template) :
    (ascend loader evaluate context walked t).outcome = .ok ancestors ↔
      match ancestors with
      | [] => t.parentName? evaluate context = .ok none
      | parent :: above => ∃ requested found,
          t.parentName? evaluate context = .ok (some requested) ∧
          loader.load requested = .ok found ∧ found.template = parent ∧
          found.name ∉ walked ∧
          (ascend loader evaluate context (walked ++ [found.name]) parent).outcome =
            .ok above := by
  cases hparent : t.parentName? evaluate context with
  | error e =>
    rw [ascend, hparent]
    cases ancestors <;> simp
  | ok asked =>
    cases asked with
    | none =>
      rw [ascend, hparent]
      cases ancestors <;> simp
    | some requested =>
      cases hload : loader.load requested with
      | error e =>
        rw [ascend_of_refused hparent hload]
        cases ancestors <;> simp [hload]
      | ok found =>
        by_cases hseen : found.name ∈ walked
        · rw [ascend_of_seen hparent hload hseen]
          cases ancestors <;> simp [hload, hseen]
        · rw [ascend_of_new hparent hload hseen]
          cases ancestors with
          | nil => simp [map_eq_ok_iff]
          | cons parent above =>
            simp only [map_eq_ok_iff, Except.ok.injEq, Option.some.injEq, List.cons.injEq]
            constructor
            · rintro ⟨rest, hrest, hfound, rfl⟩
              exact ⟨requested, found, rfl, hload, hfound, hseen, hfound ▸ hrest⟩
            · rintro ⟨_, other, rfl, hother, hfound, -, hrest⟩
              obtain rfl : found = other := Except.ok.inj (hload.symm.trans hother)
              exact ⟨above, hfound ▸ hrest, hfound, rfl⟩

/-- A built hierarchy is the requested template under the ancestors that its walk found. -/
theorem build_eq_ok_iff (t : Template) (h : Hierarchy) :
    (build loader evaluate context t).outcome = .ok h ↔
      h.leaf = t ∧ (ascend loader evaluate context [t.name] t).outcome = .ok h.ancestors := by
  simp only [build_eq, map_eq_ok_iff]
  constructor
  · rintro ⟨ancestors, hancestors, rfl⟩
    exact ⟨rfl, hancestors⟩
  · rintro ⟨rfl, hancestors⟩
    exact ⟨h.ancestors, hancestors, rfl⟩

/-- A walk that succeeds ends at a template that declares no parent. -/
theorem declaration?_getLast_of_ascend {walked : List String} {t : Template}
    {ancestors : List Template}
    (hok : (ascend loader evaluate context walked t).outcome = .ok ancestors) :
    (ancestors.getLast?.getD t).declaration? = none := by
  induction ancestors generalizing walked t with
  | nil => exact (t.parentName?_eq_none_iff _ _).mp ((ascend_eq_ok_iff _ _ _).mp hok)
  | cons parent above ih =>
    obtain ⟨_, _, -, -, -, -, habove⟩ := (ascend_eq_ok_iff _ _ _).mp hok
    simpa [List.getLast?_cons] using ih habove

/-- The root of a built hierarchy declares no parent. -/
theorem declaration?_root_of_build {t : Template} {h : Hierarchy}
    (hbuild : (build loader evaluate context t).outcome = .ok h) :
    h.root.declaration? = none := by
  obtain ⟨rfl, hascend⟩ := (build_eq_ok_iff _ _).mp hbuild
  exact declaration?_getLast_of_ascend hascend

/-- What is gathered along with a hierarchy is what the hierarchy tells. -/
theorem gathered_eq {t : Template} {g : Gathering}
    (hgather : (gather loader evaluate context t).outcome = .ok g) :
    (build loader evaluate context t).outcome = .ok g.hierarchy ∧
      g.definitions = g.hierarchy.definitions ∧
      (∀ name, g.contains name = g.hierarchy.contains name) ∧
      g.dynamic = g.hierarchy.isDynamic := by
  have hfaithful := faithful_of_gather hgather
  have hbuild : (build loader evaluate context t).outcome = .ok g.hierarchy := by
    rw [build, hgather]
    rfl
  exact ⟨hbuild, hfaithful.definitions, hfaithful.contains_eq,
    hfaithful.dynamic_eq (declaration?_root_of_build hbuild)⟩

/-! ### What has no say in a hierarchy -/

/-- A loader that answers to the ancestors' names as before, and targets with the same values, give
the same walk. -/
theorem ascend_of_agree {loader' : Loader} {context' : Context} {walked : List String}
    {t : Template} {ancestors : List Template} (haliases : loader'.aliases = loader.aliases)
    (hfailing : loader'.failing = loader.failing)
    (hfind : ∀ parent ∈ ancestors, loader'.find? parent.name = loader.find? parent.name)
    (hparent : ∀ child ∈ t :: ancestors,
      child.parentName? evaluate context' = child.parentName? evaluate context)
    (hok : (ascend loader evaluate context walked t).outcome = .ok ancestors) :
    (ascend loader' evaluate context' walked t).outcome = .ok ancestors := by
  induction ancestors generalizing walked t with
  | nil =>
    rw [ascend_eq_ok_iff] at hok ⊢
    rw [hparent t List.mem_cons_self]
    exact hok
  | cons parent above ih =>
    rw [ascend_eq_ok_iff] at hok ⊢
    obtain ⟨requested, found, hrequested, hload, rfl, hnew, habove⟩ := hok
    refine ⟨requested, found, ?_, ?_, rfl, hnew, ?_⟩
    · rw [hparent t List.mem_cons_self]
      exact hrequested
    · obtain ⟨hallowed, hfound⟩ := (Loader.load_eq_ok_iff _ _ _).mp hload
      have htarget : loader'.target requested = loader.target requested := by
        rw [Loader.target, Loader.target, haliases]
      have hname : found.template.name = loader.target requested := Loader.name_of_find? hfound
      refine (Loader.load_eq_ok_iff _ _ _).mpr ⟨by rw [hfailing, hallowed], ?_⟩
      rw [htarget, ← hname, hfind found.template List.mem_cons_self, hname]
      exact hfound
    · exact ih (fun parent hmem ↦ hfind parent (.tail _ hmem))
        (fun child hmem ↦ hparent child (.tail _ hmem)) habove

/-- A hierarchy depends only on the stored templates whose names are in it. -/
theorem build_of_find?_eq {loader' : Loader} {t : Template} {h : Hierarchy}
    (haliases : loader'.aliases = loader.aliases) (hfailing : loader'.failing = loader.failing)
    (hfind : ∀ name ∈ h.names, loader'.find? name = loader.find? name)
    (hbuild : (build loader evaluate context t).outcome = .ok h) :
    (build loader' evaluate context t).outcome = .ok h := by
  rw [build_eq_ok_iff] at hbuild ⊢
  refine ⟨hbuild.1, ascend_of_agree haliases hfailing (fun parent hmem ↦ ?_) (fun _ _ ↦ rfl)
    hbuild.2⟩
  exact hfind parent.name (List.mem_map_of_mem (.tail _ hmem))

private theorem parentName?_of_static (hstable : evaluate.LiteralStable) {t : Template}
    (hstatic : t.hasDynamicExtends = false) (context' : Context) :
    t.parentName? evaluate context' = t.parentName? evaluate context := by
  unfold Template.parentName?
  split
  · rfl
  · next target location hdeclared =>
    cases target with
    | literal value => rw [hstable value context' context]
    | var | field | conditional | super =>
      simp [Template.hasDynamicExtends, hdeclared, Expr.isDynamic] at hstatic

/-- The context has no say in a hierarchy whose parents are all named by literals. -/
theorem build_of_static (hstable : evaluate.LiteralStable) {t : Template} {h : Hierarchy}
    (hstatic : h.isDynamic = false)
    (hbuild : (build loader evaluate context t).outcome = .ok h) (context' : Context) :
    (build loader evaluate context' t).outcome = .ok h := by
  rw [build_eq_ok_iff] at hbuild ⊢
  obtain ⟨rfl, hascend⟩ := hbuild
  refine ⟨rfl, ascend_of_agree rfl rfl (fun _ _ ↦ rfl) (fun child hmem ↦ ?_) hascend⟩
  exact parentName?_of_static hstable (by simpa using List.any_eq_false.mp hstatic child hmem)
    context'

end Hierarchy

end TemplateInheritance
