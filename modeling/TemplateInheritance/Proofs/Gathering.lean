import TemplateInheritance.Hierarchy.Walk

/-!
# What a walk gathers

A walk that gathers on its way comes to the templates that a walk comes to which keeps nothing else.
What it has gathered by then is what the hierarchy would tell when asked: each step adds to it what
the template that is taken in adds to the answers.
-/

namespace TemplateInheritance

namespace Hierarchy

/-- The templates below the root, and the root. -/
theorem dropLast_append_root (h : Hierarchy) : h.templates.dropLast ++ [h.root] = h.templates :=
  List.dropLast_append_getLast? _ (by exact List.getLast?_cons)

/-! ### The steps of a walk -/

variable {loader : Loader} {evaluate : Evaluator} {context : Context} {walked : List String}
  {t : Template} {name : String} {found : SharedTemplate}

theorem ascend_of_refused {e : LoadError}
    (hparent : t.parentName? evaluate context = .ok (some name))
    (hload : loader.load name = .error e) :
    ascend loader evaluate context walked t = ⟨[], .error (.parentLoad name t.name e)⟩ := by
  rw [ascend, hparent]
  dsimp only
  split
  · next hrefused => rw [Except.error.inj (hrefused.symm.trans hload)]
  · next hok => cases hok.symm.trans hload

theorem ascend_of_seen (hparent : t.parentName? evaluate context = .ok (some name))
    (hload : loader.load name = .ok found) (hseen : found.name ∈ walked) :
    ascend loader evaluate context walked t = ⟨[name], .error (.circular found.name walked)⟩ := by
  rw [ascend, hparent]
  dsimp only
  split
  · next hrefused => cases hrefused.symm.trans hload
  · next hok =>
    obtain rfl := Except.ok.inj (hok.symm.trans hload)
    rw [dif_pos (by simpa using hseen)]

theorem ascend_of_new (hparent : t.parentName? evaluate context = .ok (some name))
    (hload : loader.load name = .ok found) (hnew : found.name ∉ walked) :
    ascend loader evaluate context walked t =
      let above := ascend loader evaluate context (walked ++ [found.name]) found.template
      ⟨name :: above.loaded, above.outcome.map (found.template :: ·)⟩ := by
  rw [ascend, hparent]
  dsimp only
  split
  · next hrefused => cases hrefused.symm.trans hload
  · next hok =>
    obtain rfl := Except.ok.inj (hok.symm.trans hload)
    rw [dif_neg (by simpa using hnew)]

end Hierarchy

namespace Gathering

/-! ### The templates -/

@[simp] theorem templates_step (g : Gathering) (parent : Template) :
    (g.step parent).hierarchy.templates = g.hierarchy.templates ++ [parent] := by
  simp [step, add, Hierarchy.templates]

@[simp] theorem root_step (g : Gathering) (parent : Template) :
    (g.step parent).hierarchy.root = parent := by
  simp [step, add, Hierarchy.root]

theorem hierarchy_foldl (g : Gathering) (ancestors : List Template) :
    (ancestors.foldl step g).hierarchy =
      ⟨g.hierarchy.leaf, g.hierarchy.ancestors ++ ancestors⟩ := by
  induction ancestors generalizing g with
  | nil => simp
  | cons parent above ih =>
    rw [List.foldl_cons, ih]
    simp [step, add]

/-- A walk takes in the templates above the last one, one after the other. -/
theorem climb_eq (loader : Loader) (evaluate : Evaluator) (context : Context) (g : Gathering) :
    climb loader evaluate context g =
      let above := Hierarchy.ascend loader evaluate context g.hierarchy.names g.hierarchy.root
      ⟨above.loaded, above.outcome.map fun ancestors ↦ ancestors.foldl step g⟩ := by
  fun_induction climb loader evaluate context g with
  | case1 g e hparent => rw [Hierarchy.ascend, hparent]; rfl
  | case2 g hparent => rw [Hierarchy.ascend, hparent]; rfl
  | case3 g name hparent e hload => rw [Hierarchy.ascend_of_refused hparent hload]; rfl
  | case4 g name hparent found hload hseen =>
    rw [Hierarchy.ascend_of_seen hparent hload (by simpa using hseen)]
    rfl
  | case5 g name hparent found hload hseen hfewer above ih =>
    rw [Hierarchy.ascend_of_new hparent hload (by simpa using hseen)]
    have hname : found.name = found.template.name := rfl
    simp only [above, ih, names_step, root_step, hname]
    cases (Hierarchy.ascend loader evaluate context (g.hierarchy.names ++ [found.template.name])
      found.template).outcome <;> rfl

/-! ### What is gathered -/

/-- What was gathered is what the hierarchy tells. The last template has not been asked for its
parent yet. -/
structure Faithful (g : Gathering) : Prop where
  definitions : g.definitions = g.hierarchy.definitions
  named : ∀ name, g.named.get? name = g.hierarchy.templates.reverse.find? (·.name = name)
  dynamic : g.dynamic = g.hierarchy.templates.dropLast.any (·.hasDynamicExtends)

theorem faithful_start (t : Template) : (start t).Faithful where
  definitions := rfl
  named name := by
    rw [start, SortedMap.get?_insert, SortedMap.get?_empty]
    by_cases hname : name = t.name
    · simp [Hierarchy.templates, hname]
    · simp [Hierarchy.templates, hname, Ne.symm hname]
  dynamic := rfl

/-- A string literal gives the parent's name as it is, and no other literal is dynamic, so it is the
dynamic targets that are noted. -/
theorem notice_eq (g : Gathering) :
    g.notice = { g with dynamic := g.dynamic || g.hierarchy.root.hasDynamicExtends } := by
  unfold notice Template.hasDynamicExtends
  split
  · next hnone => simp [hnone]
  · next target location hdeclared =>
    rw [hdeclared]
    cases target with
    | literal value => simp [Expr.isDynamic]
    | _ => simp [Expr.isDynamic, Expr.literalString?]

/-- A step leaves what was gathered faithful. -/
theorem Faithful.step {g : Gathering} (hfaithful : g.Faithful) (parent : Template) :
    (g.step parent).Faithful := by
  refine ⟨?_, fun name ↦ ?_, ?_⟩
  · rw [Hierarchy.definitions, templates_step, List.zipIdx_append, List.foldl_append,
      Gathering.step, notice_eq]
    simp only [add, hfaithful.definitions, Hierarchy.length, Nat.zero_add, List.zipIdx_cons,
      List.zipIdx_nil, List.foldl_cons, List.foldl_nil]
    rfl
  · rw [templates_step, List.reverse_concat, List.find?_cons, ← hfaithful.named, Gathering.step,
      notice_eq]
    simp only [add, SortedMap.get?_insert]
    by_cases hname : name = parent.name
    · simp [hname]
    · simp [hname, Ne.symm hname]
  · rw [templates_step, List.dropLast_concat, ← g.hierarchy.dropLast_append_root, List.any_append,
      ← hfaithful.dynamic, Gathering.step, notice_eq]
    simp [add]

/-- Whatever is taken in, what was gathered stays faithful. -/
theorem Faithful.foldl {g : Gathering} (hfaithful : g.Faithful) (ancestors : List Template) :
    (ancestors.foldl Gathering.step g).Faithful := by
  induction ancestors generalizing g with
  | nil => exact hfaithful
  | cons parent above ih => exact ih (hfaithful.step parent)

/-- A name was taken in if some template of the hierarchy has it. -/
theorem Faithful.contains_eq {g : Gathering} (hfaithful : g.Faithful) (name : String) :
    g.contains name = g.hierarchy.contains name := by
  rw [Bool.eq_iff_iff, contains, SortedMap.contains, hfaithful.named]
  simp [Hierarchy.contains, Hierarchy.names]

/-- At the end of a walk, every template that names a parent has been noted. -/
theorem Faithful.dynamic_eq {g : Gathering} (hfaithful : g.Faithful)
    (hroot : g.hierarchy.root.declaration? = none) : g.dynamic = g.hierarchy.isDynamic := by
  rw [hfaithful.dynamic, Hierarchy.isDynamic, ← g.hierarchy.dropLast_append_root, List.any_append]
  simp [Template.hasDynamicExtends, hroot]

end Gathering

namespace Hierarchy

variable {loader : Loader} {evaluate : Evaluator} {context : Context}

theorem gather_eq (loader : Loader) (evaluate : Evaluator) (context : Context) (t : Template) :
    gather loader evaluate context t =
      let above := ascend loader evaluate context [t.name] t
      ⟨above.loaded, above.outcome.map fun ancestors ↦ ancestors.foldl Gathering.step (.start t)⟩ :=
  Gathering.climb_eq loader evaluate context (.start t)

/-- A hierarchy is the requested template under the templates above it. -/
theorem build_eq (loader : Loader) (evaluate : Evaluator) (context : Context) (t : Template) :
    build loader evaluate context t =
      let above := ascend loader evaluate context [t.name] t
      ⟨above.loaded, above.outcome.map fun ancestors ↦ ⟨t, ancestors⟩⟩ := by
  simp only [build, gather_eq]
  cases (ascend loader evaluate context [t.name] t).outcome with
  | error e => rfl
  | ok ancestors => simp [Except.map, Gathering.hierarchy_foldl, Gathering.start]

/-- What a walk has gathered at its end is faithful. -/
theorem faithful_of_gather {t : Template} {g : Gathering}
    (hgather : (gather loader evaluate context t).outcome = .ok g) : g.Faithful := by
  rw [gather_eq] at hgather
  cases houtcome : (ascend loader evaluate context [t.name] t).outcome with
  | error e => simp [houtcome, Except.map] at hgather
  | ok ancestors =>
    simp only [houtcome, Except.map, Except.ok.injEq] at hgather
    rw [← hgather]
    exact (Gathering.faithful_start t).foldl ancestors

end Hierarchy

end TemplateInheritance
