import TemplateInheritance.Evaluation
import TemplateInheritance.Hierarchy.Basic
import TemplateInheritance.Loader

/-!
# Building hierarchies

From the requested template, `extends` declarations are followed through a loader until a
template declares no parent. A name that comes back closes a circle and ends the walk with an
error. The walk ends because each step reaches a stored template whose name is new.

On its way, the walk gathers what is asked of the hierarchy later: the winning definition of every
block, the template of every name, and whether some parent was named by an expression.
-/

namespace TemplateInheritance

/-- A quotation mark of either kind. -/
def isQuote (c : Char) : Bool := c == '"' || c == '\''

/-- A literal parent name without the quotation marks around it. -/
def trimQuotes (name : String) : String :=
  String.ofList ((name.toList.dropWhile isQuote).reverse.dropWhile isQuote).reverse

/-- The name that a template's parent is requested by. A string literal is taken as written, less
its quotation marks; every other target is evaluated and must give a string. -/
def Template.parentName? (t : Template) (evaluate : Evaluator) (context : Context) :
    Except ResolveError (Option String) :=
  match t.declaration? with
  | none => .ok none
  | some (target, _) =>
    match target.literalString? with
    | some name => .ok (some (trimQuotes name))
    | none =>
      match evaluate target context with
      | .error e => .error (.targetEvaluation t.name (.message e.message))
      | .ok (.string name) => .ok (some name)
      | .ok other => .error (.targetNotString t.name other.kindName)

/-- How many stored templates have a name that is not among `walked`. -/
def Loader.unwalked (loader : Loader) (walked : List String) : Nat :=
  loader.stored.countP fun t ↦ !walked.contains t.name

/-- A walk along `extends` declarations: the names whose loading succeeded, in order, and what the
walk came to. -/
structure Ascent (α : Type) where
  loaded : List String
  outcome : Except ResolveError α

/-- A test counts more than a stronger one that rejects an element it accepts. -/
theorem countP_lt_of_mem {α : Type} {p q : α → Bool} {xs : List α} {x : α}
    (hx : x ∈ xs) (hpq : ∀ y, q y = true → p y = true) (hp : p x = true) (hq : q x = false) :
    xs.countP q < xs.countP p := by
  induction xs with
  | nil => cases hx
  | cons y rest ih =>
    have hmono : rest.countP q ≤ rest.countP p := List.countP_mono_left fun z _ ↦ hpq z
    rcases List.mem_cons.1 hx with rfl | hx
    · simp [hp, hq]
      omega
    · have := ih hx
      by_cases hqy : q y = true
      · simp [hqy, hpq y hqy]
        omega
      · by_cases hpy : p y = true <;> simp [hqy, hpy] <;> omega

/-- Walking on to a stored template with a new name leaves fewer of them. -/
theorem Loader.unwalked_append_lt {loader : Loader} {walked : List String} {t : SharedTemplate}
    (hmem : t ∈ loader.stored) (hnew : walked.contains t.name = false) :
    loader.unwalked (walked ++ [t.name]) < loader.unwalked walked := by
  refine countP_lt_of_mem hmem (fun y hy ↦ ?_) (by simpa using hnew) (by simp)
  simp only [Bool.not_eq_true', List.contains_eq_mem, decide_eq_false_iff_not,
    List.mem_append, not_or] at hy ⊢
  exact hy.1

/-- What a walk has gathered: the hierarchy so far, the winning definition of every block in it, the
template of every name in it, and whether some parent was named by an expression. -/
structure Gathering where
  hierarchy : Hierarchy
  definitions : Definitions
  named : SortedMap Template
  dynamic : Bool

namespace Gathering

/-- The requested template, taken in. -/
def start (t : Template) : Gathering where
  hierarchy := ⟨t, []⟩
  definitions := Definitions.recordTemplate ∅ t 0
  named := SortedMap.insert ∅ t.name t
  dynamic := false

/-- Note how the last template names its parent, if it names one. -/
def notice (g : Gathering) : Gathering :=
  match g.hierarchy.root.declaration? with
  | none => g
  | some (target, _) =>
    if target.literalString?.isNone && target.isDynamic then { g with dynamic := true } else g

/-- Take in the parent of the last template. -/
def add (g : Gathering) (parent : Template) : Gathering :=
  { g with
    hierarchy := ⟨g.hierarchy.leaf, g.hierarchy.ancestors ++ [parent]⟩
    definitions := g.definitions.recordTemplate parent g.hierarchy.length
    named := g.named.insert parent.name parent }

/-- Go up from the last template to its parent. -/
def step (g : Gathering) (parent : Template) : Gathering := g.notice.add parent

/-- Whether a template of that name was taken in. -/
def contains (g : Gathering) (name : String) : Bool := g.named.contains name

@[simp] theorem hierarchy_notice (g : Gathering) : g.notice.hierarchy = g.hierarchy := by
  unfold notice
  split
  · rfl
  · split <;> rfl

@[simp] theorem names_step (g : Gathering) (parent : Template) :
    (g.step parent).hierarchy.names = g.hierarchy.names ++ [parent.name] := by
  simp [step, add, Hierarchy.names, Hierarchy.templates]

/-- Walk on from the last template until one declares no parent. -/
def climb (loader : Loader) (evaluate : Evaluator) (context : Context) (g : Gathering) :
    Ascent Gathering :=
  match g.hierarchy.root.parentName? evaluate context with
  | .error e => ⟨[], .error e⟩
  | .ok none => ⟨[], .ok g⟩
  | .ok (some name) =>
    match hload : loader.load name with
    | .error e => ⟨[], .error (.parentLoad name g.hierarchy.root.name e)⟩
    | .ok parent =>
      if hseen : g.hierarchy.names.contains parent.name then
        ⟨[name], .error (.circular parent.name g.hierarchy.names)⟩
      else
        have hfewer := Loader.unwalked_append_lt (Loader.mem_of_load hload) (by simpa using hseen)
        let above := climb loader evaluate context (g.step parent.template)
        ⟨name :: above.loaded, above.outcome⟩
termination_by loader.unwalked g.hierarchy.names
decreasing_by
  rw [names_step]
  exact hfewer

end Gathering

namespace Hierarchy

/-- Walk up from a template, and gather. -/
def gather (loader : Loader) (evaluate : Evaluator) (context : Context) (t : Template) :
    Ascent Gathering :=
  Gathering.climb loader evaluate context (.start t)

/-- The hierarchy of a template. -/
def build (loader : Loader) (evaluate : Evaluator) (context : Context) (t : Template) :
    Ascent Hierarchy :=
  let gathered := gather loader evaluate context t
  ⟨gathered.loaded, gathered.outcome.map (·.hierarchy)⟩

end Hierarchy

end TemplateInheritance
