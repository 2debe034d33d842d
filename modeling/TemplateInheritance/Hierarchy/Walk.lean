import Mathlib.Data.List.Dedup
import TemplateInheritance.Hierarchy.Build

/-!
# Walks from template to template

Building described as what one template asks of the loader and what it can get stuck on. A walk is
a hierarchy by itself: each template after the first is what the loader answers to the one before
it, and no name comes twice. It is over where a template declares no parent, and it breaks off at
the first template that is stuck. `Hierarchy.ascend` is the walk that keeps nothing but the templates
above the first one.
-/

namespace TemplateInheritance

namespace Template

/-- The template asks for its parent by that name. A string literal gives the name less the
quotation marks around it, and every other target the string that is its value. -/
inductive Asks (evaluate : Evaluator) (context : Context) (t : Template) : String → Prop where
  | literally {text : String} {location : Option Location}
      (hdeclared : t.declaration? = some (.literal (.string text), location)) :
      Asks evaluate context t (trimQuotes text)
  | evaluated {target : Expr} {location : Option Location} {name : String}
      (hdeclared : t.declaration? = some (target, location))
      (hother : target.literalString? = none)
      (hvalue : evaluate target context = .ok (.string name)) : Asks evaluate context t name

/-- The target of the template has no value, or a value that is no string. -/
inductive Misleads (evaluate : Evaluator) (context : Context) (t : Template) :
    ResolveError → Prop where
  | unevaluated {target : Expr} {location : Option Location} {e : EvalError}
      (hdeclared : t.declaration? = some (target, location))
      (hother : target.literalString? = none)
      (hvalue : evaluate target context = .error e) :
      Misleads evaluate context t (.targetEvaluation t.name (.message e.message))
  | notString {target : Expr} {location : Option Location} {value : Value}
      (hdeclared : t.declaration? = some (target, location))
      (hother : target.literalString? = none)
      (hvalue : evaluate target context = .ok value) (hkind : ∀ name, value ≠ .string name) :
      Misleads evaluate context t (.targetNotString t.name value.kindName)

/-- The loader answers with `parent` to the name that `child` asks for. -/
def Extends (loader : Loader) (evaluate : Evaluator) (context : Context)
    (child parent : Template) : Prop :=
  ∃ name found, child.Asks evaluate context name ∧ loader.load name = .ok found ∧
    found.template = parent

/-- The template declares a parent and cannot be continued: its target names none, the loader
refuses the name, or a template of that name was walked before. -/
inductive Stuck (loader : Loader) (evaluate : Evaluator) (context : Context)
    (walked : List String) (t : Template) : ResolveError → Prop where
  | misled {e : ResolveError} (hmisleads : t.Misleads evaluate context e) :
      Stuck loader evaluate context walked t e
  | refused {name : String} {e : LoadError} (hasks : t.Asks evaluate context name)
      (hload : loader.load name = .error e) :
      Stuck loader evaluate context walked t (.parentLoad name t.name e)
  | circular {name : String} {found : SharedTemplate} (hasks : t.Asks evaluate context name)
      (hload : loader.load name = .ok found) (hseen : found.name ∈ walked) :
      Stuck loader evaluate context walked t (.circular found.name walked)

/-- The name that the template asks the loader for, if any. -/
def request? (t : Template) (evaluate : Evaluator) (context : Context) : Option String :=
  (t.parentName? evaluate context).toOption.join

end Template

/-- The ancestors of `t`, nearest first, where `walked` holds the names up to and with that of
`t`. -/
def Hierarchy.ascend (loader : Loader) (evaluate : Evaluator) (context : Context)
    (walked : List String) (t : Template) : Ascent (List Template) :=
  match t.parentName? evaluate context with
  | .error e => ⟨[], .error e⟩
  | .ok none => ⟨[], .ok []⟩
  | .ok (some name) =>
    match hload : loader.load name with
    | .error e => ⟨[], .error (.parentLoad name t.name e)⟩
    | .ok parent =>
      if hseen : walked.contains parent.name then
        ⟨[name], .error (.circular parent.name walked)⟩
      else
        have := Loader.unwalked_append_lt (Loader.mem_of_load hload) (by simpa using hseen)
        let above := ascend loader evaluate context (walked ++ [parent.name]) parent.template
        ⟨name :: above.loaded, above.outcome.map (parent.template :: ·)⟩
termination_by loader.unwalked walked

/-- Each template is what the loader answers to the one before it, and no name comes twice. -/
structure Hierarchy.Walk (loader : Loader) (evaluate : Evaluator) (context : Context)
    (h : Hierarchy) : Prop where
  steps : h.templates.IsChain (Template.Extends loader evaluate context)
  distinct : h.names.Nodup

/-- What a walk comes to at its last template: the hierarchy, if that declares no parent, or what it
is stuck on. -/
inductive Hierarchy.Ends (loader : Loader) (evaluate : Evaluator) (context : Context)
    (h : Hierarchy) : Except ResolveError Hierarchy → Prop where
  | root (hroot : h.root.declaration? = none) : Ends loader evaluate context h (.ok h)
  | stuck {e : ResolveError} (hstuck : h.root.Stuck loader evaluate context h.names e) :
      Ends loader evaluate context h (.error e)

/-- The template comes up in the walk from `t`. -/
def Template.WalkedFrom (loader : Loader) (evaluate : Evaluator) (context : Context)
    (t walked : Template) : Prop :=
  ∃ h : Hierarchy, h.leaf = t ∧ h.Walk loader evaluate context ∧ walked ∈ h.templates

/-- The names that the loader was asked for: those it answered, and the one whose refusal ended the
walk. -/
def Ascent.requests {α : Type} (ascent : Ascent α) : List String :=
  ascent.loaded ++
    match ascent.outcome with
    | .error (.parentLoad name _ _) => [name]
    | _ => []

/-- The names of the stored templates, each once. -/
def Loader.storedNames (loader : Loader) : List String :=
  (loader.stored.map (·.name)).dedup

end TemplateInheritance
