import TemplateInheritance.Error.Basic
import TemplateInheritance.Tree.Equality

/-!
# Loaders

A loader holds finitely many templates under their own names. Any request may be answered under an
alias, and any may be refused with an error. Every template in memory is stamped with the clock
reading at which it was made; no two are made at one reading, so equal stamps mean the same object.
-/

namespace TemplateInheritance

/-- A template as one object in memory. -/
structure SharedTemplate where
  template : Template
  stamp : Nat
deriving DecidableEq

/-- The name of the template. -/
def SharedTemplate.name (t : SharedTemplate) : String := t.template.name

/-- What can make a cache forget: a change of one template, or of everything. -/
inductive Upkeep where
  | invalidate (name : String)
  | clear
deriving DecidableEq

/-- Under which stored name each request is looked up. -/
structure Aliases where
  target : String → String

/-- Every request is looked up under its own name. -/
def Aliases.none : Aliases := ⟨id⟩

/-- Aliases listed as pairs of a requested and a stored name. Other names stand for themselves. -/
def Aliases.ofPairs (pairs : List (String × String)) : Aliases :=
  ⟨fun requested ↦ (pairs.lookup requested).getD requested⟩

instance : Coe (List (String × String)) Aliases := ⟨.ofPairs⟩

/-- With what error each request is refused, if it is refused before the store is asked. -/
structure Refusals where
  error? : String → Option LoadError

/-- No request is refused. -/
def Refusals.none : Refusals := ⟨fun _ ↦ .none⟩

/-- The listed names fail, each for its own reason. -/
def Refusals.ofPairs (pairs : List (String × String)) : Refusals :=
  ⟨fun requested ↦ (pairs.lookup requested).map fun reason ↦ .failed requested (.message reason)⟩

instance : Coe (List (String × String)) Refusals := ⟨.ofPairs⟩

/-- Every name fails for the same reason. -/
def Refusals.always (reason : String) : Refusals :=
  ⟨fun requested ↦ some (.failed requested (.message reason))⟩

/-- Stored templates, one of each name, and how requests for them are answered. Loading a watched
name makes the cache behind the loader forget that name, or everything. -/
structure Loader where
  stored : List SharedTemplate
  aliases : Aliases
  failing : Refusals
  invalidating : List String
  clearing : List String

namespace Loader

/-- A loader without templates, aliases, failures and watched names. -/
def empty : Loader := ⟨[], .none, .none, [], []⟩

/-- The template stored under that name. -/
def find? (loader : Loader) (name : String) : Option SharedTemplate :=
  loader.stored.find? (·.name = name)

/-- Store a template in the place of one of the same name. -/
def insert (loader : Loader) (t : SharedTemplate) : Loader :=
  { loader with stored := loader.stored.filter (·.name != t.name) ++ [t] }

/-- Remove the template of that name. -/
def remove (loader : Loader) (name : String) : Loader :=
  { loader with stored := loader.stored.filter (·.name != name) }

private theorem find?_filter_name (stored : List SharedTemplate) (removed name : String) :
    (stored.filter (·.name != removed)).find? (·.name = name) =
      if name = removed then none else stored.find? (·.name = name) := by
  induction stored with
  | nil => simp
  | cons t rest ih =>
    by_cases ht : t.name = removed <;> by_cases hn : name = removed <;>
      by_cases htn : t.name = name <;> simp_all

/-- A removed name is not stored, and every other name as before. -/
theorem find?_remove (loader : Loader) (removed name : String) :
    (loader.remove removed).find? name = if name = removed then none else loader.find? name :=
  find?_filter_name loader.stored removed name

/-- A stored template is found under its own name, and other names as before. -/
theorem find?_insert (loader : Loader) (t : SharedTemplate) (name : String) :
    (loader.insert t).find? name = if name = t.name then some t else loader.find? name := by
  simp only [find?, insert, List.find?_append, find?_filter_name]
  by_cases h : name = t.name
  · simp [h]
  · simp [h, Ne.symm h]

/-- The stored name that a request asks for; an alias is followed once. -/
def target (loader : Loader) (requested : String) : String :=
  loader.aliases.target requested

/-- Answer a request. A failing name is refused before the store is asked, and a template that is
not found is reported under the name it was looked for. -/
def load (loader : Loader) (requested : String) : Except LoadError SharedTemplate :=
  match loader.failing.error? requested with
  | some e => .error e
  | none =>
    match loader.find? (loader.target requested) with
    | some t => .ok t
    | none => .error (.notFound (loader.target requested))

/-- What the loading of a watched name does to the cache behind the loader. -/
def upkeep (loader : Loader) (requested : String) : List Upkeep :=
  (if loader.invalidating.contains requested then [.invalidate requested] else []) ++
    if loader.clearing.contains requested then [.clear] else []

/-- What the loading of the listed names does to the cache behind the loader. -/
def upkeepOf (loader : Loader) (loaded : List String) : List Upkeep :=
  loaded.flatMap loader.upkeep

/-- A request succeeds with the stored template that it asks for, unless it is set to fail. -/
theorem load_eq_ok_iff (loader : Loader) (requested : String) (t : SharedTemplate) :
    loader.load requested = .ok t ↔
      loader.failing.error? requested = none ∧
        loader.find? (loader.target requested) = some t := by
  unfold load
  cases loader.failing.error? requested with
  | some e => simp
  | none => cases loader.find? (loader.target requested) <;> simp

/-- A template is found under its own name. -/
theorem name_of_find? {loader : Loader} {name : String} {t : SharedTemplate}
    (hfind : loader.find? name = some t) : t.name = name := by
  simpa using List.find?_some hfind

/-- Only stored templates are loaded. -/
theorem mem_of_load {loader : Loader} {requested : String} {t : SharedTemplate}
    (h : loader.load requested = .ok t) : t ∈ loader.stored :=
  List.mem_of_find?_eq_some ((loader.load_eq_ok_iff requested t).mp h).2

end Loader

end TemplateInheritance
