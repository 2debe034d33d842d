import TemplateInheritance.Tree.Node

/-!
# Errors

What can go wrong while a template is loaded or its inheritance resolved. An error may carry the
error that caused it, down to a plain message; `Cause.chain` lists the messages from the outermost
to the last cause.
-/

namespace TemplateInheritance

mutual

/-- Anything that can stand in a chain of causes. -/
inductive Cause where
  | message (text : String)
  | load (error : LoadError)
  | resolve (error : ResolveError)
  | context (text : String) (inner : Cause)

/-- Why a loader gave no template. -/
inductive LoadError where
  | notFound (name : String)
  | failed (name : String) (source : Cause)

/-- Why a template could not be resolved. -/
inductive ResolveError where
  | circular (name : String) (chain : List String)
  | parentLoad (parent child : String) (source : LoadError)
  | targetEvaluation (template : String) (source : Cause)
  | targetNotString (template : String) (found : String)
  | emptyHierarchy
  | superOutsideBlock (template : Option String) (location : Option Location)
  | superTooDeep (block : String) (limit : Nat)

end

deriving instance DecidableEq for Cause, LoadError, ResolveError

instance instDecidableEqExcept {ε α : Type} [DecidableEq ε] [DecidableEq α] :
    DecidableEq (Except ε α)
  | .error e, .error e' => decidable_of_decidable_of_eq (Except.error.injEq e e').symm
  | .error _, .ok _ => isFalse nofun
  | .ok _, .error _ => isFalse nofun
  | .ok a, .ok b => decidable_of_decidable_of_eq (Except.ok.injEq a b).symm

/-- The message of a loading error, without its cause. -/
def LoadError.message : LoadError → String
  | notFound name => "Template not found: " ++ name
  | failed name _ => "Failed to load template '" ++ name ++ "'"

/-- Whether the loader knows no template of that name. -/
def LoadError.isNotFound : LoadError → Bool
  | notFound _ => true
  | failed _ _ => false

/-- Where a call stands, as far as it is known. -/
def placeText (template : Option String) (location : Option Location) : String :=
  let inTemplate := match template with
    | some name => " in '" ++ name ++ "'"
    | none => ""
  let atLocation := match location with
    | some l => " at line " ++ toString l.line ++ ", column " ++ toString l.column
    | none => ""
  inTemplate ++ atLocation

namespace ResolveError

/-- The message of a resolution error, without its cause. -/
def message : ResolveError → String
  | circular name chain =>
    "Circular inheritance detected: " ++ name ++
      " (chain: " ++ String.intercalate " -> " chain ++ ")"
  | parentLoad parent child _ =>
    "Failed to load parent template '" ++ parent ++ "' extended by '" ++ child ++ "'"
  | targetEvaluation template _ =>
    "Failed to evaluate dynamic extends target in '" ++ template ++ "'"
  | targetNotString template found =>
    "Dynamic extends target in '" ++ template ++ "' must be a string, got " ++ found
  | emptyHierarchy => "No root template found in hierarchy"
  | superOutsideBlock template location =>
    "super() call outside of block context" ++ placeText template location
  | superTooDeep block limit =>
    "super() call depth exceeded in block '" ++ block ++ "' (limit " ++ toString limit ++
      ", possible infinite recursion)"

/-- Whether the content of a template is at fault, and not its loader or evaluator. -/
def isTemplateError : ResolveError → Bool
  | circular .. | targetNotString .. | superOutsideBlock .. | superTooDeep .. => true
  | parentLoad .. | targetEvaluation .. | emptyHierarchy => false

end ResolveError

mutual

/-- The messages from a cause down to its last one. -/
def Cause.chain : Cause → List String
  | .message text => [text]
  | .load error => LoadError.chain error
  | .resolve error => ResolveError.chain error
  | .context text inner => text :: Cause.chain inner
termination_by structural cause => cause

/-- The messages from a loading error down to its last cause. -/
def LoadError.chain : LoadError → List String
  | .notFound name => [(LoadError.notFound name).message]
  | .failed name source => (LoadError.failed name source).message :: Cause.chain source
termination_by structural error => error

/-- The messages from a resolution error down to its last cause. -/
def ResolveError.chain : ResolveError → List String
  | .parentLoad parent child source =>
    (ResolveError.parentLoad parent child source).message :: LoadError.chain source
  | .targetEvaluation template source =>
    (ResolveError.targetEvaluation template source).message :: Cause.chain source
  | .circular name chain => [(ResolveError.circular name chain).message]
  | .targetNotString template found => [(ResolveError.targetNotString template found).message]
  | .emptyHierarchy => [ResolveError.emptyHierarchy.message]
  | .superOutsideBlock template location =>
    [(ResolveError.superOutsideBlock template location).message]
  | .superTooDeep block limit => [(ResolveError.superTooDeep block limit).message]
termination_by structural error => error

end

end TemplateInheritance
