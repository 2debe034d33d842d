import TemplateInheritance.Error.Basic

/-!
# Advice on errors

An error explained to a person: the messages of its whole chain in one line, and where the error
or one of its causes is known, details and a suggestion.
-/

namespace TemplateInheritance

/-- An explained error. -/
structure Advice where
  message : String
  details : Option String
  suggestion : Option String
deriving DecidableEq

namespace Advice

/-- The advice as lines of text. -/
def text (advice : Advice) : String :=
  advice.message ++
    (match advice.details with
      | some details => "\nDetails: " ++ details
      | none => "") ++
    (match advice.suggestion with
      | some suggestion => "\nSuggestion: " ++ suggestion
      | none => "")

end Advice

/-- Details and a suggestion for a resolution error. -/
def ResolveError.hints : ResolveError → Option String × Option String
  | circular name _ =>
    (some ("'" ++ name ++ "' extends itself directly or through its parents"),
      some "Remove the extends declaration that closes the loop")
  | parentLoad parent _ source =>
    (some ("The loader reported: " ++ source.message),
      some (if source.isNotFound then
          "Check the spelling of '" ++ parent ++ "' and that the loader can see it"
        else "Inspect the loader error above; it is not retried"))
  | targetEvaluation _ _ =>
    (none, some
      "Make sure every variable used by the extends expression is bound in the render context")
  | targetNotString _ found =>
    (some ("The extends expression evaluated to a " ++ found),
      some "Bind the layout variable to a template name string")
  | emptyHierarchy =>
    (some "A hierarchy reached the merger without any template in it",
      some "This is an internal error; please report it with the template chain")
  | superOutsideBlock _ _ =>
    (some "super() refers to the parent's version of the enclosing block",
      some "Move the super() call inside a \x7b% block %\x7d")
  | superTooDeep block _ =>
    (some ("Block '" ++ block ++ "' chains super() calls deeper than allowed"),
      some "Reduce the inheritance depth or raise max_super_depth in the configuration")

/-- Details and a suggestion for a loading error. -/
def LoadError.hints : LoadError → Option String × Option String
  | notFound name => (none, some ("Register '" ++ name ++ "' with the template loader"))
  | failed _ _ => (none, none)

namespace Cause

/-- Details and a suggestion from the outermost error that is more than a message. -/
def hints : Cause → Option String × Option String
  | message _ => (none, none)
  | load error => error.hints
  | resolve error => error.hints
  | context _ inner => inner.hints
termination_by structural cause => cause

/-- The explanation of an error. -/
def advice (cause : Cause) : Advice :=
  ⟨String.intercalate ": " cause.chain, cause.hints.1, cause.hints.2⟩

end Cause

end TemplateInheritance
