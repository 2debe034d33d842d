import TemplateInheritance.Value.Basic

/-!
# Render contexts

A context binds names to values for one rendering.
-/

namespace TemplateInheritance

/-- The variable bindings of one rendering, in name order. -/
abbrev Context := SortedMap Value

/-- A context can only be made of an object. -/
def Context.ofValue? : Value → Except String Context
  | .object fields => .ok (SortedMap.ofList fields)
  | other => .error ("render context must be a JSON object, got " ++ other.kindName)

end TemplateInheritance
