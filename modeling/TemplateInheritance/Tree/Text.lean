import TemplateInheritance.Tree.Node

/-!
# Text of trees

A tree written back as template text, and the part of that text which needs no rendering.
-/

namespace TemplateInheritance

/-- A tag of a template. -/
def tag (content : String) : String := "\x7b% " ++ content ++ " %\x7d"

/-- A name of an import list, with its alias if it has one. -/
def ImportedName.text (imported : ImportedName) : String :=
  match imported.localName with
  | some localName => imported.name ++ " as " ++ localName
  | none => imported.name

/-- The text of a leaf. -/
def Leaf.written : Leaf → String
  | text content => content
  | output expr _ => "\x7b\x7b " ++ expr.text ++ " \x7d\x7d"
  | extendsFrom target _ => tag ("extends " ++ target.text)
  | importAs source localName => tag ("import " ++ source.text ++ " as " ++ localName)
  | importNames source names =>
    tag ("from " ++ source.text ++ " import " ++
      String.intercalate ", " (names.map ImportedName.text))
  | assign target value => tag ("set " ++ target ++ " = " ++ value.text)

variable {Mark : Type}

/-- The text of an `else` branch whose body is written as `content`; an empty branch has none. -/
def elseBranch (otherwise : Nodes Mark) (content : String) : String :=
  if otherwise.isEmpty then "" else tag "else" ++ content

mutual

/-- The text of a node. A group adds nothing of its own. -/
def Node.written : Node Mark → String
  | .leaf leaf => leaf.written
  | .block _ name body => tag ("block " ++ name) ++ Nodes.written body ++ tag "endblock"
  | .conditional condition body arms otherwise =>
    tag ("if " ++ condition.text) ++ Nodes.written body ++ Arms.written arms ++
      elseBranch otherwise (Nodes.written otherwise) ++ tag "endif"
  | .loop targets iterable body otherwise =>
    tag ("for " ++ String.intercalate ", " targets ++ " in " ++ iterable.text) ++
      Nodes.written body ++ elseBranch otherwise (Nodes.written otherwise) ++ tag "endfor"
  | .group body => Nodes.written body
termination_by structural node => node

/-- The text of a sequence of nodes. -/
def Nodes.written : Nodes Mark → String
  | [] => ""
  | node :: rest => Node.written node ++ Nodes.written rest
termination_by structural nodes => nodes

/-- The text of the further arms of a conditional. -/
def Arms.written : Arms Mark → String
  | [] => ""
  | (condition, body) :: rest =>
    tag ("elif " ++ condition.text) ++ Nodes.written body ++ Arms.written rest
termination_by structural arms => arms

end

/-- The literal text of a leaf. -/
def Leaf.literalText : Leaf → String
  | text content => content
  | _ => ""

mutual

/-- The literal text of a node, seen through blocks and groups. What conditionals and loops write
depends on the rendering, so they are passed over. -/
def Node.literalText : Node Mark → String
  | .leaf leaf => leaf.literalText
  | .block _ _ body => Nodes.literalText body
  | .conditional .. => ""
  | .loop .. => ""
  | .group body => Nodes.literalText body
termination_by structural node => node

/-- The literal text of a sequence of nodes. -/
def Nodes.literalText : Nodes Mark → String
  | [] => ""
  | node :: rest => Node.literalText node ++ Nodes.literalText rest
termination_by structural nodes => nodes

end

/-- The template written back as text. -/
def Template.text (t : Template) : String := Nodes.written t.nodes

/-- The text of the template that is the same in every rendering. -/
def Template.literalText (t : Template) : String := Nodes.literalText t.nodes

end TemplateInheritance
