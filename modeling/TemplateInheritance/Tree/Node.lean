import TemplateInheritance.Tree.Expr

/-!
# Template trees

A template is a name and a sequence of nodes. A node is a leaf, a named block, a conditional, a
loop or a group. Blocks carry a mark: none in a template (`Unit`), the level they were taken from
in a merged tree (`Nat`). Every walk over trees comes as three functions, on a node, on a
sequence of nodes and on the further arms of a conditional.
-/

namespace TemplateInheritance

/-- A position in the source of a template. -/
structure Location where
  line : Nat
  column : Nat
deriving DecidableEq

/-- A name taken from another template, with the name it is known by here. -/
structure ImportedName where
  name : String
  localName : Option String
deriving DecidableEq

/-- A node without nodes inside it. -/
inductive Leaf where
  | text (content : String)
  | output (expr : Expr) (location : Option Location)
  | extendsFrom (target : Expr) (location : Option Location)
  | importAs (source : Expr) (localName : String)
  | importNames (source : Expr) (names : List ImportedName)
  | assign (target : String) (value : Expr)
deriving DecidableEq

/-- A node of a tree whose blocks carry marks. -/
inductive Node (Mark : Type) where
  | leaf (leaf : Leaf)
  | block (mark : Mark) (name : String) (body : List (Node Mark))
  | conditional (condition : Expr) (body : List (Node Mark))
      (arms : List (Expr × List (Node Mark))) (otherwise : List (Node Mark))
  | loop (targets : List String) (iterable : Expr) (body otherwise : List (Node Mark))
  | group (body : List (Node Mark))

/-- A sequence of nodes. -/
abbrev Nodes (Mark : Type) := List (Node Mark)

/-- The arms of a conditional after the first, each with its condition. -/
abbrev Arms (Mark : Type) := List (Expr × Nodes Mark)

/-- A named tree. -/
structure Template where
  name : String
  nodes : Nodes Unit

/-- Whether the leaf is an output of exactly `super()`. -/
def Leaf.isSuperCall : Leaf → Bool
  | output expr _ => expr.isSuper
  | _ => false

/-- Whether the leaf takes something in from another template. -/
def Leaf.isImport : Leaf → Bool
  | importAs _ _ | importNames _ _ => true
  | _ => false

namespace Node

variable {Mark : Type}

/-- Literal text. -/
def text (content : String) : Node Mark := leaf (.text content)

/-- An output without a known location. -/
def output (expr : Expr) : Node Mark := leaf (.output expr none)

/-- A call of `super()` without a known location. -/
def superCall : Node Mark := output .super

/-- A block of a template. -/
def named (name : String) (body : Nodes Unit) : Node Unit := block () name body

/-- An `extends` declaration that names its parent literally. -/
def extending (parent : String) : Node Mark := leaf (.extendsFrom (.literal (.string parent)) none)

/-- Whether the node is an output of exactly `super()`. -/
def isSuperCall : Node Mark → Bool
  | leaf l => l.isSuperCall
  | _ => false

/-- Whether the node is an import. -/
def isImport : Node Mark → Bool
  | leaf l => l.isImport
  | _ => false

/-- Whether the node is an `extends` declaration. -/
def isExtends : Node Mark → Bool
  | leaf (.extendsFrom _ _) => true
  | _ => false

/-- The name of a block. -/
def blockName? : Node Mark → Option String
  | block _ name _ => some name
  | _ => none

/-- The target and the location of an `extends` declaration. -/
def declaration? : Node Mark → Option (Expr × Option Location)
  | leaf (.extendsFrom target location) => some (target, location)
  | _ => none

end Node

namespace Template

/-- The first `extends` declaration at the top level. One inside a block or a branch declares no
parent. -/
def declaration? (t : Template) : Option (Expr × Option Location) :=
  t.nodes.findSome? Node.declaration?

/-- Whether the template declares a parent by an expression that is not a literal. -/
def hasDynamicExtends (t : Template) : Bool :=
  t.declaration?.any (·.1.isDynamic)

end Template

end TemplateInheritance
