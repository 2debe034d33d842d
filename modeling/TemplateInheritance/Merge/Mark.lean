import TemplateInheritance.Tree.Node

/-!
# Marked trees

A tree in which every block is marked with the level it was taken from. Marks are put on and taken
off without touching anything else, and are listed as origins: one for each outermost block, each
with the origins of the blocks inside it.
-/

namespace TemplateInheritance

mutual

/-- Mark every block of the node. -/
def Node.mark {Mark New : Type} (new : New) : Node Mark → Node New
  | .leaf leaf => .leaf leaf
  | .block _ name body => .block new name (Nodes.mark new body)
  | .conditional condition body arms otherwise =>
    .conditional condition (Nodes.mark new body) (Arms.mark new arms) (Nodes.mark new otherwise)
  | .loop targets iterable body otherwise =>
    .loop targets iterable (Nodes.mark new body) (Nodes.mark new otherwise)
  | .group body => .group (Nodes.mark new body)
termination_by structural node => node

/-- Mark every block of the sequence. -/
def Nodes.mark {Mark New : Type} (new : New) : Nodes Mark → Nodes New
  | [] => []
  | node :: rest => Node.mark new node :: Nodes.mark new rest
termination_by structural nodes => nodes

/-- Mark every block of the arms. -/
def Arms.mark {Mark New : Type} (new : New) : Arms Mark → Arms New
  | [] => []
  | (condition, body) :: rest => (condition, Nodes.mark new body) :: Arms.mark new rest
termination_by structural arms => arms

end

mutual

private theorem Node.mark_mark {Mark Mid New : Type} (mid : Mid) (new : New) (node : Node Mark) :
    Node.mark new (Node.mark mid node) = Node.mark new node := by
  cases node <;> simp [Node.mark, Nodes.mark_mark, Arms.mark_mark]
termination_by structural node

/-- Only the last mark counts. -/
theorem Nodes.mark_mark {Mark Mid New : Type} (mid : Mid) (new : New) (nodes : Nodes Mark) :
    Nodes.mark new (Nodes.mark mid nodes) = Nodes.mark new nodes := by
  cases nodes <;> simp [Nodes.mark, Node.mark_mark, Nodes.mark_mark]
termination_by structural nodes

private theorem Arms.mark_mark {Mark Mid New : Type} (mid : Mid) (new : New) (arms : Arms Mark) :
    Arms.mark new (Arms.mark mid arms) = Arms.mark new arms := by
  match arms with
  | [] => simp [Arms.mark]
  | (_, body) :: rest => simp [Arms.mark, Nodes.mark_mark mid new body, Arms.mark_mark mid new rest]
termination_by structural arms

end

/-- The tree without its marks. -/
def Nodes.unmarked (nodes : Nodes Nat) : Nodes Unit := Nodes.mark () nodes

/-- The level a block was taken from, with the origins of the blocks inside it. -/
inductive Origin where
  | mk (level : Nat) (nested : List Origin)

namespace Origin

/-- The level the block was taken from. -/
def level : Origin → Nat
  | mk level _ => level

/-- The origins of the outermost blocks inside the block. -/
def nested : Origin → List Origin
  | mk _ nested => nested

end Origin

mutual

/-- The origins of the outermost blocks of the node. -/
def Node.origins : Node Nat → List Origin
  | .leaf _ => []
  | .block level _ body => [.mk level (Nodes.origins body)]
  | .conditional _ body arms otherwise =>
    Nodes.origins body ++ Arms.origins arms ++ Nodes.origins otherwise
  | .loop _ _ body otherwise => Nodes.origins body ++ Nodes.origins otherwise
  | .group body => Nodes.origins body
termination_by structural node => node

/-- The origins of the outermost blocks of the sequence, in document order. -/
def Nodes.origins : Nodes Nat → List Origin
  | [] => []
  | node :: rest => Node.origins node ++ Nodes.origins rest
termination_by structural nodes => nodes

/-- The origins of the outermost blocks of the arms, in document order. -/
def Arms.origins : Arms Nat → List Origin
  | [] => []
  | (_, body) :: rest => Nodes.origins body ++ Arms.origins rest
termination_by structural arms => arms

end

mutual

/-- Mark the node with the levels of a list of origins, and answer the origins that are left.
Blocks without an origin count as coming from level zero. -/
def Node.withOrigins : Node Unit → List Origin → Node Nat × List Origin
  | .leaf leaf, origins => (.leaf leaf, origins)
  | .block _ name body, origins =>
    let level := (origins.head?.map Origin.level).getD 0
    let nested := (origins.head?.map Origin.nested).getD []
    (.block level name (Nodes.withOrigins body nested).1, origins.tail)
  | .conditional condition body arms otherwise, origins =>
    let (body, origins) := Nodes.withOrigins body origins
    let (arms, origins) := Arms.withOrigins arms origins
    let (otherwise, origins) := Nodes.withOrigins otherwise origins
    (.conditional condition body arms otherwise, origins)
  | .loop targets iterable body otherwise, origins =>
    let (body, origins) := Nodes.withOrigins body origins
    let (otherwise, origins) := Nodes.withOrigins otherwise origins
    (.loop targets iterable body otherwise, origins)
  | .group body, origins =>
    let (body, origins) := Nodes.withOrigins body origins
    (.group body, origins)
termination_by structural node => node

/-- Mark the sequence with the levels of a list of origins. -/
def Nodes.withOrigins : Nodes Unit → List Origin → Nodes Nat × List Origin
  | [], origins => ([], origins)
  | node :: rest, origins =>
    let (node, origins) := Node.withOrigins node origins
    let (rest, origins) := Nodes.withOrigins rest origins
    (node :: rest, origins)
termination_by structural nodes => nodes

/-- Mark the arms with the levels of a list of origins. -/
def Arms.withOrigins : Arms Unit → List Origin → Arms Nat × List Origin
  | [], origins => ([], origins)
  | (condition, body) :: rest, origins =>
    let (body, origins) := Nodes.withOrigins body origins
    let (rest, origins) := Arms.withOrigins rest origins
    ((condition, body) :: rest, origins)
termination_by structural arms => arms

end

mutual

private theorem Node.withOrigins_origins (node : Node Nat) (rest : List Origin) :
    Node.withOrigins (Node.mark () node) (Node.origins node ++ rest) = (node, rest) := by
  cases node with
  | leaf leaf => simp [Node.mark, Node.origins, Node.withOrigins]
  | block level name body =>
    have hbody := Nodes.withOrigins_origins body []
    simp_all [Node.mark, Node.origins, Node.withOrigins, Origin.level, Origin.nested]
  | conditional condition body arms otherwise =>
    simp [Node.mark, Node.origins, Node.withOrigins, Nodes.withOrigins_origins,
      Arms.withOrigins_origins]
  | loop targets iterable body otherwise =>
    simp [Node.mark, Node.origins, Node.withOrigins, Nodes.withOrigins_origins]
  | group body => simp [Node.mark, Node.origins, Node.withOrigins, Nodes.withOrigins_origins]
termination_by structural node

/-- A marked tree is given back by its unmarked tree and its origins; further origins are left. -/
theorem Nodes.withOrigins_origins (nodes : Nodes Nat) (rest : List Origin) :
    Nodes.withOrigins (Nodes.mark () nodes) (Nodes.origins nodes ++ rest) = (nodes, rest) := by
  cases nodes with
  | nil => simp [Nodes.mark, Nodes.origins, Nodes.withOrigins]
  | cons node nodes =>
    simp [Nodes.mark, Nodes.origins, Nodes.withOrigins, Node.withOrigins_origins,
      Nodes.withOrigins_origins]
termination_by structural nodes

private theorem Arms.withOrigins_origins (arms : Arms Nat) (rest : List Origin) :
    Arms.withOrigins (Arms.mark () arms) (Arms.origins arms ++ rest) = (arms, rest) := by
  match arms with
  | [] => simp [Arms.mark, Arms.origins, Arms.withOrigins]
  | (condition, body) :: arms =>
    simp [Arms.mark, Arms.origins, Arms.withOrigins, Nodes.withOrigins_origins body,
      Arms.withOrigins_origins arms]
termination_by structural arms

end

end TemplateInheritance
