import TemplateInheritance.Cache.Table

/-!
# Commands of a table

A table as a machine that answers one command after another, each given at its own clock reading.
-/

namespace TemplateInheritance.Table

variable {V : Type}

/-- What a table can be asked to do. -/
inductive Command (V : Type) where
  | lookup (key : String) (accepts : V → Bool)
  | store (key : String) (value : V) (admission : Admission)
  | removeWhere (drops : String → V → Bool)
  | sweep (reading : Nat)
  | clear

/-- What a table answers. -/
inductive Reply (V : Type) where
  | found (value : Option V)
  | stored (outcome : StoreOutcome)
  | removed (count : Nat)
  | cleared
deriving DecidableEq

/-- Carry out a command at the reading `now`. -/
def perform (table : Table V) (now : Nat) : Command V → Reply V × Table V
  | .lookup key accepts => (table.lookup now key accepts).map .found id
  | .store key value admission => (table.store now key value admission).map .stored id
  | .removeWhere drops => (table.removeWhere drops).map .removed id
  | .sweep reading => (table.sweep reading).map .removed id
  | .clear => (.cleared, table.clear)

/-- Carry out commands in turn, each at its reading, and list the answers. -/
def run (table : Table V) : List (Nat × Command V) → List (Reply V) × Table V
  | [] => ([], table)
  | (now, command) :: rest =>
    let (reply, next) := table.perform now command
    let (replies, last) := next.run rest
    (reply :: replies, last)

end TemplateInheritance.Table
