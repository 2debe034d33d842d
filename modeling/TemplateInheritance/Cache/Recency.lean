import TemplateInheritance.Cache.Command

/-!
# Recency lists

A table seen as a list of items in the order of their last touch, the freshest first. A hit moves
its item to the front, a store puts a new item there, and a full list loses its last item to a
new key. No clock reading is kept but the expiry.
-/

namespace TemplateInheritance

/-- A kept value without the time of its last touch. -/
structure RecencyItem (V : Type) where
  key : String
  value : V
  expiresAt : Nat
  touches : Nat
deriving DecidableEq

/-- Items by falling freshness, with the limits and counts of a table. -/
structure RecencyList (V : Type) where
  capacity : Nat
  lifetime : Nat
  items : List (RecencyItem V)
  hits : Nat
  misses : Nat
deriving DecidableEq

namespace RecencyList

variable {V : Type}

/-- An empty list whose values last for a number of clock readings; it holds at least one item. -/
def lasting (lifetime capacity : Nat) : RecencyList V :=
  ⟨max 1 capacity, lifetime, [], 0, 0⟩

/-- The item of a key. -/
def find? (list : RecencyList V) (key : String) : Option (RecencyItem V) :=
  list.items.find? (·.key = key)

/-- The items of other keys. -/
def others (list : RecencyList V) (key : String) : List (RecencyItem V) :=
  list.items.filter (·.key != key)

/-- Look up a value that is wanted only if `accepts` holds of it. -/
def lookup (list : RecencyList V) (now : Nat) (key : String) (accepts : V → Bool) :
    Option V × RecencyList V :=
  let missed := { list with misses := list.misses + 1 }
  match list.find? key with
  | none => (none, missed)
  | some item =>
    if item.expiresAt < now then (none, { missed with items := list.others key })
    else if accepts item.value then
      (some item.value,
        { list with
          hits := list.hits + 1
          items := { item with touches := item.touches + 1 } :: list.others key })
    else (none, missed)

/-- The items that stay when a value is stored under `key`, the place of the key aside. -/
def spared (list : RecencyList V) (key : String) : List (RecencyItem V) :=
  if (list.find? key).isSome || decide (list.items.length < list.capacity) then list.items
  else list.items.dropLast

/-- Store a value at the front if the admission agrees. -/
def store (list : RecencyList V) (now : Nat) (key : String) (value : V) (admission : Admission) :
    StoreOutcome × RecencyList V :=
  match admission with
  | .refuse => (.refused, list)
  | .fail => (.admissionFailed, list)
  | .agree =>
    let list := { list with items := list.spared key }
    match deadline? now list.lifetime with
    | none => (.clockOverflow, list)
    | some expiresAt =>
      (.stored, { list with items := ⟨key, value, expiresAt, 1⟩ :: list.others key })

/-- Remove the items for which `drops` holds, and count them. -/
def removeWhere (list : RecencyList V) (drops : String → V → Bool) : Nat × RecencyList V :=
  (list.items.countP fun item ↦ drops item.key item.value,
    { list with items := list.items.filter fun item ↦ !drops item.key item.value })

/-- Remove the items that expire before a reading, and count them. -/
def sweep (list : RecencyList V) (reading : Nat) : Nat × RecencyList V :=
  (list.items.countP fun item ↦ decide (item.expiresAt < reading),
    { list with items := list.items.filter fun item ↦ decide (reading ≤ item.expiresAt) })

/-- Remove every item and forget the counts. -/
def clear (list : RecencyList V) : RecencyList V :=
  { list with items := [], hits := 0, misses := 0 }

/-- Carry out a command at the reading `now`. -/
def perform (list : RecencyList V) (now : Nat) :
    Table.Command V → Table.Reply V × RecencyList V
  | .lookup key accepts => (list.lookup now key accepts).map .found id
  | .store key value admission => (list.store now key value admission).map .stored id
  | .removeWhere drops => (list.removeWhere drops).map .removed id
  | .sweep reading => (list.sweep reading).map .removed id
  | .clear => (.cleared, list.clear)

/-- Carry out commands in turn, each at its reading, and list the answers. -/
def run (list : RecencyList V) : List (Nat × Table.Command V) → List (Table.Reply V) × RecencyList V
  | [] => ([], list)
  | (now, command) :: rest =>
    let (reply, next) := list.perform now command
    let (replies, last) := next.run rest
    (reply :: replies, last)

end RecencyList

namespace Table

variable {V : Type}

/-- The entries in the order of their last touch, the freshest first. -/
def byRecency (table : Table V) : List (RecencyItem V) :=
  (table.entries.mergeSort fun a b ↦ decide (b.lastTouch ≤ a.lastTouch)).map fun entry ↦
    ⟨entry.key, entry.value, entry.expiresAt, entry.touches⟩

/-- The table as a recency list. -/
def recency (table : Table V) : RecencyList V :=
  ⟨table.capacity, table.lifetime, table.byRecency, table.hits, table.misses⟩

end Table

end TemplateInheritance
