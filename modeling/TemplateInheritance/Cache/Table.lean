import TemplateInheritance.Number.Binary64

/-!
# Tables with lifetimes and a capacity

A table keeps values under keys, each for a fixed lifetime. A full table gives up the entry that
was touched longest ago. Every operation is told the reading of a clock that counts nanoseconds
and never stands still between two operations, so no two touches share a reading.
-/

namespace TemplateInheritance

/-- Clock readings in one second. In products it stands in front: a product is unfolded along its
second factor. -/
def second : Nat := 1000000000

/-- The clock counts its seconds in signed words of 64 bits. -/
def lastSecond : Nat := UInt64.size / 2 - 1

/-- The reading a lifetime after `now`, unless the clock cannot show it. Lifetimes are counted in
readings. -/
def deadline? (now lifetime : Nat) : Option Nat :=
  let reading := now + lifetime
  if reading / second ≤ lastSecond then some reading else none

/-- The reading whole seconds after `now`, unless the clock cannot show it. -/
def expiry? (now seconds : Nat) : Option Nat := deadline? now (second * seconds)

/-- A kept value. `touches` counts its storing and every hit since. -/
structure Entry (V : Type) where
  key : String
  value : V
  expiresAt : Nat
  lastTouch : Nat
  touches : Nat
deriving DecidableEq

/-- An entry outlives the reading at which it expires, and nothing after it. -/
def Entry.isExpired {V : Type} (entry : Entry V) (now : Nat) : Bool :=
  decide (entry.expiresAt < now)

/-- A table: its limits, its entries and the counts of lookups that hit and missed. The lifetime is
counted in clock readings. -/
structure Table (V : Type) where
  capacity : Nat
  lifetime : Nat
  entries : List (Entry V)
  hits : Nat
  misses : Nat
deriving DecidableEq

/-- What decides over a store once the table is held: agreement, refusal, or a failure. -/
inductive Admission where
  | agree
  | refuse
  | fail
deriving DecidableEq

/-- What became of a store. -/
inductive StoreOutcome where
  | stored
  | refused
  | admissionFailed
  | clockOverflow
deriving DecidableEq

namespace Table

variable {V : Type}

/-- An empty table whose values last for a number of clock readings; it holds at least one entry. -/
def lasting (lifetime capacity : Nat) : Table V :=
  ⟨max 1 capacity, lifetime, [], 0, 0⟩

/-- An empty table whose values last for whole seconds, as settings count them. -/
def new (seconds capacity : Nat) : Table V := lasting (second * seconds) capacity

/-- The entry under a key. -/
def find? (table : Table V) (key : String) : Option (Entry V) :=
  table.entries.find? (·.key = key)

/-- The entries under other keys. -/
def without (table : Table V) (key : String) : List (Entry V) :=
  table.entries.filter (·.key != key)

/-- Count a lookup that missed. -/
def miss (table : Table V) : Table V :=
  { table with misses := table.misses + 1 }

/-- Count a lookup that hit, and touch its entry. -/
def hit (table : Table V) (now : Nat) (key : String) : Table V :=
  { table with
    hits := table.hits + 1
    entries := table.entries.map fun entry ↦
      if entry.key = key then { entry with lastTouch := now, touches := entry.touches + 1 }
      else entry }

/-- Look up a value that is wanted only if `accepts` holds of it. An expired entry is removed; a
value that is not wanted stays as it is. Both count as misses. -/
def lookup (table : Table V) (now : Nat) (key : String) (accepts : V → Bool) :
    Option V × Table V :=
  match table.find? key with
  | none => (none, table.miss)
  | some entry =>
    if entry.isExpired now then (none, { table.miss with entries := table.without key })
    else if accepts entry.value then (some entry.value, table.hit now key)
    else (none, table.miss)

/-- The entry touched longest ago. -/
def stalest : List (Entry V) → Option (Entry V)
  | [] => none
  | entry :: rest =>
    match stalest rest with
    | none => some entry
    | some other => if entry.lastTouch ≤ other.lastTouch then some entry else some other

/-- Remove the entry touched longest ago. -/
def evict (table : Table V) : Table V :=
  match stalest table.entries with
  | none => table
  | some entry => { table with entries := table.without entry.key }

/-- A full table gives up one entry for a new key. -/
def makeRoom (table : Table V) (key : String) : Table V :=
  if (table.find? key).isNone && decide (table.capacity ≤ table.entries.length) then table.evict
  else table

/-- Put a value in the place of one under its key, to expire at a reading. Without a reading nothing
is put. -/
def put (table : Table V) (now : Nat) (key : String) (value : V) :
    Option Nat → StoreOutcome × Table V
  | none => (.clockOverflow, table)
  | some expiresAt =>
    (.stored, { table with entries := table.without key ++ [⟨key, value, expiresAt, now, 1⟩] })

/-- Store a value if the admission agrees. Room is made before the expiry is reckoned, so that a
lifetime beyond the clock stores nothing but may have cost an entry. -/
def store (table : Table V) (now : Nat) (key : String) (value : V) (admission : Admission) :
    StoreOutcome × Table V :=
  match admission with
  | .refuse => (.refused, table)
  | .fail => (.admissionFailed, table)
  | .agree => (table.makeRoom key).put now key value (deadline? now table.lifetime)

/-- Remove the entries for which `drops` holds, and count them. -/
def removeWhere (table : Table V) (drops : String → V → Bool) : Nat × Table V :=
  let kept := table.entries.filter fun entry ↦ !drops entry.key entry.value
  (table.entries.length - kept.length, { table with entries := kept })

/-- Remove the entries that have expired, and count them. -/
def sweep (table : Table V) (now : Nat) : Nat × Table V :=
  let kept := table.entries.filter fun entry ↦ !entry.isExpired now
  (table.entries.length - kept.length, { table with entries := kept })

/-- Remove every entry and forget the counts. -/
def clear (table : Table V) : Table V :=
  { table with entries := [], hits := 0, misses := 0 }

/-- The number of entries, expired ones included. -/
def size (table : Table V) : Nat := table.entries.length

/-- A quotient as the nearest double; nothing divided by nothing is zero. -/
def rate (num den : Nat) : Binary64 :=
  if den = 0 then .zero else (Binary64.ofRatio? false num den).getD .zero

/-- The share of lookups that hit. -/
def hitRate (table : Table V) : Binary64 := rate table.hits (table.hits + table.misses)

/-- The mean number of touches of the entries. -/
def meanTouches (table : Table V) : Binary64 :=
  rate (table.entries.foldl (fun total entry ↦ total + entry.touches) 0) table.size

end Table

end TemplateInheritance
