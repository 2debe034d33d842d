/-!
# Maps sorted by name

A finite map from names to values, kept as a list of entries in strictly rising name order.
Names compare by code point, which is also the order of their UTF-8 bytes. Two maps are equal
exactly when they bind the same names to the same values.
-/

namespace TemplateInheritance

/-- A map whose entries stand in strictly rising name order. -/
structure SortedMap (α : Type) where
  entries : List (String × α)
  sorted : entries.Pairwise fun a b ↦ a.1 < b.1

namespace SortedMap

variable {α β : Type}

/-- Place an entry into a sorted list, replacing the entry of the same name. -/
def insertEntry (name : String) (value : α) : List (String × α) → List (String × α)
  | [] => [(name, value)]
  | (other, kept) :: rest =>
    if name < other then (name, value) :: (other, kept) :: rest
    else if name = other then (name, value) :: rest
    else (other, kept) :: insertEntry name value rest

/-- The value that the first entry of a name holds. -/
def lookupEntry (name : String) : List (String × α) → Option α
  | [] => none
  | (other, value) :: rest => if name = other then some value else lookupEntry name rest

private theorem lt_of_not_lt_of_ne {a b : String} (h : ¬a < b) (hne : a ≠ b) : b < a := by
  rcases String.le_total a b with hab | hba
  · exact absurd (String.le_antisymm hab (String.not_lt.1 h)) hne
  · exact String.not_le.1 fun hab ↦ hne (String.le_antisymm hab hba)

/-- Every name after an insertion is the inserted one or was there before. -/
theorem name_of_mem_insertEntry {name : String} {value : α} {entries : List (String × α)}
    {entry : String × α} (h : entry ∈ insertEntry name value entries) :
    entry.1 = name ∨ entry ∈ entries := by
  induction entries with
  | nil => simp_all [insertEntry]
  | cons head rest ih =>
    obtain ⟨other, kept⟩ := head
    simp only [insertEntry] at h
    split at h
    · rcases List.mem_cons.1 h with h | h
      · exact .inl (by rw [h])
      · exact .inr h
    · split at h
      · rcases List.mem_cons.1 h with h | h
        · exact .inl (by rw [h])
        · exact .inr (.tail _ h)
      · rcases List.mem_cons.1 h with h | h
        · exact .inr (by simp [h])
        · exact (ih h).imp_right (.tail _)

/-- Insertion keeps the entries sorted. -/
theorem pairwise_insertEntry (name : String) (value : α) {entries : List (String × α)}
    (h : entries.Pairwise fun a b ↦ a.1 < b.1) :
    (insertEntry name value entries).Pairwise fun a b ↦ a.1 < b.1 := by
  induction entries with
  | nil => simp [insertEntry]
  | cons head rest ih =>
    obtain ⟨other, kept⟩ := head
    have hrest := (List.pairwise_cons.1 h).2
    have hhead := (List.pairwise_cons.1 h).1
    simp only [insertEntry]
    split
    next hlt =>
      refine List.pairwise_cons.2 ⟨fun entry hmem ↦ ?_, h⟩
      rcases List.mem_cons.1 hmem with rfl | hmem
      · exact hlt
      · exact String.lt_trans hlt (hhead entry hmem)
    next hlt =>
      split
      next heq => exact List.pairwise_cons.2 ⟨fun entry hmem ↦ heq ▸ hhead entry hmem, hrest⟩
      next hne =>
        refine List.pairwise_cons.2 ⟨fun entry hmem ↦ ?_, ih hrest⟩
        rcases name_of_mem_insertEntry hmem with heq | hmem
        · exact heq ▸ lt_of_not_lt_of_ne hlt hne
        · exact hhead entry hmem

/-- The map without entries. -/
def empty : SortedMap α := ⟨[], .nil⟩

instance : EmptyCollection (SortedMap α) := ⟨empty⟩

instance : Inhabited (SortedMap α) := ⟨empty⟩

/-- Bind `name` to `value`, replacing what it was bound to. -/
def insert (map : SortedMap α) (name : String) (value : α) : SortedMap α :=
  ⟨insertEntry name value map.entries, pairwise_insertEntry name value map.sorted⟩

/-- The value bound to `name`. -/
def get? (map : SortedMap α) (name : String) : Option α :=
  lookupEntry name map.entries

/-- Drop the entry of `name`, if there is one. -/
def erase (map : SortedMap α) (name : String) : SortedMap α :=
  ⟨map.entries.filter (·.1 != name), map.sorted.filter _⟩

/-- Whether `name` is bound. -/
def contains (map : SortedMap α) (name : String) : Bool :=
  (map.get? name).isSome

/-- The number of bound names. -/
def size (map : SortedMap α) : Nat :=
  map.entries.length

/-- The bound names in rising order. -/
def names (map : SortedMap α) : List String :=
  map.entries.map (·.1)

/-- Bind the listed names in turn; the last binding of a name stays. -/
def ofList (bindings : List (String × α)) : SortedMap α :=
  bindings.foldl (fun map binding ↦ map.insert binding.1 binding.2) empty

/-- Maps with the same entries are equal. -/
theorem eq_of_entries_eq {a b : SortedMap α} (h : a.entries = b.entries) : a = b := by
  cases a; cases b; cases h; rfl

instance [DecidableEq α] : DecidableEq (SortedMap α) := fun a b ↦
  decidable_of_iff (a.entries = b.entries) ⟨eq_of_entries_eq, fun h ↦ h ▸ rfl⟩

private theorem lookupEntry_insertEntry (name key : String) (value : α)
    (entries : List (String × α)) :
    lookupEntry key (insertEntry name value entries) =
      if key = name then some value else lookupEntry key entries := by
  induction entries with
  | nil => simp [insertEntry, lookupEntry]
  | cons head rest ih =>
    obtain ⟨other, kept⟩ := head
    simp only [insertEntry]
    split
    next => simp only [lookupEntry]
    next =>
      split
      next heq => subst heq; by_cases hk : key = name <;> simp [lookupEntry, hk]
      next hne =>
        by_cases hk : key = other
        · subst hk
          simp [lookupEntry, Ne.symm hne]
        · simp [lookupEntry, hk, ih]

/-- An insertion answers its own name with the new value and every other name as before. -/
theorem get?_insert (map : SortedMap α) (name key : String) (value : α) :
    (map.insert name value).get? key = if key = name then some value else map.get? key :=
  lookupEntry_insertEntry name key value map.entries

/-- The empty map answers no name. -/
theorem get?_empty (key : String) : (∅ : SortedMap α).get? key = none := rfl

/-- An erased name is unbound and every other name is answered as before. -/
theorem get?_erase (map : SortedMap α) (name key : String) :
    (map.erase name).get? key = if key = name then none else map.get? key := by
  simp only [get?, erase]
  induction map.entries with
  | nil => simp [lookupEntry]
  | cons head rest ih =>
    obtain ⟨other, kept⟩ := head
    by_cases ho : other = name
    · subst ho
      by_cases hk : key = other <;> simp_all [lookupEntry]
    · by_cases hk : key = other
      · subst hk
        simp [lookupEntry, ho]
      · simp_all [lookupEntry]

private theorem lookupEntry_eq_none {name : String} {entries : List (String × α)}
    (h : ∀ entry ∈ entries, name < entry.1) : lookupEntry name entries = none := by
  induction entries with
  | nil => rfl
  | cons head rest ih =>
    have hne : name ≠ head.1 := fun heq ↦ String.lt_irrefl name (by simpa [← heq] using h head)
    simp [lookupEntry, hne, ih fun entry hmem ↦ h entry (.tail _ hmem)]

private theorem head_le_of_lookupEntry {name : String} {value : α} {head : String × α}
    {rest : List (String × α)} (hrest : ∀ entry ∈ rest, head.1 < entry.1)
    (h : lookupEntry name (head :: rest) = some value) : head.1 ≤ name := by
  refine String.not_lt.1 fun hlt ↦ ?_
  have hnone : lookupEntry name (head :: rest) = none := lookupEntry_eq_none fun entry hmem ↦ by
    rcases List.mem_cons.1 hmem with rfl | hmem
    · exact hlt
    · exact String.lt_trans hlt (hrest entry hmem)
  rw [hnone] at h
  cases h

private theorem entries_eq_of_lookupEntry_eq {as bs : List (String × α)}
    (ha : as.Pairwise fun a b ↦ a.1 < b.1) (hb : bs.Pairwise fun a b ↦ a.1 < b.1)
    (h : ∀ name, lookupEntry name as = lookupEntry name bs) : as = bs := by
  induction as generalizing bs with
  | nil =>
    cases bs with
    | nil => rfl
    | cons b bs => simpa [lookupEntry] using h b.1
  | cons a as ih =>
    cases bs with
    | nil => simpa [lookupEntry] using h a.1
    | cons b bs =>
      obtain ⟨haHead, haRest⟩ := List.pairwise_cons.1 ha
      obtain ⟨hbHead, hbRest⟩ := List.pairwise_cons.1 hb
      have hname : a.1 = b.1 := String.le_antisymm
        (head_le_of_lookupEntry haHead ((h b.1).trans (if_pos rfl)))
        (head_le_of_lookupEntry hbHead ((h a.1).symm.trans (if_pos rfl)))
      have hvalue : a.2 = b.2 := by simpa [lookupEntry, hname] using h a.1
      have hrest : as = bs := ih haRest hbRest fun name ↦ by
        by_cases heq : name = a.1
        · subst heq
          rw [lookupEntry_eq_none haHead, lookupEntry_eq_none (hname ▸ hbHead)]
        · simpa [lookupEntry, heq, hname ▸ heq] using h name
      rw [hrest, Prod.ext hname hvalue]

/-- Maps that bind the same names to the same values are equal. -/
theorem eq_of_get?_eq {a b : SortedMap α} (h : ∀ name, a.get? name = b.get? name) : a = b :=
  eq_of_entries_eq (entries_eq_of_lookupEntry_eq a.sorted b.sorted h)

end SortedMap

end TemplateInheritance
