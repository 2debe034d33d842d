import TemplateInheritance.Cache.Table

/-!
# What tables keep

Whatever happens to a table, its entries are entries it had before, with their values and
expiries, but for the one entry that a store adds. What a lookup answers is the value of an entry.
Where no two entries share a key, what a missed lookup takes away has expired.
-/

namespace TemplateInheritance

/-- Where no two elements share a key, the one of a key is the one that is found. -/
theorem find?_key_eq_some_iff {α : Type} {key : α → String} {xs : List α}
    (hdistinct : xs.Pairwise fun a b ↦ key a ≠ key b) (name : String) (x : α) :
    xs.find? (fun y ↦ key y = name) = some x ↔ x ∈ xs ∧ key x = name := by
  constructor
  · intro hfind
    exact ⟨List.mem_of_find?_eq_some hfind, by simpa using List.find?_some hfind⟩
  · rintro ⟨hmem, rfl⟩
    induction xs with
    | nil => cases hmem
    | cons first rest ih =>
      rw [List.pairwise_cons] at hdistinct
      rcases List.mem_cons.mp hmem with rfl | hrest
      · exact List.find?_cons_of_pos (by simp)
      · rw [List.find?_cons_of_neg (by simpa using hdistinct.1 x hrest)]
        exact ih hdistinct.2 hrest

namespace Table

variable {V : Type}

/-- Under the same lifetime, every entry of the one table is an entry of the other, its touches
aside. -/
structure KeptFrom (after before : Table V) : Prop where
  lifetime : after.lifetime = before.lifetime
  source : ∀ entry ∈ after.entries, ∃ source ∈ before.entries,
    source.key = entry.key ∧ source.value = entry.value ∧ source.expiresAt = entry.expiresAt

theorem KeptFrom.refl (table : Table V) : table.KeptFrom table :=
  ⟨rfl, fun entry hmem ↦ ⟨entry, hmem, rfl, rfl, rfl⟩⟩

theorem KeptFrom.trans {first second third : Table V} (hlater : third.KeptFrom second)
    (hearlier : second.KeptFrom first) : third.KeptFrom first := by
  refine ⟨hlater.lifetime.trans hearlier.lifetime, fun entry hmem ↦ ?_⟩
  obtain ⟨middle, hmiddle, hkey, hvalue, hexpiry⟩ := hlater.source entry hmem
  obtain ⟨source, hsource, hkey', hvalue', hexpiry'⟩ := hearlier.source middle hmiddle
  exact ⟨source, hsource, hkey'.trans hkey, hvalue'.trans hvalue, hexpiry'.trans hexpiry⟩

private theorem keptFrom_of_subset {after before : Table V}
    (hlifetime : after.lifetime = before.lifetime)
    (hsubset : ∀ entry ∈ after.entries, entry ∈ before.entries) : after.KeptFrom before :=
  ⟨hlifetime, fun entry hmem ↦ ⟨entry, hsubset entry hmem, rfl, rfl, rfl⟩⟩

theorem keptFrom_hit (table : Table V) (now : Nat) (key : String) :
    (table.hit now key).KeptFrom table := by
  refine ⟨rfl, fun entry hmem ↦ ?_⟩
  obtain ⟨source, hsource, rfl⟩ := List.mem_map.mp hmem
  refine ⟨source, hsource, ?_⟩
  split <;> exact ⟨rfl, rfl, rfl⟩

/-- A lookup adds nothing. -/
theorem keptFrom_lookup (table : Table V) (now : Nat) (key : String) (accepts : V → Bool) :
    (table.lookup now key accepts).2.KeptFrom table := by
  unfold lookup
  split
  · exact keptFrom_of_subset rfl fun _ hmem ↦ hmem
  · split
    · exact keptFrom_of_subset rfl fun _ hmem ↦ (List.mem_filter.mp hmem).1
    · split
      · exact table.keptFrom_hit now key
      · exact keptFrom_of_subset rfl fun _ hmem ↦ hmem

/-- A lookup finds the value of the entry of its key, if that has not expired and is accepted. -/
theorem lookup_eq_some_iff (table : Table V) (now : Nat) (key : String) (accepts : V → Bool)
    (value : V) :
    (table.lookup now key accepts).1 = some value ↔
      ∃ entry, table.find? key = some entry ∧ entry.isExpired now = false ∧
        accepts entry.value = true ∧ entry.value = value := by
  unfold lookup
  cases table.find? key with
  | none => simp
  | some entry =>
    by_cases hexpired : entry.isExpired now = true
    · simp [hexpired]
    · by_cases haccepted : accepts entry.value = true
      · simp [hexpired, haccepted]
      · simp [hexpired, haccepted]

/-- A lookup answers an accepted value that is kept under its key. -/
theorem mem_of_lookup {table : Table V} {now : Nat} {key : String} {accepts : V → Bool} {value : V}
    (hfound : (table.lookup now key accepts).1 = some value) :
    ∃ entry ∈ table.entries, entry.key = key ∧ entry.value = value ∧ accepts value = true := by
  obtain ⟨entry, hfind, -, haccepts, rfl⟩ := (table.lookup_eq_some_iff _ _ _ _).mp hfound
  refine ⟨entry, List.mem_of_find?_eq_some hfind, ?_, rfl, haccepts⟩
  simpa using List.find?_some hfind

private theorem mem_of_makeRoom {table : Table V} {key : String} {entry : Entry V}
    (hmem : entry ∈ (table.makeRoom key).entries) : entry ∈ table.entries := by
  unfold makeRoom evict at hmem
  split at hmem
  · split at hmem
    · exact hmem
    · exact (List.mem_filter.mp hmem).1
  · exact hmem

/-- After a store, the value of a key is one that the table had, or the one stored. -/
theorem mem_store {table : Table V} {now : Nat} {key : String} {value : V} {admission : Admission}
    {entry : Entry V} (hmem : entry ∈ (table.store now key value admission).2.entries) :
    entry ∈ table.entries ∨ admission = .agree ∧ entry.key = key ∧ entry.value = value := by
  cases admission with
  | refuse => exact .inl hmem
  | fail => exact .inl hmem
  | agree =>
    rw [store] at hmem
    cases hexpiry : deadline? now table.lifetime with
    | none =>
      rw [hexpiry] at hmem
      exact .inl (mem_of_makeRoom hmem)
    | some expiresAt =>
      rw [hexpiry] at hmem
      rcases List.mem_append.mp hmem with hold | hnew
      · exact .inl (mem_of_makeRoom (List.mem_filter.mp hold).1)
      · rw [List.mem_singleton.mp hnew]
        exact .inr ⟨rfl, rfl, rfl⟩

/-- A store that was agreed to puts its value in the table, unless it overflows the clock. -/
theorem mem_of_agreed {table : Table V} {now : Nat} {key : String} {value : V}
    (hstored : (table.store now key value .agree).1 ≠ .clockOverflow) :
    ∃ entry ∈ (table.store now key value .agree).2.entries,
      entry.key = key ∧ entry.value = value := by
  rw [store] at hstored ⊢
  cases hexpiry : deadline? now table.lifetime with
  | none =>
    rw [hexpiry] at hstored
    exact absurd rfl hstored
  | some expiresAt =>
    exact ⟨⟨key, value, expiresAt, now, 1⟩, List.mem_append_right _ List.mem_cons_self, rfl, rfl⟩

/-- A store overflows the clock only where the clock cannot show the expiry. -/
theorem store_ne_clockOverflow {table : Table V} {now : Nat} {key : String} {value : V}
    {admission : Admission} (hclock : (deadline? now table.lifetime).isSome) :
    (table.store now key value admission).1 ≠ .clockOverflow := by
  obtain ⟨expiresAt, hexpiry⟩ := Option.isSome_iff_exists.mp hclock
  cases admission with
  | refuse => simp [store]
  | fail => simp [store]
  | agree =>
    rw [store, hexpiry]
    simp [put]

private theorem lifetime_makeRoom (table : Table V) (key : String) :
    (table.makeRoom key).lifetime = table.lifetime := by
  unfold makeRoom evict
  split
  · split <;> rfl
  · rfl

/-- A store leaves the lifetime as it is. -/
theorem lifetime_store (table : Table V) (now : Nat) (key : String) (value : V)
    (admission : Admission) :
    (table.store now key value admission).2.lifetime = table.lifetime := by
  cases admission with
  | refuse => rfl
  | fail => rfl
  | agree =>
    rw [store]
    cases deadline? now table.lifetime <;> exact table.lifetime_makeRoom key

/-- The clock can show an expiry up to its last second. -/
theorem isSome_deadline?_iff (now lifetime : Nat) :
    (deadline? now lifetime).isSome ↔ (now + lifetime) / second ≤ lastSecond := by
  simp only [deadline?]
  generalize (now + lifetime) / second = seconds
  by_cases hfits : seconds ≤ lastSecond <;> simp [hfits]

/-- Earlier readings have their expiries, too. -/
theorem isSome_deadline?_of_le {earlier later lifetime : Nat} (hle : earlier ≤ later)
    (hlater : (deadline? later lifetime).isSome) : (deadline? earlier lifetime).isSome := by
  have hmono : (earlier + lifetime) / second ≤ (later + lifetime) / second :=
    Nat.div_le_div_right (by omega)
  rw [isSome_deadline?_iff] at hlater ⊢
  exact Nat.le_trans hmono hlater

/-! ### Distinct keys -/

section Keys

/-- No two entries share a key. -/
def Keyed (table : Table V) : Prop := table.entries.Pairwise fun a b ↦ a.key ≠ b.key

variable {table : Table V}

theorem keyed_new (lifetime capacity : Nat) : (new lifetime capacity : Table V).Keyed := .nil

theorem Keyed.of_sublist (hkeyed : table.Keyed) {after : Table V}
    (hsublist : after.entries.Sublist table.entries) : after.Keyed :=
  List.Pairwise.sublist hsublist hkeyed

theorem Keyed.find?_eq_some_iff (hkeyed : table.Keyed) (key : String) (entry : Entry V) :
    table.find? key = some entry ↔ entry ∈ table.entries ∧ entry.key = key :=
  find?_key_eq_some_iff hkeyed key entry

theorem Keyed.lookup (hkeyed : table.Keyed) (now : Nat) (key : String) (accepts : V → Bool) :
    (table.lookup now key accepts).2.Keyed := by
  unfold Table.lookup
  split
  · exact hkeyed
  · split
    · exact hkeyed.of_sublist List.filter_sublist
    · split
      · refine List.pairwise_map.mpr (hkeyed.imp fun {a b} hne ↦ ?_)
        split <;> split <;> exact hne
      · exact hkeyed

theorem Keyed.makeRoom (hkeyed : table.Keyed) (key : String) : (table.makeRoom key).Keyed := by
  unfold Table.makeRoom evict
  split
  · split
    · exact hkeyed
    · exact hkeyed.of_sublist List.filter_sublist
  · exact hkeyed

theorem Keyed.store (hkeyed : table.Keyed) (now : Nat) (key : String) (value : V)
    (admission : Admission) : (table.store now key value admission).2.Keyed := by
  cases admission with
  | refuse => exact hkeyed
  | fail => exact hkeyed
  | agree =>
    rw [Table.store]
    cases deadline? now table.lifetime with
    | none => exact hkeyed.makeRoom key
    | some expiresAt =>
      refine List.pairwise_append.mpr ⟨(hkeyed.makeRoom key).filter _, List.pairwise_singleton _ _,
        fun entry hmem other hother ↦ ?_⟩
      obtain rfl := List.mem_singleton.mp hother
      simpa using (List.mem_filter.mp hmem).2

/-- Where every value is wanted, a lookup misses exactly when nothing under its key is left to
live. -/
theorem Keyed.lookup_eq_none_iff (hkeyed : table.Keyed) (now : Nat) (key : String) :
    (table.lookup now key fun _ ↦ true).1 = none ↔
      ∀ entry ∈ table.entries, entry.key = key → entry.isExpired now = true := by
  have hsome := table.lookup_eq_some_iff now key (fun _ ↦ true)
  simp only [hkeyed.find?_eq_some_iff] at hsome
  rw [Option.eq_none_iff_forall_ne_some]
  constructor
  · intro hnone entry hmem hkey
    cases hlives : entry.isExpired now with
    | true => rfl
    | false => exact absurd ((hsome _).mpr ⟨entry, ⟨hmem, hkey⟩, hlives, trivial, rfl⟩) (hnone _)
  · intro hexpired value hfound
    obtain ⟨entry, ⟨hmem, hkey⟩, hlives, -⟩ := (hsome value).mp hfound
    rw [hexpired entry hmem hkey] at hlives
    cases hlives

end Keys

/-! ### What is left of a table -/

section Rest

/-- Under the same lifetime, the entries of the one table are entries of the other, just as they
were. Of each one that is missing, `gone` holds. -/
structure RestOf (after before : Table V) (gone : Entry V → Prop) : Prop where
  lifetime : after.lifetime = before.lifetime
  sublist : after.entries.Sublist before.entries
  missing : ∀ entry ∈ before.entries, entry ∉ after.entries → gone entry

variable {gone : Entry V → Prop} {table : Table V}

theorem restOf_of_entries_eq {after before : Table V} (hlifetime : after.lifetime = before.lifetime)
    (hentries : after.entries = before.entries) : after.RestOf before gone where
  lifetime := hlifetime
  sublist := hentries ▸ List.Sublist.refl _
  missing := fun _ hmem hmissing ↦ absurd (hentries ▸ hmem) hmissing

theorem RestOf.trans {first second third : Table V} (hlater : third.RestOf second gone)
    (hearlier : second.RestOf first gone) : third.RestOf first gone where
  lifetime := hlater.lifetime.trans hearlier.lifetime
  sublist := hlater.sublist.trans hearlier.sublist
  missing := by
    intro entry hmem hmissing
    by_cases hmiddle : entry ∈ second.entries
    · exact hlater.missing entry hmiddle hmissing
    · exact hearlier.missing entry hmem hmiddle

theorem RestOf.imp {gone' : Entry V → Prop} {after before : Table V}
    (hrest : after.RestOf before gone) (himp : ∀ entry, gone entry → gone' entry) :
    after.RestOf before gone' :=
  ⟨hrest.lifetime, hrest.sublist, fun entry hmem hmissing ↦
    himp entry (hrest.missing entry hmem hmissing)⟩

private theorem restOf_filter {after before : Table V} {keeps : Entry V → Bool}
    (hlifetime : after.lifetime = before.lifetime)
    (hentries : after.entries = before.entries.filter keeps)
    (hgone : ∀ entry ∈ before.entries, keeps entry = false → gone entry) :
    after.RestOf before gone where
  lifetime := hlifetime
  sublist := hentries ▸ List.filter_sublist
  missing := by
    intro entry hmem hmissing
    rw [hentries, List.mem_filter] at hmissing
    exact hgone entry hmem (by simpa [hmem] using hmissing)

/-- A lookup that misses takes away nothing but what has expired. -/
theorem restOf_lookup (hkeyed : table.Keyed) {now : Nat} {key : String} {accepts : V → Bool}
    (hmissed : (table.lookup now key accepts).1 = none) :
    (table.lookup now key accepts).2.RestOf table (·.isExpired now = true) := by
  unfold lookup at hmissed ⊢
  cases hfind : table.find? key with
  | none => exact restOf_of_entries_eq rfl rfl
  | some entry =>
    rw [hfind] at hmissed
    simp only at hmissed ⊢
    obtain ⟨hmem, hkey⟩ := (hkeyed.find?_eq_some_iff key entry).mp hfind
    by_cases hexpired : entry.isExpired now = true
    · rw [if_pos hexpired]
      refine restOf_filter rfl rfl fun other hother hdropped ↦ ?_
      have hsame : table.find? key = some other :=
        (hkeyed.find?_eq_some_iff key other).mpr ⟨hother, by simpa using hdropped⟩
      rw [hfind] at hsame
      rw [← Option.some.inj hsame]
      exact hexpired
    · rw [if_neg hexpired] at hmissed ⊢
      by_cases haccepted : accepts entry.value = true
      · rw [if_pos haccepted] at hmissed
        cases hmissed
      · rw [if_neg haccepted]
        exact restOf_of_entries_eq rfl rfl

theorem restOf_sweep (table : Table V) (now : Nat) :
    (table.sweep now).2.RestOf table (·.isExpired now = true) :=
  restOf_filter rfl rfl fun _ _ hdropped ↦ by simpa using hdropped

theorem restOf_removeWhere (table : Table V) (drops : String → V → Bool) :
    (table.removeWhere drops).2.RestOf table fun entry ↦ drops entry.key entry.value = true :=
  restOf_filter rfl rfl fun _ _ hdropped ↦ by simpa using hdropped

theorem restOf_clear (table : Table V) : table.clear.RestOf table fun _ ↦ True :=
  ⟨rfl, List.nil_sublist _, fun _ _ _ ↦ trivial⟩

theorem RestOf.keptFrom {after before : Table V} (hrest : after.RestOf before gone) :
    after.KeptFrom before :=
  keptFrom_of_subset hrest.lifetime hrest.sublist.subset

end Rest

end Table

/-- What has expired stays expired. -/
theorem Entry.isExpired_of_le {V : Type} {entry : Entry V} {earlier later : Nat}
    (hle : earlier ≤ later) (hexpired : entry.isExpired earlier = true) :
    entry.isExpired later = true := by
  have hlt : entry.expiresAt < earlier := of_decide_eq_true hexpired
  exact decide_eq_true (by omega)

end TemplateInheritance
