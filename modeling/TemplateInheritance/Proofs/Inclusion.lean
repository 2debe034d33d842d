import TemplateInheritance.Proofs.Recency

/-!
# Larger tables keep more

Of two tables with one lifetime that go through the same commands, the larger one keeps everything
that the smaller one keeps. Seen as recency lists, the smaller list stays a part of the larger one,
in the same order, and the larger one stays so much shorter than its capacity that it is never full
unless the smaller one is. So when both give up an item, the larger one gives up either an item that
the smaller one has not, or the last of the smaller one, too.

A store beyond the clock ends the argument: it may cost the smaller table an entry and put nothing
in its place, and a later one may then cost the larger table an entry that the smaller one keeps. But
nothing is put into a table from then on, so one that has given up an entry has room for good. Hence
the tables differ in one key at most.
-/

namespace TemplateInheritance

variable {V : Type}

namespace RecencyList

variable {small large : RecencyList V}

/-- The one list is a part of the other, which has room for the items that it has beyond. -/
structure Within (small large : RecencyList V) : Prop where
  lifetime : small.lifetime = large.lifetime
  items : small.items.Sublist large.items
  spare : large.items.length + small.capacity ≤ small.items.length + large.capacity

theorem within_lasting (lifetime : Nat) {capacity capacity' : Nat}
    (hle : max 1 capacity ≤ max 1 capacity') :
    (lasting lifetime capacity : RecencyList V).Within (lasting lifetime capacity') :=
  ⟨rfl, .slnil, by simpa [lasting] using hle⟩

theorem find?_of_sublist (hvalid : large.Valid) (hsublist : small.items.Sublist large.items)
    {key : String} {item : RecencyItem V} (hfind : small.find? key = some item) :
    large.find? key = some item := by
  rw [find?, find?_key_eq_some_iff (hvalid.distinct.sublist hsublist)] at hfind
  rw [find?, find?_key_eq_some_iff hvalid.distinct]
  exact ⟨hsublist.subset hfind.1, hfind.2⟩

theorem find?_eq_none_of_sublist (hsublist : small.items.Sublist large.items) {key : String}
    (hnone : large.find? key = none) : small.find? key = none := by
  rw [find?, List.find?_eq_none] at hnone ⊢
  exact fun item hmem ↦ hnone item (hsublist.subset hmem)

/-- What is left of the larger list exceeds what is left of the smaller one by no more than
before. -/
theorem length_filter_add_length_le {α : Type} {xs ys : List α} (hsublist : xs.Sublist ys)
    (keeps : α → Bool) :
    (ys.filter keeps).length + xs.length ≤ (xs.filter keeps).length + ys.length := by
  have hdropped := hsublist.countP_le (p := fun x ↦ decide ¬keeps x = true)
  have hxs := List.length_eq_countP_add_countP keeps (l := xs)
  have hys := List.length_eq_countP_add_countP keeps (l := ys)
  rw [List.countP_eq_length_filter] at hxs hys
  omega

theorem Within.filter (hwithin : small.Within large) (keeps : RecencyItem V → Bool) :
    Within { small with items := small.items.filter keeps }
      { large with items := large.items.filter keeps } := by
  have hspare := hwithin.spare
  have hlength := length_filter_add_length_le hwithin.items keeps
  refine ⟨hwithin.lifetime, hwithin.items.filter keeps, ?_⟩
  dsimp only
  omega

theorem Within.lookup (hwithin : small.Within large) (hvalid : large.Valid) (now : Nat)
    (key : String) (accepts : V → Bool) :
    (small.lookup now key accepts).2.Within (large.lookup now key accepts).2 := by
  have hlifetime := hwithin.lifetime
  have hspare := hwithin.spare
  have hothers := hwithin.items.filter (·.key != key)
  unfold RecencyList.lookup
  cases hsmall : small.find? key with
  | some item =>
    have hlength := length_filter_add_length_le hwithin.items (·.key != key)
    simp only [find?_of_sublist hvalid hwithin.items hsmall]
    split
    · exact ⟨hlifetime, hothers, by simp only [others]; omega⟩
    · split
      · exact ⟨hlifetime, hothers.cons_cons _, by simp only [others, List.length_cons]; omega⟩
      · exact ⟨hlifetime, hwithin.items, hspare⟩
  | none =>
    -- the key takes a place of the larger list only
    have hrest : small.items.Sublist (large.others key) := by
      rw [← others_of_find?_eq_none hsmall]
      exact hothers
    cases hlarge : large.find? key with
    | none => exact ⟨hlifetime, hwithin.items, hspare⟩
    | some item =>
      have hlength := length_others_lt hlarge
      dsimp only
      split
      · exact ⟨hlifetime, hrest, by dsimp only; omega⟩
      · split
        · exact ⟨hlifetime, hrest.cons _, by simp only [List.length_cons]; omega⟩
        · exact ⟨hlifetime, hwithin.items, hspare⟩

/-! ### Stores -/

theorem spared_of_find? {list : RecencyList V} {key : String} {item : RecencyItem V}
    (hfind : list.find? key = some item) : list.spared key = list.items := by
  simp [spared, hfind]

theorem spared_of_lt {list : RecencyList V} (key : String)
    (hroom : list.items.length < list.capacity) : list.spared key = list.items := by
  simp [spared, hroom]

theorem spared_of_le {list : RecencyList V} {key : String} (hnone : list.find? key = none)
    (hfull : list.capacity ≤ list.items.length) : list.spared key = list.items.dropLast := by
  simp [spared, hnone, Nat.not_lt.mpr hfull]

theorem dropLast_sublist_dropLast {α : Type} {xs ys : List α} (hsublist : xs.Sublist ys) :
    xs.dropLast.Sublist ys.dropLast := by
  have htail := hsublist.reverse.tail
  rw [List.tail_reverse, List.tail_reverse] at htail
  exact List.reverse_sublist.mp htail

/-- Room is made in the larger list only where it is made in the smaller one, too. -/
theorem Within.spared_sublist (hwithin : small.Within large) (key : String) :
    (small.spared key).Sublist (large.spared key) := by
  have hspare := hwithin.spare
  have hsmaller := (small.spared_sublist key).trans hwithin.items
  cases hlarge : large.find? key with
  | some item =>
    rw [spared_of_find? hlarge]
    exact hsmaller
  | none =>
    have hsmall := find?_eq_none_of_sublist hwithin.items hlarge
    by_cases hroom : large.items.length < large.capacity
    · rw [spared_of_lt key hroom]
      exact hsmaller
    · rw [spared_of_le hsmall (by omega), spared_of_le hlarge (by omega)]
      exact dropLast_sublist_dropLast hwithin.items

private theorem others_spared_of_none {list : RecencyList V} {key : String}
    (hnone : list.find? key = none) :
    { list with items := list.spared key }.others key = list.spared key :=
  others_of_find?_eq_none (find?_eq_none_of_sublist (list.spared_sublist key) hnone)

/-- A new item in front of what is spared leaves the larger list the room that it needs. -/
theorem Within.length_others_spared_le (hwithin : small.Within large) (hvalid : large.Valid)
    (key : String) :
    ({ large with items := large.spared key }.others key).length + small.capacity ≤
      ({ small with items := small.spared key }.others key).length + large.capacity := by
  have hspare := hwithin.spare
  have hpositive := hvalid.positive
  cases hsmall : small.find? key with
  | some item =>
    have hlarge := find?_of_sublist hvalid hwithin.items hsmall
    have hlength := length_filter_add_length_le hwithin.items (·.key != key)
    rw [spared_of_find? hsmall, spared_of_find? hlarge]
    simp only [others]
    omega
  | none =>
    rw [others_spared_of_none hsmall]
    have hsmaller : (small.spared key).length =
        if small.items.length < small.capacity then small.items.length
        else small.items.length - 1 := by
      split
      · next hroom => rw [spared_of_lt key hroom]
      · next hfull => rw [spared_of_le hsmall (Nat.not_lt.mp hfull), List.length_dropLast]
    cases hlarge : large.find? key with
    | some item =>
      have hlength := length_others_lt hlarge
      rw [spared_of_find? hlarge]
      simp only [others] at hlength ⊢
      split at hsmaller <;> omega
    | none =>
      rw [others_spared_of_none hlarge]
      by_cases hroom : large.items.length < large.capacity
      · rw [spared_of_lt key hroom]
        split at hsmaller <;> omega
      · rw [spared_of_le hlarge (Nat.not_lt.mp hroom), List.length_dropLast]
        split at hsmaller <;> omega

theorem Within.sublist_store (hwithin : small.Within large) (now : Nat) (key : String) (value : V)
    (admission : Admission) :
    (small.store now key value admission).2.items.Sublist
      (large.store now key value admission).2.items := by
  cases admission with
  | refuse => exact hwithin.items
  | fail => exact hwithin.items
  | agree =>
    have hspared := hwithin.spared_sublist key
    have hexpiry : deadline? now small.lifetime = deadline? now large.lifetime := by
      rw [hwithin.lifetime]
    simp only [RecencyList.store, hexpiry]
    cases deadline? now large.lifetime with
    | none => exact hspared
    | some expiresAt => exact (hspared.filter (·.key != key)).cons_cons _

/-- A store that the clock lets through keeps the one list within the other. -/
theorem Within.store (hwithin : small.Within large) (hvalid : large.Valid) (now : Nat)
    (key : String) (value : V) (admission : Admission)
    (hclock : (small.store now key value admission).1 ≠ .clockOverflow) :
    (small.store now key value admission).2.Within (large.store now key value admission).2 := by
  have hitems := hwithin.sublist_store now key value admission
  cases admission with
  | refuse => exact hwithin
  | fail => exact hwithin
  | agree =>
    have hspare := hwithin.length_others_spared_le hvalid key
    have hexpiry : deadline? now small.lifetime = deadline? now large.lifetime := by
      rw [hwithin.lifetime]
    simp only [RecencyList.store, hexpiry] at hitems hclock ⊢
    cases hlarge : deadline? now large.lifetime with
    | none => simp [hlarge] at hclock
    | some expiresAt =>
      rw [hlarge] at hitems
      refine ⟨hwithin.lifetime, hitems, ?_⟩
      dsimp only [List.length_cons]
      omega

/-! ### Runs -/

/-- A command whose store is not beyond the clock keeps the one list within the other. -/
theorem Within.perform (hwithin : small.Within large) (hvalid : large.Valid) (now : Nat)
    (command : Table.Command V)
    (hclock : (small.perform now command).1 ≠ .stored .clockOverflow) :
    (small.perform now command).2.Within (large.perform now command).2 := by
  cases command with
  | lookup key accepts => exact hwithin.lookup hvalid now key accepts
  | store key value admission =>
    refine hwithin.store hvalid now key value admission fun hoverflow ↦ hclock ?_
    exact congrArg Table.Reply.stored hoverflow
  | removeWhere drops => exact hwithin.filter fun item ↦ !drops item.key item.value
  | sweep reading => exact hwithin.filter fun item ↦ decide (reading ≤ item.expiresAt)
  | clear =>
    have hspare := hwithin.spare
    have hlength := hwithin.items.length_le
    refine ⟨hwithin.lifetime, .slnil, ?_⟩
    simp only [RecencyList.perform, RecencyList.clear, List.length_nil]
    omega

/-- Whatever the command, the items of the one list stay items of the other. -/
theorem Within.sublist_perform (hwithin : small.Within large) (hvalid : large.Valid) (now : Nat)
    (command : Table.Command V) :
    (small.perform now command).2.items.Sublist (large.perform now command).2.items := by
  cases command with
  | lookup key accepts => exact (hwithin.lookup hvalid now key accepts).items
  | store key value admission => exact hwithin.sublist_store now key value admission
  | removeWhere drops => exact hwithin.items.filter _
  | sweep reading => exact hwithin.items.filter _
  | clear => exact .slnil

/-- After a run in which no store but the last command's was beyond the clock, the items of the one
list are items of the other. -/
theorem Within.sublist_run (hwithin : small.Within large) (hvalid : large.Valid)
    {commands : List (Nat × Table.Command V)}
    (hclock : ∀ reply ∈ (small.run commands).1.dropLast, reply ≠ .stored .clockOverflow) :
    (small.run commands).2.items.Sublist (large.run commands).2.items := by
  induction commands generalizing small large with
  | nil => exact hwithin.items
  | cons first rest ih =>
    obtain ⟨now, command⟩ := first
    cases rest with
    | nil => exact hwithin.sublist_perform hvalid now command
    | cons second rest =>
      have hdropLast : (small.run ((now, command) :: second :: rest)).1.dropLast =
          (small.perform now command).1 ::
            ((small.perform now command).2.run (second :: rest)).1.dropLast := rfl
      rw [hdropLast, List.forall_mem_cons] at hclock
      exact ih (hwithin.perform hvalid now command hclock.1) (hvalid.perform now command) hclock.2

/-! ### Beyond the clock -/

/-- Whatever the list holds under other keys than the lost one, the other list holds, too. If a key
is lost, the other list has room. -/
structure Covered (lost : Option String) (small large : RecencyList V) : Prop where
  items : ∀ item ∈ small.items, lost ≠ some item.key → item ∈ large.items
  room : lost.isSome → large.items.length < large.capacity

variable {lost : Option String} {now : Nat}

/-- What a lookup makes of the item that it finds. -/
private def RecencyItem.looked? (item : RecencyItem V) (now : Nat) (accepts : V → Bool) :
    Option (RecencyItem V) :=
  if item.expiresAt < now then none
  else if accepts item.value then some { item with touches := item.touches + 1 }
  else some item

private theorem key_of_looked? {item after : RecencyItem V} {accepts : V → Bool}
    (hlooked : RecencyItem.looked? item now accepts = some after) : after.key = item.key := by
  unfold RecencyItem.looked? at hlooked
  split at hlooked
  · cases hlooked
  · split at hlooked <;> rw [← Option.some.inj hlooked]

/-- A lookup leaves the items of other keys, and what it makes of the item of its key. -/
private theorem mem_lookup_iff {list : RecencyList V} (hvalid : list.Valid) (key : String)
    (accepts : V → Bool) (item : RecencyItem V) :
    item ∈ (list.lookup now key accepts).2.items ↔
      item ∈ list.items ∧ item.key ≠ key ∨
        ∃ found, list.find? key = some found ∧ RecencyItem.looked? found now accepts = some item := by
  have hothers : item ∈ list.others key ↔ item ∈ list.items ∧ item.key ≠ key := by
    simp [others]
  unfold RecencyList.lookup
  cases hfind : list.find? key with
  | none =>
    have hall : list.others key = list.items := others_of_find?_eq_none hfind
    simp [← hothers, hall]
  | some found =>
    have hfound := (find?_key_eq_some_iff hvalid.distinct key found).mp hfind
    simp only [Option.some.injEq, exists_eq_left', ← hothers, RecencyItem.looked?]
    split
    · simp
    · split
      · simp [or_comm, eq_comm]
      · -- an item that is not accepted stays the one of its key
        have hsplit : item ∈ list.items ↔ item ∈ list.others key ∨ item = found := by
          rw [hothers]
          constructor
          · intro hmem
            by_cases hkey : item.key = key
            · have hitem := (find?_key_eq_some_iff hvalid.distinct key item).mpr ⟨hmem, hkey⟩
              exact .inr (Option.some.inj (hitem.symm.trans hfind))
            · exact .inl ⟨hmem, hkey⟩
          · rintro (hmem | rfl)
            · exact hmem.1
            · exact hfound.1
        simp [hsplit, eq_comm]

private theorem length_lookup_le (list : RecencyList V) (now : Nat) (key : String)
    (accepts : V → Bool) :
    (list.lookup now key accepts).2.items.length ≤ list.items.length := by
  unfold RecencyList.lookup
  cases hfind : list.find? key with
  | none => exact Nat.le_refl _
  | some found =>
    have hlength := length_others_lt hfind
    dsimp only
    split
    · exact Nat.le_of_lt hlength
    · split
      · exact hlength
      · exact Nat.le_refl _

theorem Covered.of_sublist (hitems : small.items.Sublist large.items) : Covered none small large :=
  ⟨fun _ hmem _ ↦ hitems.subset hmem, nofun⟩

theorem Covered.lookup (hcovered : Covered lost small large) (hsmall : small.Valid)
    (hlarge : large.Valid) (key : String) (accepts : V → Bool) :
    Covered lost (small.lookup now key accepts).2 (large.lookup now key accepts).2 := by
  constructor
  · intro item hmem hlost
    rw [mem_lookup_iff hlarge]
    rcases (mem_lookup_iff hsmall key accepts item).mp hmem with
      ⟨hold, hkey⟩ | ⟨found, hfind, hlooked⟩
    · exact .inl ⟨hcovered.items item hold hlost, hkey⟩
    · obtain ⟨hold, hkey⟩ := (find?_key_eq_some_iff hsmall.distinct key found).mp hfind
      rw [key_of_looked? hlooked] at hlost
      refine .inr ⟨found, ?_, hlooked⟩
      exact (find?_key_eq_some_iff hlarge.distinct key found).mpr
        ⟨hcovered.items found hold hlost, hkey⟩
  · intro hsome
    have hcapacity := (large.limits_perform now (.lookup key accepts)).1
    have hlength := large.length_lookup_le now key accepts
    have hroom := hcovered.room hsome
    exact hcapacity ▸ Nat.lt_of_le_of_lt hlength hroom

/-- Only items that are dropped from the larger list need not be covered any more. -/
theorem Covered.of_filter (hcovered : Covered lost small large) (keeps : RecencyItem V → Bool) :
    Covered lost { small with items := small.items.filter keeps }
      { large with items := large.items.filter keeps } := by
  constructor
  · intro item hmem hlost
    obtain ⟨hold, hkept⟩ := List.mem_filter.mp hmem
    exact List.mem_filter.mpr ⟨hcovered.items item hold hlost, hkept⟩
  · intro hsome
    exact Nat.lt_of_le_of_lt (List.length_filter_le keeps large.items) (hcovered.room hsome)

/-- Where nothing is put, making room costs the larger list one item at most, and after it there is
room. -/
theorem Covered.makeRoom (hcovered : Covered lost small large) (hlarge : large.Valid)
    (key : String) :
    ∃ lost', Covered lost' { small with items := small.spared key }
      { large with items := large.spared key } := by
  have hold : ∀ item ∈ small.spared key, item ∈ small.items :=
    fun item hmem ↦ (small.spared_sublist key).subset hmem
  by_cases hspared : large.spared key = large.items
  · rw [hspared]
    exact ⟨lost, fun item hmem hlost ↦ hcovered.items item (hold item hmem) hlost, hcovered.room⟩
  · -- the larger list is full, so no key was lost before
    have hnone : large.find? key = none := by
      cases hfind : large.find? key with
      | none => rfl
      | some item => exact absurd (spared_of_find? hfind) hspared
    have hfull : large.capacity ≤ large.items.length :=
      Nat.not_lt.mp fun hroom ↦ hspared (spared_of_lt key hroom)
    have hlost : lost = none := by
      rw [← Option.not_isSome_iff_eq_none]
      exact fun hsome ↦ absurd (hcovered.room hsome) (Nat.not_lt.mpr hfull)
    subst hlost
    rw [spared_of_le hnone hfull]
    have hpositive := hlarge.positive
    obtain ⟨front, last, hsplit⟩ : ∃ front last, large.items = front ++ [last] :=
      ⟨_, _, (List.dropLast_concat_getLast (List.ne_nil_of_length_pos (by omega))).symm⟩
    refine ⟨some last.key, fun item hmem hlost ↦ ?_, fun _ ↦ ?_⟩
    · have hin := hcovered.items item (hold item hmem) nofun
      rw [hsplit] at hin ⊢
      rw [List.dropLast_concat]
      rcases List.mem_append.mp hin with hfront | hlast
      · exact hfront
      · exact absurd (congrArg (some ·.key) (List.mem_singleton.mp hlast).symm) hlost
    · have hbounded := hlarge.bounded
      show large.items.dropLast.length < large.capacity
      rw [List.length_dropLast]
      omega

/-- Beyond the clock, a command costs the larger list one item at most that the smaller one
keeps, and none once a key is lost. -/
theorem Covered.perform (hcovered : Covered lost small large) (hsmall : small.Valid)
    (hlarge : large.Valid) (hbeyond : deadline? now small.lifetime = none)
    (hlifetime : small.lifetime = large.lifetime) (command : Table.Command V) :
    ∃ lost', Covered lost' (small.perform now command).2 (large.perform now command).2 := by
  cases command with
  | lookup key accepts => exact ⟨lost, hcovered.lookup hsmall hlarge key accepts⟩
  | store key value admission =>
    cases admission with
    | refuse => exact ⟨lost, hcovered⟩
    | fail => exact ⟨lost, hcovered⟩
    | agree =>
      have hbeyond' : deadline? now large.lifetime = none := hlifetime ▸ hbeyond
      simp only [RecencyList.perform, RecencyList.store, hbeyond, hbeyond', Prod.map_snd, id_eq]
      exact hcovered.makeRoom hlarge key
  | removeWhere drops => exact ⟨lost, hcovered.of_filter fun item ↦ !drops item.key item.value⟩
  | sweep reading =>
    exact ⟨lost, hcovered.of_filter fun item ↦ decide (reading ≤ item.expiresAt)⟩
  | clear => exact ⟨none, .of_sublist .slnil⟩

theorem Covered.run (hcovered : Covered lost small large) (hsmall : small.Valid)
    (hlarge : large.Valid) (hlifetime : small.lifetime = large.lifetime)
    {commands : List (Nat × Table.Command V)}
    (hbeyond : ∀ command ∈ commands, deadline? command.1 small.lifetime = none) :
    ∃ lost', Covered lost' (small.run commands).2 (large.run commands).2 := by
  induction commands generalizing small large lost with
  | nil => exact ⟨lost, hcovered⟩
  | cons first rest ih =>
    obtain ⟨now, command⟩ := first
    rw [List.forall_mem_cons] at hbeyond
    obtain ⟨lost', hcovered⟩ := hcovered.perform hsmall hlarge hbeyond.1 hlifetime command
    have hkept := (small.limits_perform now command).2
    apply ih hcovered (hsmall.perform now command) (hlarge.perform now command)
    · rw [hkept, hlifetime, (large.limits_perform now command).2]
    · rw [hkept]
      exact hbeyond.2

/-! ### Runs up to the clock's end -/

private theorem run_append (list : RecencyList V) (first rest : List (Nat × Table.Command V)) :
    (list.run (first ++ rest)).2 = ((list.run first).2.run rest).2 := by
  induction first generalizing list with
  | nil => rfl
  | cons command first ih => exact ih _

/-- A command overflows the clock only where the clock cannot show the expiry of its value. -/
private theorem perform_ne_clockOverflow {list : RecencyList V}
    (hclock : (deadline? now list.lifetime).isSome) (command : Table.Command V) :
    (list.perform now command).1 ≠ .stored .clockOverflow := by
  obtain ⟨expiresAt, hexpiry⟩ := Option.isSome_iff_exists.mp hclock
  cases command with
  | store key value admission =>
    cases admission <;> simp [RecencyList.perform, RecencyList.store, hexpiry]
  | _ => simp [RecencyList.perform]

/-- As long as the clock can show the expiries, the one list stays within the other. -/
theorem Within.run (hwithin : small.Within large) (hvalid : large.Valid)
    {commands : List (Nat × Table.Command V)}
    (hclock : ∀ command ∈ commands, (deadline? command.1 small.lifetime).isSome) :
    (small.run commands).2.Within (large.run commands).2 := by
  induction commands generalizing small large with
  | nil => exact hwithin
  | cons first rest ih =>
    obtain ⟨now, command⟩ := first
    rw [List.forall_mem_cons] at hclock
    have hnext := hwithin.perform hvalid now command (perform_ne_clockOverflow hclock.1 command)
    apply ih hnext (hvalid.perform now command)
    rw [(small.limits_perform now command).2]
    exact hclock.2

/-- Once the clock cannot show an expiry, it shows none any more. -/
private theorem exists_split {commands : List (Nat × Table.Command V)} (lifetime : Nat)
    (hrising : commands.Pairwise fun earlier later ↦ earlier.1 < later.1) :
    ∃ before after, commands = before ++ after ∧
      (∀ command ∈ before, (deadline? command.1 lifetime).isSome) ∧
      ∀ command ∈ after, deadline? command.1 lifetime = none := by
  induction commands with
  | nil => exact ⟨[], [], rfl, nofun, nofun⟩
  | cons first rest ih =>
    rw [List.pairwise_cons] at hrising
    by_cases hclock : (deadline? first.1 lifetime).isSome
    · obtain ⟨before, after, rfl, hbefore, hafter⟩ := ih hrising.2
      exact ⟨first :: before, after, rfl, List.forall_mem_cons.mpr ⟨hclock, hbefore⟩, hafter⟩
    · refine ⟨[], first :: rest, rfl, nofun, fun command hmem ↦ ?_⟩
      rw [← Option.not_isSome_iff_eq_none]
      rcases List.mem_cons.mp hmem with rfl | hmem
      · exact hclock
      · exact fun hlater ↦
          hclock (Table.isSome_deadline?_of_le (Nat.le_of_lt (hrising.1 command hmem)) hlater)

/-- After any run from empty lists, the larger list lacks the items of one key at most. -/
theorem exists_covered_run {capacity capacity' : Nat} (hle : max 1 capacity ≤ max 1 capacity')
    (lifetime : Nat) {commands : List (Nat × Table.Command V)}
    (hrising : commands.Pairwise fun earlier later ↦ earlier.1 < later.1) :
    ∃ lost, Covered lost ((lasting lifetime capacity).run commands).2
      ((lasting lifetime capacity').run commands).2 := by
  obtain ⟨before, after, rfl, hbefore, hafter⟩ := exists_split lifetime hrising
  have hvalid := valid_lasting (V := V) lifetime capacity
  have hvalid' := valid_lasting (V := V) lifetime capacity'
  have hwithin := (within_lasting lifetime hle).run hvalid' hbefore
  have hkept := ((lasting lifetime capacity : RecencyList V).limits_run before).2
  rw [run_append, run_append]
  apply (Covered.of_sublist hwithin.items).run (hvalid.run before) (hvalid'.run before)
    hwithin.lifetime
  rw [hkept]
  exact hafter

end RecencyList

/-! ### Tables -/

namespace Table

/-- Under the keys that count, every entry of the smaller table is an entry of the larger one, its
touches aside, and what a lookup finds in the smaller one, it finds in the larger one. -/
structure HeldBy (counts : String → Prop) (small large : Table V) : Prop where
  entries : ∀ entry ∈ small.entries, counts entry.key → ∃ other ∈ large.entries,
    other.key = entry.key ∧ other.value = entry.value ∧ other.expiresAt = entry.expiresAt
  lookups : ∀ now key accepts value, counts key →
    (small.lookup now key accepts).1 = some value → (large.lookup now key accepts).1 = some value

theorem HeldBy.imp {counts counts' : String → Prop} {small large : Table V}
    (hheld : HeldBy counts small large) (hcounts : ∀ key, counts' key → counts key) :
    HeldBy counts' small large where
  entries entry hmem hkey := hheld.entries entry hmem (hcounts entry.key hkey)
  lookups now key accepts value hkey := hheld.lookups now key accepts value (hcounts key hkey)

theorem mem_byRecency_iff (table : Table V) (item : RecencyItem V) :
    item ∈ table.byRecency ↔ ∃ entry ∈ table.entries, entry.item = item := by
  rw [byRecency_eq_map, List.mem_map]
  simp only [(Entry.byTouch_perm table.entries).mem_iff]

/-- What is covered as a list is held as a table. -/
private theorem heldBy_of_covered {small large : Table V} {now now' : Nat} {lost : Option String}
    (hsmall : small.Sound now) (hlarge : large.Sound now')
    (hcovered : RecencyList.Covered lost small.recency large.recency) :
    HeldBy (fun key ↦ lost ≠ some key) small large := by
  have hentries : ∀ entry ∈ small.entries, lost ≠ some entry.key → ∃ other ∈ large.entries,
      other.key = entry.key ∧ other.value = entry.value ∧ other.expiresAt = entry.expiresAt := by
    intro entry hmem hlost
    have hitem := (small.mem_byRecency_iff entry.item).mpr ⟨entry, hmem, rfl⟩
    obtain ⟨other, hother, heq⟩ :=
      (large.mem_byRecency_iff entry.item).mp (hcovered.items entry.item hitem hlost)
    exact ⟨other, hother, congrArg RecencyItem.key heq, congrArg RecencyItem.value heq,
      congrArg RecencyItem.expiresAt heq⟩
  refine ⟨hentries, fun now key accepts value hlost hfound ↦ ?_⟩
  rw [lookup_eq_some_iff] at hfound ⊢
  obtain ⟨entry, hfind, hlive, haccepts, hvalue⟩ := hfound
  obtain ⟨hmem, rfl⟩ := (Entry.find?_eq_some_iff hsmall.apart key entry).mp hfind
  obtain ⟨other, hother, hkey, hvalue', hexpiry⟩ := hentries entry hmem hlost
  refine ⟨other, ?_, ?_, ?_, hvalue'.trans hvalue⟩
  · exact (Entry.find?_eq_some_iff hlarge.apart entry.key other).mpr ⟨hother, hkey⟩
  · rw [Entry.isExpired, hexpiry]
    exact hlive
  · rw [hvalue']
    exact haccepts

theorem lifetime_perform (table : Table V) (now : Nat) (command : Command V) :
    (table.perform now command).2.lifetime = table.lifetime := by
  cases command with
  | lookup key accepts => exact (table.keptFrom_lookup now key accepts).lifetime
  | store key value admission => exact table.lifetime_store now key value admission
  | removeWhere drops => rfl
  | sweep reading => rfl
  | clear => rfl

private theorem entries_perform_of_beyond {table : Table V} (hempty : table.entries = [])
    {now : Nat} (hbeyond : deadline? now table.lifetime = none) (command : Command V) :
    (table.perform now command).2.entries = [] := by
  have hfind (key : String) : table.find? key = none := by rw [find?, hempty]; rfl
  cases command with
  | lookup key accepts => simp [perform, lookup, hfind, miss, hempty]
  | store key value admission =>
    cases admission with
    | refuse => exact hempty
    | fail => exact hempty
    | agree =>
      have hroom : table.makeRoom key = table := by simp [makeRoom, evict, hempty, stalest]
      simp [perform, store, hroom, hbeyond, put, hempty]
  | removeWhere drops => simp [perform, removeWhere, hempty]
  | sweep reading => simp [perform, sweep, hempty]
  | clear => rfl

/-- A table whose lifetime is beyond the clock all the time stays empty. -/
theorem entries_run_of_beyond (table : Table V) (hempty : table.entries = [])
    {commands : List (Nat × Command V)}
    (hbeyond : ∀ command ∈ commands, deadline? command.1 table.lifetime = none) :
    (table.run commands).2.entries = [] := by
  induction commands generalizing table with
  | nil => exact hempty
  | cons first rest ih =>
    obtain ⟨now, command⟩ := first
    rw [List.forall_mem_cons] at hbeyond
    apply ih _ (entries_perform_of_beyond hempty hbeyond.1 command)
    rw [lifetime_perform]
    exact hbeyond.2

/-- Two tables of one lifetime go through the same commands at rising readings. After each part of
the run, the larger table holds what the smaller one holds, if only the last command of the part is
a store beyond the clock, or the lifetime is beyond the clock from the first command on. After a
part that goes on behind such a store, it holds all of it but for one key at most. -/
theorem heldBy_of_capacity_le {capacity capacity' : Nat}
    (hle : max 1 capacity ≤ max 1 capacity') (lifetime : Nat)
    {commands part : List (Nat × Command V)}
    (hrising : commands.Pairwise fun earlier later ↦ earlier.1 < later.1)
    (hpart : part <+: commands) :
    let small := (lasting lifetime capacity).run part
    let large := (lasting lifetime capacity').run part
    ((∀ reply ∈ small.1.dropLast, reply ≠ .stored .clockOverflow) ∨
        (∀ command ∈ part, deadline? command.1 lifetime = none) →
      HeldBy (fun _ ↦ True) small.2 large.2) ∧
    ∃ lost, HeldBy (· ≠ lost) small.2 large.2 := by
  intro small large
  have hrising := hrising.sublist hpart.sublist
  have hsmall := recency_run_lasting lifetime capacity hrising
  have hlarge := recency_run_lasting lifetime capacity' hrising
  obtain ⟨now, hsound⟩ := sound_run_lasting lifetime capacity hrising
  obtain ⟨now', hsound'⟩ := sound_run_lasting lifetime capacity' hrising
  constructor
  · intro hclock
    have hsublist : small.2.recency.items.Sublist large.2.recency.items := by
      rcases hclock with hclock | hbeyond
      · have hreplies : small.1 = ((RecencyList.lasting lifetime capacity).run part).1 :=
          congrArg Prod.fst hsmall
        rw [hreplies] at hclock
        have hsublist := (RecencyList.within_lasting lifetime hle).sublist_run
          (RecencyList.valid_lasting lifetime capacity') hclock
        rw [← hsmall, ← hlarge] at hsublist
        exact hsublist
      · have hempty := entries_run_of_beyond (lasting lifetime capacity) rfl hbeyond
        have hnone : small.2.recency.items = [] := by
          simp [small, recency, byRecency, hempty]
        rw [hnone]
        exact List.nil_sublist _
    exact (heldBy_of_covered hsound hsound' (.of_sublist hsublist)).imp
      fun key _ ↦ (Option.some_ne_none key).symm
  · obtain ⟨lost, hcovered⟩ := RecencyList.exists_covered_run (V := V) hle lifetime hrising
    rw [← hsmall, ← hlarge] at hcovered
    have hheld := heldBy_of_covered hsound hsound' hcovered
    cases lost with
    | none => exact ⟨"", hheld.imp fun key _ ↦ (Option.some_ne_none key).symm⟩
    | some lost => exact ⟨lost, hheld.imp fun key hne heq ↦ hne (Option.some.inj heq).symm⟩

end Table

/-! ### Two places beside three -/

namespace TwoBesideThree

/-- A hit that only the larger table has, and a store that costs both tables an entry. -/
def commands : List (Nat × Table.Command Nat) :=
  [(1, .store "a" 10 .agree), (2, .store "b" 20 .agree), (3, .store "c" 30 .agree),
    (4, .lookup "a" fun _ ↦ true), (5, .store "d" 40 .agree), (6, .removeWhere fun key _ ↦ key = "a"),
    (7, .store "e" 50 .agree)]

/-- Before the removal, the larger table finds what the smaller one finds. -/
theorem lookup_commands :
    max 1 2 ≤ max 1 3 ∧ (commands.Pairwise fun earlier later ↦ earlier.1 < later.1) ∧
      commands.take 5 <+: commands ∧
      (((Table.lasting second 2).run (commands.take 5)).2.lookup 6 "c" fun _ ↦ true).1 = some 30 ∧
      (((Table.lasting second 3).run (commands.take 5)).2.lookup 6 "c" fun _ ↦ true).1 =
        some 30 := by
  have hle : max 1 2 ≤ max 1 3 := by decide
  have hrising : commands.Pairwise fun earlier later ↦ earlier.1 < later.1 := by decide
  have hpart : commands.take 5 <+: commands := List.take_prefix 5 commands
  have hclock : ∀ reply ∈ ((Table.lasting second 2).run (commands.take 5)).1.dropLast,
      reply ≠ .stored .clockOverflow := by decide +kernel
  have hfound : (((Table.lasting second 2).run (commands.take 5)).2.lookup 6 "c" fun _ ↦ true).1 =
      some 30 := by decide +kernel
  have hheld := (Table.heldBy_of_capacity_le hle second hrising hpart).1 (.inl hclock)
  exact ⟨hle, hrising, hpart, hfound, hheld.lookups 6 "c" _ 30 trivial hfound⟩

/-- The last two stores are beyond the clock. The first of them costs the smaller table an entry, so
that it has room at the second, where the larger table has none. -/
def beyondClock : List (Nat × Table.Command Nat) :=
  [(1, .store "a" 10 .agree), (2, .store "b" 20 .agree), (3, .store "c" 30 .agree),
    (4, .lookup "a" fun _ ↦ true), (second, .store "a" 11 .agree),
    (second + 1, .lookup "b" fun _ ↦ true), (second + 2, .store "d" 40 .agree)]

/-- Without a word on the clock, the larger table may have lost what the smaller one holds: after
two stores beyond the clock, `"c"` is found in the smaller table only. -/
theorem not_forall_heldBy :
    ¬∀ (capacity capacity' lifetime : Nat) (commands part : List (Nat × Table.Command Nat)),
      max 1 capacity ≤ max 1 capacity' →
      (commands.Pairwise fun earlier later ↦ earlier.1 < later.1) → part <+: commands →
      Table.HeldBy (fun _ ↦ True) ((Table.lasting lifetime capacity).run part).2
        ((Table.lasting lifetime capacity').run part).2 := by
  intro hall
  have hrising : beyondClock.Pairwise fun earlier later ↦ earlier.1 < later.1 := by decide +kernel
  have hheld := hall 2 3 (second * lastSecond) beyondClock beyondClock (by decide) hrising
    (List.prefix_refl _)
  have hkept : (((Table.lasting (second * lastSecond) 2).run beyondClock).2.lookup (second + 3) "c"
      fun _ ↦ true).1 = some 30 := by decide +kernel
  have hlost : (((Table.lasting (second * lastSecond) 3).run beyondClock).2.lookup (second + 3) "c"
      fun _ ↦ true).1 = none := by decide +kernel
  have hfound := hheld.lookups (second + 3) "c" _ 30 trivial hkept
  rw [hlost] at hfound
  cases hfound

end TwoBesideThree

end TemplateInheritance
