import Mathlib.Data.List.Pairwise
import TemplateInheritance.Cache.Recency
import TemplateInheritance.Proofs.Tables

/-!
# Tables as recency lists

No two entries of a table share a key, and no two were last touched at the same reading. So the
entries have one order by falling freshness. Whatever a command does to the table, it does to the
list of the entries in this order: a hit moves its entry to the front, a store puts the new entry
there, a removal leaves the order of the rest alone, and the entry touched longest ago is the last.
-/

namespace TemplateInheritance

variable {V : Type}

/-! ### Entries in the order of their touches -/

/-- The entry without the time of its last touch. -/
def Entry.item (entry : Entry V) : RecencyItem V :=
  ⟨entry.key, entry.value, entry.expiresAt, entry.touches⟩

/-- Two entries differ in their keys and in the readings at which they were last touched. -/
def Entry.Apart (a b : Entry V) : Prop := a.key ≠ b.key ∧ a.lastTouch ≠ b.lastTouch

instance : Std.Symm (Entry.Apart (V := V)) := ⟨fun _ _ hab ↦ ⟨hab.1.symm, hab.2.symm⟩⟩

/-- The entry was touched later than the other. -/
def Entry.Fresher (a b : Entry V) : Prop := b.lastTouch < a.lastTouch

namespace Entry

variable {entries sorted : List (Entry V)}

/-- The entries with the freshest first. -/
def byTouch (entries : List (Entry V)) : List (Entry V) :=
  entries.mergeSort fun a b ↦ decide (b.lastTouch ≤ a.lastTouch)

theorem byTouch_perm (entries : List (Entry V)) : (byTouch entries).Perm entries :=
  List.mergeSort_perm entries _

theorem apart_of_perm (hperm : sorted.Perm entries) (hapart : entries.Pairwise Apart) :
    sorted.Pairwise Apart :=
  (List.Perm.pairwise_iff (fun hab ↦ symm hab) hperm).mpr hapart

theorem fresher_byTouch (hapart : entries.Pairwise Apart) :
    (byTouch entries).Pairwise Fresher := by
  have hle : (byTouch entries).Pairwise fun a b ↦ decide (b.lastTouch ≤ a.lastTouch) = true := by
    apply List.pairwise_mergeSort
    · intro a b c hab hbc
      have := of_decide_eq_true hab
      have := of_decide_eq_true hbc
      exact decide_eq_true (by omega)
    · intro a b
      by_cases h : b.lastTouch ≤ a.lastTouch
      · simp [h]
      · simp [show a.lastTouch ≤ b.lastTouch by omega]
  apply hle.imp₂ _ (apart_of_perm (byTouch_perm entries) hapart)
  intro a b hab hne
  have := of_decide_eq_true hab
  have := hne.2
  show b.lastTouch < a.lastTouch
  omega

/-- There is one order by falling freshness. -/
theorem byTouch_eq (hapart : entries.Pairwise Apart) (hperm : sorted.Perm entries)
    (hfresher : sorted.Pairwise Fresher) : byTouch entries = sorted := by
  apply List.Perm.eq_of_pairwise _ (fresher_byTouch hapart) hfresher
  · exact (byTouch_perm entries).trans hperm.symm
  · intro a b _ _ hab hba
    exact absurd hab (Nat.lt_asymm hba)

/-- What is left of the entries stays in its order. -/
theorem byTouch_filter (hapart : entries.Pairwise Apart) (keeps : Entry V → Bool) :
    byTouch (entries.filter keeps) = (byTouch entries).filter keeps := by
  apply byTouch_eq (hapart.filter keeps)
  · exact (byTouch_perm entries).filter keeps
  · exact (fresher_byTouch hapart).filter keeps

/-- An entry touched after all others comes first. -/
theorem byTouch_cons {entry : Entry V} (hapart : (entry :: entries).Pairwise Apart)
    (hlatest : ∀ other ∈ entries, other.lastTouch < entry.lastTouch) :
    byTouch (entry :: entries) = entry :: byTouch entries := by
  apply byTouch_eq hapart
  · exact (byTouch_perm entries).cons entry
  · refine List.pairwise_cons.mpr ⟨fun other hmem ↦ ?_, fresher_byTouch hapart.of_cons⟩
    exact hlatest other ((byTouch_perm entries).mem_iff.mp hmem)

/-- The order of the entries does not depend on where they stand. -/
theorem byTouch_of_perm (hapart : entries.Pairwise Apart) (hperm : sorted.Perm entries) :
    byTouch sorted = byTouch entries := by
  apply byTouch_eq (apart_of_perm hperm hapart)
  · exact (byTouch_perm entries).trans hperm.symm
  · exact fresher_byTouch hapart

theorem find?_eq_some_iff (hapart : entries.Pairwise Apart) (key : String) (entry : Entry V) :
    entries.find? (·.key = key) = some entry ↔ entry ∈ entries ∧ entry.key = key :=
  find?_key_eq_some_iff (hapart.imp And.left) key entry

theorem find?_byTouch (hapart : entries.Pairwise Apart) (key : String) :
    (byTouch entries).find? (·.key = key) = entries.find? (·.key = key) := by
  have hperm := byTouch_perm entries
  apply Option.ext
  intro entry
  rw [find?_eq_some_iff (apart_of_perm hperm hapart), find?_eq_some_iff hapart, hperm.mem_iff]

/-- Without an entry, the entries are those under other keys. -/
theorem perm_cons_filter (hapart : entries.Pairwise Apart) {entry : Entry V}
    (hmem : entry ∈ entries) :
    entries.Perm (entry :: entries.filter (·.key != entry.key)) := by
  induction entries with
  | nil => cases hmem
  | cons first rest ih =>
    rw [List.pairwise_cons] at hapart
    rcases List.mem_cons.mp hmem with rfl | hrest
    · have hall : ∀ other ∈ rest, (other.key != entry.key) = true := by
        intro other hother
        simpa using (hapart.1 other hother).1.symm
      rw [List.filter_cons_of_neg (by simp), List.filter_eq_self.mpr hall]
    · have hne : first.key ≠ entry.key := (hapart.1 entry hrest).1
      rw [List.filter_cons_of_pos (by simpa using hne)]
      exact ((ih hapart.2 hrest).cons first).trans (List.Perm.swap entry first _)

end Entry

/-! ### The stalest entry -/

namespace Table

variable {entries : List (Entry V)}

theorem stalest_eq_none_iff : stalest entries = none ↔ entries = [] := by
  cases entries with
  | nil => simp [stalest]
  | cons entry rest =>
    rw [stalest]
    cases stalest rest with
    | none => simp
    | some other =>
      simp only [reduceCtorEq, iff_false]
      split <;> simp

theorem mem_of_stalest {entry : Entry V} (hstalest : stalest entries = some entry) :
    entry ∈ entries ∧ ∀ other ∈ entries, entry.lastTouch ≤ other.lastTouch := by
  induction entries generalizing entry with
  | nil => cases hstalest
  | cons first rest ih =>
    rw [stalest] at hstalest
    cases hrest : stalest rest with
    | none =>
      rw [hrest] at hstalest
      obtain rfl := Option.some.inj hstalest
      rw [stalest_eq_none_iff] at hrest
      subst hrest
      simp
    | some other =>
      obtain ⟨hmem, hleast⟩ := ih hrest
      simp only [hrest] at hstalest
      by_cases hfirst : first.lastTouch ≤ other.lastTouch
      · rw [if_pos hfirst] at hstalest
        obtain rfl := Option.some.inj hstalest
        refine ⟨List.mem_cons_self, fun third hthird ↦ ?_⟩
        rcases List.mem_cons.mp hthird with rfl | hthird
        · exact Nat.le_refl _
        · exact Nat.le_trans hfirst (hleast third hthird)
      · rw [if_neg hfirst] at hstalest
        obtain rfl := Option.some.inj hstalest
        refine ⟨.tail _ hmem, fun third hthird ↦ ?_⟩
        rcases List.mem_cons.mp hthird with rfl | hthird
        · omega
        · exact hleast third hthird

/-- The entry touched longest ago is the last in the order. -/
theorem stalest_eq_getLast? (hapart : entries.Pairwise Entry.Apart) :
    stalest entries = (Entry.byTouch entries).getLast? := by
  have hperm := Entry.byTouch_perm entries
  cases hlast : (Entry.byTouch entries).getLast? with
  | none =>
    rw [List.getLast?_eq_none_iff] at hlast
    rw [hlast, List.nil_perm] at hperm
    exact stalest_eq_none_iff.mpr hperm
  | some last =>
    obtain ⟨front, hfront⟩ := List.getLast?_eq_some_iff.mp hlast
    have hne : entries ≠ [] := by
      rintro rfl
      rw [hfront, List.perm_nil] at hperm
      simp at hperm
    obtain ⟨entry, hstalest⟩ := Option.ne_none_iff_exists'.mp (mt stalest_eq_none_iff.mp hne)
    obtain ⟨hmem, hleast⟩ := mem_of_stalest hstalest
    have hfresher := Entry.fresher_byTouch hapart
    rw [hfront] at hfresher hperm
    have hfront' : entry ∉ front := by
      intro hin
      have hlater : last.lastTouch < entry.lastTouch :=
        (List.pairwise_append.mp hfresher).2.2 entry hin last List.mem_cons_self
      have := hleast last (hperm.mem_iff.mp (by simp))
      omega
    have hin : entry ∈ front ++ [last] := hperm.mem_iff.mpr hmem
    have heq : entry = last := by simpa [hfront'] using hin
    rw [hstalest, heq]

/-- Without the stalest entry, the order lacks its last. -/
theorem byTouch_evict (table : Table V) (hapart : table.entries.Pairwise Entry.Apart) :
    Entry.byTouch table.evict.entries = (Entry.byTouch table.entries).dropLast := by
  have hapart' := Entry.apart_of_perm (Entry.byTouch_perm table.entries) hapart
  unfold evict
  rw [stalest_eq_getLast? hapart]
  cases hlast : (Entry.byTouch table.entries).getLast? with
  | none =>
    rw [List.getLast?_eq_none_iff] at hlast
    simp [hlast]
  | some last =>
    obtain ⟨front, hfront⟩ := List.getLast?_eq_some_iff.mp hlast
    rw [hfront] at hapart'
    have hkeys : ∀ entry ∈ front, (entry.key != last.key) = true := by
      intro entry hmem
      simpa using ((List.pairwise_append.mp hapart').2.2 entry hmem last List.mem_cons_self).1
    simp only [without]
    rw [Entry.byTouch_filter hapart, hfront, List.filter_append, List.filter_eq_self.mpr hkeys]
    simp

end Table

/-! ### Tables seen as lists -/

namespace Table

/-- At the reading `now`, the entries differ in their keys and in the readings of their touches,
which are all over. -/
structure Sound (table : Table V) (now : Nat) : Prop where
  apart : table.entries.Pairwise Entry.Apart
  past : ∀ entry ∈ table.entries, entry.lastTouch < now

variable {table : Table V} {now : Nat}

theorem sound_lasting (lifetime capacity now : Nat) : (lasting lifetime capacity : Table V).Sound now :=
  ⟨.nil, nofun⟩

theorem Sound.mono (hsound : table.Sound now) {later : Nat} (hle : now ≤ later) :
    table.Sound later :=
  ⟨hsound.apart, fun entry hmem ↦ Nat.lt_of_lt_of_le (hsound.past entry hmem) hle⟩

theorem Sound.of_sublist (hsound : table.Sound now) {after : Table V}
    (hsublist : after.entries.Sublist table.entries) : after.Sound now :=
  ⟨hsound.apart.sublist hsublist, fun entry hmem ↦ hsound.past entry (hsublist.subset hmem)⟩

theorem byRecency_eq_map (table : Table V) :
    table.byRecency = (Entry.byTouch table.entries).map Entry.item := rfl

theorem find?_recency (hsound : table.Sound now) (key : String) :
    table.recency.find? key = (table.find? key).map Entry.item := by
  rw [RecencyList.find?, recency, byRecency_eq_map, List.find?_map]
  exact congrArg _ (Entry.find?_byTouch hsound.apart key)

/-- What is left of a table is left of its list. -/
theorem byRecency_filter (hsound : table.Sound now) (keeps : Entry V → Bool)
    (keepsItem : RecencyItem V → Bool) (hkeeps : ∀ entry, keepsItem entry.item = keeps entry) :
    (Entry.byTouch (table.entries.filter keeps)).map Entry.item =
      table.byRecency.filter keepsItem := by
  rw [byRecency_eq_map, List.filter_map, Entry.byTouch_filter hsound.apart]
  congr 2
  funext entry
  exact (hkeeps entry).symm

theorem byRecency_without (hsound : table.Sound now) (key : String) :
    (Entry.byTouch (table.without key)).map Entry.item = table.recency.others key :=
  byRecency_filter hsound (·.key != key) (·.key != key) fun _ ↦ rfl

theorem length_byRecency (table : Table V) : table.byRecency.length = table.entries.length := by
  rw [byRecency_eq_map, List.length_map]
  exact (Entry.byTouch_perm table.entries).length_eq

/-! ### Commands -/

section Renewal

variable {entry : Entry V} {entries : List (Entry V)}

private theorem apart_renewed (hsound : table.Sound now) (htouch : entry.lastTouch = now) :
    (entry :: table.without entry.key).Pairwise Entry.Apart := by
  refine List.pairwise_cons.mpr ⟨fun other hmem ↦ ?_, hsound.apart.filter _⟩
  obtain ⟨hother, hkey⟩ := List.mem_filter.mp hmem
  have := hsound.past other hother
  exact ⟨fun heq ↦ by simp [heq] at hkey, by omega⟩

/-- An entry that takes the place of that under its key comes first. -/
theorem byTouch_renewed (hsound : table.Sound now) (htouch : entry.lastTouch = now)
    (hperm : entries.Perm (entry :: table.without entry.key)) :
    Entry.byTouch entries = entry :: Entry.byTouch (table.without entry.key) := by
  have hapart := apart_renewed hsound htouch
  rw [Entry.byTouch_of_perm hapart hperm]
  apply Entry.byTouch_cons hapart
  intro other hmem
  rw [htouch]
  exact hsound.past other (List.mem_filter.mp hmem).1

theorem Sound.renewed (hsound : table.Sound now) {after : Table V} (htouch : entry.lastTouch = now)
    (hperm : after.entries.Perm (entry :: table.without entry.key)) : after.Sound (now + 1) := by
  refine ⟨Entry.apart_of_perm hperm (apart_renewed hsound htouch), fun other hmem ↦ ?_⟩
  rcases List.mem_cons.mp (hperm.mem_iff.mp hmem) with rfl | hmem
  · omega
  · have := hsound.past other (List.mem_filter.mp hmem).1
    omega

end Renewal

private theorem perm_hit (hsound : table.Sound now) {key : String} {entry : Entry V}
    (hfind : table.find? key = some entry) :
    (table.hit now key).entries.Perm
      ({ entry with lastTouch := now, touches := entry.touches + 1 } ::
        table.without entry.key) := by
  obtain ⟨hmem, rfl⟩ := (Entry.find?_eq_some_iff hsound.apart key entry).mp hfind
  have hperm := (Entry.perm_cons_filter hsound.apart hmem).map fun other ↦
    if other.key = entry.key then { other with lastTouch := now, touches := other.touches + 1 }
    else other
  have hothers : (table.without entry.key).map (fun other ↦
      if other.key = entry.key then { other with lastTouch := now, touches := other.touches + 1 }
      else other) = (table.without entry.key).map id := by
    apply List.map_congr_left
    intro other hother
    have hkey := (List.mem_filter.mp hother).2
    exact if_neg (by simpa using hkey)
  rw [List.map_cons, if_pos rfl] at hperm
  rw [List.map_id] at hothers
  rw [← hothers]
  exact hperm

/-- A lookup answers from the list and does to the list what it does to the table. -/
theorem recency_lookup (hsound : table.Sound now) (key : String) (accepts : V → Bool) :
    (table.lookup now key accepts).map id recency = table.recency.lookup now key accepts := by
  have hfind := find?_recency hsound key
  unfold lookup RecencyList.lookup
  rw [hfind]
  cases hentry : table.find? key with
  | none => rfl
  | some entry =>
    obtain ⟨-, rfl⟩ := (Entry.find?_eq_some_iff hsound.apart key entry).mp hentry
    simp only [Option.map_some, Entry.isExpired, decide_eq_true_eq]
    rw [← byRecency_without hsound entry.key]
    by_cases hexpired : entry.expiresAt < now
    · have hexpired' : entry.item.expiresAt < now := hexpired
      rw [if_pos hexpired, if_pos hexpired']
      rfl
    have hexpired' : ¬entry.item.expiresAt < now := hexpired
    rw [if_neg hexpired, if_neg hexpired']
    by_cases haccepted : accepts entry.value = true
    · have haccepted' : accepts entry.item.value = true := haccepted
      have hhit := byTouch_renewed hsound rfl (perm_hit hsound hentry)
      rw [if_pos haccepted, if_pos haccepted', Prod.map_apply, recency, byRecency_eq_map, hhit]
      rfl
    · have haccepted' : ¬accepts entry.item.value = true := haccepted
      rw [if_neg haccepted, if_neg haccepted']
      rfl

theorem Sound.lookup (hsound : table.Sound now) (key : String) (accepts : V → Bool) :
    (table.lookup now key accepts).2.Sound (now + 1) := by
  have hlater := hsound.mono (Nat.le_add_right now 1)
  unfold Table.lookup
  split
  · exact hlater.of_sublist (List.Sublist.refl _)
  · next entry hentry =>
    split
    · exact hlater.of_sublist List.filter_sublist
    · split
      · exact hsound.renewed rfl (perm_hit hsound hentry)
      · exact hlater.of_sublist (List.Sublist.refl _)

private theorem recency_evict (hsound : table.Sound now) :
    table.evict.recency = { table.recency with items := table.byRecency.dropLast } := by
  have hitems : table.evict.byRecency = table.byRecency.dropLast := by
    rw [byRecency_eq_map, byTouch_evict table hsound.apart, byRecency_eq_map, List.map_dropLast]
  rw [recency, hitems]
  unfold evict
  split <;> rfl

/-- Room is made at the end of the list. -/
theorem recency_makeRoom (hsound : table.Sound now) (key : String) :
    (table.makeRoom key).recency = { table.recency with items := table.recency.spared key } := by
  have hlength : table.recency.items.length = table.entries.length := table.length_byRecency
  unfold makeRoom RecencyList.spared
  rw [find?_recency hsound, hlength]
  cases table.find? key with
  | some entry => rfl
  | none =>
    by_cases hfull : table.capacity ≤ table.entries.length
    · have hfull' : ¬table.entries.length < table.recency.capacity := Nat.not_lt.mpr hfull
      simp only [Option.map_none, Option.isNone_none, hfull, hfull', decide_true, decide_false,
        Option.isSome_none, Bool.and_self, Bool.or_self, if_true, Bool.false_eq_true, if_false]
      exact recency_evict hsound
    · have hfull' : table.entries.length < table.recency.capacity := Nat.not_le.mp hfull
      simp [hfull, hfull']

theorem Sound.makeRoom (hsound : table.Sound now) (key : String) :
    (table.makeRoom key).Sound now := by
  unfold Table.makeRoom evict
  split
  · split
    · exact hsound
    · exact hsound.of_sublist List.filter_sublist
  · exact hsound

/-- A store answers as the list does and does to the list what it does to the table. -/
theorem recency_store (hsound : table.Sound now) (key : String) (value : V)
    (admission : Admission) :
    (table.store now key value admission).map id recency =
      table.recency.store now key value admission := by
  cases admission with
  | refuse => rfl
  | fail => rfl
  | agree =>
    have hroom := hsound.makeRoom key
    have hlifetime : table.recency.lifetime = table.lifetime := rfl
    simp only [store, RecencyList.store]
    rw [hlifetime]
    cases deadline? now table.lifetime with
    | none => exact congrArg _ (recency_makeRoom hsound key)
    | some expiresAt =>
      have hfront := byTouch_renewed hroom rfl
        (List.perm_append_singleton (⟨key, value, expiresAt, now, 1⟩ : Entry V) _)
      have hput : ((table.makeRoom key).put now key value (some expiresAt)).2.recency =
          { (table.makeRoom key).recency with
            items := ⟨key, value, expiresAt, 1⟩ :: (table.makeRoom key).recency.others key } := by
        rw [recency, put, byRecency_eq_map, hfront, ← byRecency_without hroom]
        rfl
      rw [recency_makeRoom hsound] at hput
      exact congrArg _ hput

theorem Sound.store (hsound : table.Sound now) (key : String) (value : V)
    (admission : Admission) :
    (table.store now key value admission).2.Sound (now + 1) := by
  have hlater := hsound.mono (Nat.le_add_right now 1)
  cases admission with
  | refuse => exact hlater
  | fail => exact hlater
  | agree =>
    rw [Table.store]
    cases deadline? now table.lifetime with
    | none => exact hlater.makeRoom key
    | some expiresAt =>
      exact (hsound.makeRoom key).renewed rfl
        (List.perm_append_singleton (⟨key, value, expiresAt, now, 1⟩ : Entry V) _)

private theorem length_sub_filter (entries : List (Entry V)) (drops : Entry V → Bool) :
    entries.length - (entries.filter fun entry ↦ !drops entry).length = entries.countP drops := by
  have hsplit := List.length_eq_countP_add_countP drops (l := entries)
  rw [← List.countP_eq_length_filter]
  simp only [Bool.not_eq_true, Bool.decide_eq_false] at hsplit
  omega

/-- Entries that are dropped are dropped from the list, and counted there. -/
private theorem recency_drop (hsound : table.Sound now) (drops : Entry V → Bool)
    (dropsItem : RecencyItem V → Bool) (hdrops : ∀ entry, dropsItem entry.item = drops entry) :
    let kept := table.entries.filter fun entry ↦ !drops entry
    (table.entries.length - kept.length, recency { table with entries := kept }) =
      (table.recency.items.countP dropsItem,
        { table.recency with items := table.recency.items.filter fun item ↦ !dropsItem item }) := by
  have hcount : table.recency.items.countP dropsItem = table.entries.countP drops := by
    have hitem : dropsItem ∘ Entry.item = drops := funext hdrops
    rw [recency, byRecency_eq_map, List.countP_map, hitem]
    exact (Entry.byTouch_perm table.entries).countP_eq _
  have hitems := byRecency_filter hsound (fun entry ↦ !drops entry) (fun item ↦ !dropsItem item)
    fun entry ↦ congrArg (!·) (hdrops entry)
  simp only
  rw [length_sub_filter, hcount, recency, byRecency_eq_map, hitems]
  rfl

/-- Entries that are removed are removed from the list, and counted there. -/
theorem recency_removeWhere (hsound : table.Sound now) (drops : String → V → Bool) :
    (table.removeWhere drops).map id recency = table.recency.removeWhere drops :=
  recency_drop hsound (fun entry ↦ drops entry.key entry.value)
    (fun item ↦ drops item.key item.value) fun _ ↦ rfl

theorem recency_sweep (hsound : table.Sound now) (reading : Nat) :
    (table.sweep reading).map id recency = table.recency.sweep reading := by
  have hkeeps (item : RecencyItem V) :
      (!decide (item.expiresAt < reading)) = decide (reading ≤ item.expiresAt) := by
    rw [← decide_not]
    exact decide_eq_decide.mpr Nat.not_lt
  have hdrop := recency_drop hsound (·.isExpired reading)
    (fun item ↦ decide (item.expiresAt < reading)) fun _ ↦ rfl
  simp only [hkeeps] at hdrop
  exact hdrop

/-- A command is answered as by the list, and does to the list what it does to the table. -/
theorem recency_perform (hsound : table.Sound now) (command : Command V) :
    (table.perform now command).map id recency = table.recency.perform now command := by
  cases command with
  | lookup key accepts =>
    rw [perform, RecencyList.perform, ← recency_lookup hsound]
    rfl
  | store key value admission =>
    rw [perform, RecencyList.perform, ← recency_store hsound]
    rfl
  | removeWhere drops =>
    rw [perform, RecencyList.perform, ← recency_removeWhere hsound]
    rfl
  | sweep reading =>
    rw [perform, RecencyList.perform, ← recency_sweep hsound]
    rfl
  | clear =>
    have hitems : table.clear.byRecency = [] := by simp [clear, byRecency]
    rw [perform, RecencyList.perform, Prod.map_apply, recency, hitems]
    rfl

theorem Sound.perform (hsound : table.Sound now) (command : Command V) :
    (table.perform now command).2.Sound (now + 1) := by
  have hlater := hsound.mono (Nat.le_add_right now 1)
  cases command with
  | lookup key accepts => exact hsound.lookup key accepts
  | store key value admission => exact hsound.store key value admission
  | removeWhere drops => exact hlater.of_sublist List.filter_sublist
  | sweep reading => exact hlater.of_sublist List.filter_sublist
  | clear => exact hlater.of_sublist (List.nil_sublist _)

/-- Commands at rising readings are answered as by the list, and leave the table as they leave the
list. -/
theorem recency_run (hsound : table.Sound now) {commands : List (Nat × Command V)}
    (hrising : commands.Pairwise fun earlier later ↦ earlier.1 < later.1)
    (hnow : ∀ command ∈ commands, now ≤ command.1) :
    (table.run commands).map id recency = table.recency.run commands := by
  induction commands generalizing table now with
  | nil => rfl
  | cons first rest ih =>
    obtain ⟨reading, command⟩ := first
    rw [List.pairwise_cons] at hrising
    have hsound : table.Sound reading := hsound.mono (hnow (reading, command) List.mem_cons_self)
    have hfirst := recency_perform hsound command
    have hrest := ih (hsound.perform command) hrising.2 hrising.1
    have hreplies := congrArg Prod.fst hrest
    have hlast := congrArg Prod.snd hrest
    rw [run, RecencyList.run, ← hfirst]
    exact Prod.ext (congrArg (_ :: ·) hreplies) hlast

theorem Sound.run (hsound : table.Sound now) {commands : List (Nat × Command V)}
    (hrising : commands.Pairwise fun earlier later ↦ earlier.1 < later.1)
    (hnow : ∀ command ∈ commands, now ≤ command.1) : ∃ later, (table.run commands).2.Sound later := by
  induction commands generalizing table now with
  | nil => exact ⟨now, hsound⟩
  | cons first rest ih =>
    obtain ⟨reading, command⟩ := first
    rw [List.pairwise_cons] at hrising
    have hsound : table.Sound reading := hsound.mono (hnow (reading, command) List.mem_cons_self)
    exact ih (hsound.perform command) hrising.2 hrising.1

end Table

/-! ### Recency lists -/

namespace RecencyList

/-- No two items share a key, and the list has room for them and for one item at least. -/
structure Valid (list : RecencyList V) : Prop where
  distinct : list.items.Pairwise fun a b ↦ a.key ≠ b.key
  bounded : list.items.length ≤ list.capacity
  positive : 0 < list.capacity

variable {list : RecencyList V} {key : String}

theorem valid_lasting (lifetime capacity : Nat) : (lasting lifetime capacity : RecencyList V).Valid :=
  ⟨.nil, Nat.zero_le _, Nat.lt_of_lt_of_le Nat.zero_lt_one (Nat.le_max_left 1 capacity)⟩

theorem others_of_find?_eq_none (hnone : list.find? key = none) : list.others key = list.items := by
  rw [find?, List.find?_eq_none] at hnone
  rw [others, List.filter_eq_self]
  intro item hmem
  simpa using hnone item hmem

theorem length_others_lt {item : RecencyItem V} (hfind : list.find? key = some item) :
    (list.others key).length < list.items.length := by
  rw [others, List.length_filter_lt_length_iff_exists]
  refine ⟨item, List.mem_of_find?_eq_some hfind, ?_⟩
  simpa using List.find?_some hfind

theorem key_of_find? {item : RecencyItem V} (hfind : list.find? key = some item) :
    item.key = key := by
  simpa using List.find?_some hfind

theorem Valid.of_sublist (hvalid : list.Valid) {after : RecencyList V}
    (hcapacity : after.capacity = list.capacity) (hsublist : after.items.Sublist list.items) :
    after.Valid := by
  refine ⟨hvalid.distinct.sublist hsublist, ?_, ?_⟩
  · rw [hcapacity]
    exact Nat.le_trans hsublist.length_le hvalid.bounded
  · rw [hcapacity]
    exact hvalid.positive

/-- An item may come before those of other keys if there is room. -/
theorem Valid.of_cons (hvalid : list.Valid) {after : RecencyList V} (item : RecencyItem V)
    (hcapacity : after.capacity = list.capacity)
    (hitems : after.items = item :: list.others item.key)
    (hroom : (list.others item.key).length < list.capacity) : after.Valid := by
  refine ⟨?_, ?_, ?_⟩
  · rw [hitems, List.pairwise_cons]
    refine ⟨fun other hmem ↦ ?_, hvalid.distinct.filter _⟩
    have hkey : other.key ≠ item.key := by simpa using (List.mem_filter.mp hmem).2
    exact hkey.symm
  · rw [hitems, hcapacity]
    exact hroom
  · rw [hcapacity]
    exact hvalid.positive

theorem Valid.lookup (hvalid : list.Valid) (now : Nat) (key : String) (accepts : V → Bool) :
    (list.lookup now key accepts).2.Valid := by
  unfold RecencyList.lookup
  cases hfind : list.find? key with
  | none => exact hvalid.of_sublist rfl (List.Sublist.refl _)
  | some item =>
    have hroom := Nat.lt_of_lt_of_le (length_others_lt hfind) hvalid.bounded
    obtain rfl := key_of_find? hfind
    dsimp only
    split
    · exact hvalid.of_sublist rfl List.filter_sublist
    · split
      · exact hvalid.of_cons { item with touches := item.touches + 1 } rfl rfl hroom
      · exact hvalid.of_sublist rfl (List.Sublist.refl _)

theorem spared_sublist (list : RecencyList V) (key : String) :
    (list.spared key).Sublist list.items := by
  unfold spared
  split
  · exact List.Sublist.refl _
  · exact List.dropLast_sublist _

/-- After room is made, there is room beside the items of other keys. -/
theorem length_others_spared_lt (hvalid : list.Valid) (key : String) :
    ({ list with items := list.spared key }.others key).length < list.capacity := by
  have hle : ({ list with items := list.spared key }.others key).length ≤ (list.spared key).length :=
    List.length_filter_le _ _
  have hbounded := hvalid.bounded
  have hpositive := hvalid.positive
  cases hfind : list.find? key with
  | some item =>
    have hspared : list.spared key = list.items := by simp [spared, hfind]
    rw [hspared]
    exact Nat.lt_of_lt_of_le (length_others_lt hfind) hbounded
  | none =>
    by_cases hfull : list.items.length < list.capacity
    · have := (list.spared_sublist key).length_le
      omega
    · have hspared : list.spared key = list.items.dropLast := by simp [spared, hfind, hfull]
      rw [hspared] at hle ⊢
      rw [List.length_dropLast] at hle
      omega

theorem Valid.store (hvalid : list.Valid) (now : Nat) (key : String) (value : V)
    (admission : Admission) : (list.store now key value admission).2.Valid := by
  cases admission with
  | refuse => exact hvalid
  | fail => exact hvalid
  | agree =>
    have hroom := length_others_spared_lt hvalid key
    have hspared : Valid { list with items := list.spared key } :=
      hvalid.of_sublist rfl (list.spared_sublist key)
    simp only [RecencyList.store]
    cases deadline? now list.lifetime with
    | none => exact hspared
    | some expiresAt =>
      exact hspared.of_cons ⟨key, value, expiresAt, 1⟩ rfl rfl hroom

/-- Every command leaves the keys distinct and the items within the capacity. -/
theorem Valid.perform (hvalid : list.Valid) (now : Nat) (command : Table.Command V) :
    (list.perform now command).2.Valid := by
  cases command with
  | lookup key accepts => exact hvalid.lookup now key accepts
  | store key value admission => exact hvalid.store now key value admission
  | removeWhere drops => exact hvalid.of_sublist rfl List.filter_sublist
  | sweep reading => exact hvalid.of_sublist rfl List.filter_sublist
  | clear => exact hvalid.of_sublist rfl (List.nil_sublist _)

theorem Valid.run (hvalid : list.Valid) (commands : List (Nat × Table.Command V)) :
    (list.run commands).2.Valid := by
  induction commands generalizing list with
  | nil => exact hvalid
  | cons first rest ih => exact ih (hvalid.perform first.1 first.2)

/-- The capacity and the lifetime stay as they are. -/
theorem limits_perform (list : RecencyList V) (now : Nat) (command : Table.Command V) :
    (list.perform now command).2.capacity = list.capacity ∧
      (list.perform now command).2.lifetime = list.lifetime := by
  cases command with
  | lookup key accepts =>
    simp only [perform, RecencyList.lookup, Prod.map_snd, id_eq]
    cases list.find? key with
    | none => exact ⟨rfl, rfl⟩
    | some item =>
      dsimp only
      split
      · exact ⟨rfl, rfl⟩
      · split <;> exact ⟨rfl, rfl⟩
  | store key value admission =>
    cases admission with
    | refuse => exact ⟨rfl, rfl⟩
    | fail => exact ⟨rfl, rfl⟩
    | agree =>
      simp only [perform, RecencyList.store, Prod.map_snd, id_eq]
      cases deadline? now list.lifetime <;> exact ⟨rfl, rfl⟩
  | removeWhere drops => exact ⟨rfl, rfl⟩
  | sweep reading => exact ⟨rfl, rfl⟩
  | clear => exact ⟨rfl, rfl⟩

theorem limits_run (list : RecencyList V) (commands : List (Nat × Table.Command V)) :
    (list.run commands).2.capacity = list.capacity ∧
      (list.run commands).2.lifetime = list.lifetime := by
  induction commands generalizing list with
  | nil => exact ⟨rfl, rfl⟩
  | cons first rest ih =>
    obtain ⟨hcapacity, hlifetime⟩ := list.limits_perform first.1 first.2
    obtain ⟨hcapacity', hlifetime'⟩ := ih (list.perform first.1 first.2).2
    exact ⟨hcapacity'.trans hcapacity, hlifetime'.trans hlifetime⟩

end RecencyList

namespace Table

section New

variable (lifetime capacity : Nat) {commands : List (Nat × Command V)}
  (hrising : commands.Pairwise fun earlier later ↦ earlier.1 < later.1)

include hrising

/-- A run from an empty table is the run from an empty list. -/
theorem recency_run_lasting :
    ((lasting lifetime capacity).run commands).map id recency =
      (RecencyList.lasting lifetime capacity).run commands := by
  have hnew : (lasting lifetime capacity : Table V).recency = .lasting lifetime capacity := by
    simp [lasting, recency, byRecency, RecencyList.lasting]
  rw [← hnew]
  exact recency_run (sound_lasting lifetime capacity 0) hrising fun _ _ ↦ Nat.zero_le _

theorem sound_run_lasting : ∃ later, ((lasting lifetime capacity).run commands).2.Sound later :=
  (sound_lasting lifetime capacity 0).run hrising fun _ _ ↦ Nat.zero_le _

end New

/-- A table answers a run of commands at rising readings like a recency list, and ends with what the
list ends with: the same entries in the order of their last touch, the same counts of hits and
misses. No two of its entries share a key, and it never holds more than its capacity. -/
theorem run_eq_recency (lifetime capacity : Nat) (commands : List (Nat × Command V))
    (hrising : commands.Pairwise fun earlier later ↦ earlier.1 < later.1) :
    let table := (lasting lifetime capacity : Table V).run commands
    let list := (RecencyList.lasting lifetime capacity : RecencyList V).run commands
    table.1 = list.1 ∧ table.2.recency = list.2 ∧
      (list.2.items.map (·.key)).Nodup ∧ table.2.size ≤ max 1 capacity := by
  have hrun := recency_run_lasting lifetime capacity hrising
  have hlist := congrArg Prod.snd hrun
  have hvalid := (RecencyList.valid_lasting (V := V) lifetime capacity).run commands
  have hcapacity := ((RecencyList.lasting lifetime capacity : RecencyList V).limits_run commands).1
  refine ⟨congrArg Prod.fst hrun, hlist, ?_, ?_⟩
  · rw [List.Nodup, List.pairwise_map]
    exact hvalid.distinct
  · have hbounded := hvalid.bounded
    rw [hcapacity, ← hlist] at hbounded
    rw [size, ← length_byRecency]
    exact hbounded

end Table

/-! ### A table with two places -/

namespace TwoPlaces

/-- Twenty milliseconds. -/
def lifetime : Nat := 20000000

/-- The reading at which what was stored at the reading 4 has just expired. -/
def late : Nat := lifetime + 5

/-- A hit saves the older entry from eviction, a failed admission evicts nothing, and an entry that
has expired gives up its place when it is looked up. -/
def commands : List (Nat × Table.Command Nat) :=
  [(1, .store "a" 10 .agree), (2, .store "b" 20 .agree), (3, .lookup "a" fun _ ↦ true),
    (4, .store "c" 30 .agree), (5, .lookup "b" fun _ ↦ true), (6, .lookup "a" (· == 11)),
    (7, .store "d" 40 .fail), (8, .store "a" 12 .agree), (late, .lookup "c" fun _ ↦ true),
    (late + 1, .store "d" 50 .agree), (late + 2, .lookup "a" fun _ ↦ true)]

/-- The answers and the last state are those of the list. -/
theorem run_commands :
    (commands.Pairwise fun earlier later ↦ earlier.1 < later.1) ∧
      ((Table.lasting lifetime 2 : Table Nat).run commands).1 =
        [.stored .stored, .stored .stored, .found (some 10), .stored .stored, .found none,
          .found none, .stored .admissionFailed, .stored .stored, .found none, .stored .stored,
          .found (some 12)] ∧
      ((Table.lasting lifetime 2 : Table Nat).run commands).2.byRecency =
        [⟨"a", 12, lifetime + 8, 2⟩, ⟨"d", 50, lifetime + (late + 1), 1⟩] := by
  have hrising : commands.Pairwise fun earlier later ↦ earlier.1 < later.1 := by decide +kernel
  obtain ⟨hreplies, hlist, -, -⟩ := Table.run_eq_recency lifetime 2 commands hrising
  refine ⟨hrising, ?_, ?_⟩
  · rw [hreplies]
    decide +kernel
  · have hitems := congrArg RecencyList.items hlist
    refine hitems.trans ?_
    decide +kernel

end TwoPlaces

end TemplateInheritance
