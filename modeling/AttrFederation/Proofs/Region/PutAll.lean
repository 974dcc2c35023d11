import Mathlib.Data.List.Induction
import Mathlib.Data.List.Perm.Subperm
import AttrFederation.Proofs.Region.Budget

/-!
# Putting a batch

Many values are put into a region one after another.  If at each point the values put so far fit the
region all at once (`RegionSettings.Holds`), then none of them evicts another, whatever the region
had before: the oldest entry is one from before as long as there is one, and without those there is
room.

`Filled` says so of a region on the way: it has what was put, each key with its last value, and
beside that at most what it had at the start.  A turn of making room keeps it
(`Filled.evictOldest`), a put adds to it (`Filled.put`), and so do many (`filled_putAll`).  Where
all that is put for a key is the same value, it is enough that the values fit in the end
(`fits_of_holds`).
-/

namespace AttrFederation

/-! ## Totals over parts of a list -/

theorem total_map_perm {α : Type} {l l' : List α} (h : l.Perm l') (f : α → Nat) :
    total (l.map f) = total (l'.map f) := by
  induction h with
  | nil => rfl
  | cons a _ ih => simp only [List.map_cons, total_cons, ih]
  | swap a b l =>
      simp only [List.map_cons, total_cons]
      omega
  | trans _ _ ih ih' => exact ih.trans ih'

/-- Members of a list, each taken once, add up to no more than the list. -/
theorem total_map_le_of_subset {α : Type} {l l' : List α} (hnodup : l.Nodup) (h : l ⊆ l')
    (f : α → Nat) : total (l.map f) ≤ total (l'.map f) := by
  obtain ⟨m, hperm, hsublist⟩ := List.subperm_of_subset hnodup h
  rw [← total_map_perm hperm]
  exact total_map_le_of_sublist hsublist f

/-! ## Maps from lists -/

theorem eraseDups_concat {α : Type} [DecidableEq α] (l : List α) (a : α) :
    (l ++ [a]).eraseDups = if a ∈ l then l.eraseDups else l.eraseDups ++ [a] := by
  rw [List.eraseDups_append]
  by_cases h : a ∈ l <;> simp [List.removeAll, h, List.eraseDups_cons]

theorem nodup_eraseDups {α : Type} [DecidableEq α] (l : List α) : l.eraseDups.Nodup := by
  induction l using List.reverseRecOn with
  | nil => exact List.nodup_nil
  | append_singleton l a ih =>
      rw [eraseDups_concat]
      split
      · exact ih
      · next h =>
          rw [← List.concat_eq_append]
          exact ih.concat fun hmem => h (List.mem_eraseDups.mp hmem)

namespace Assoc

variable {α β : Type}

/-- Setting a key for each member of a list gives the keys in the order in which they first come. -/
theorem keys_foldl_set (key : α → String) (value : Assoc β → α → β) (xs : List α) :
    (xs.foldl (fun (m : Assoc β) x => m.set (key x) (value m x)) ∅).keys =
      (xs.map key).eraseDups := by
  induction xs using List.reverseRecOn with
  | nil => rfl
  | append_singleton xs x ih =>
      rw [List.foldl_append, List.map_append, List.map_singleton, eraseDups_concat, ← ih]
      refine (keys_setEntry (key x) _ _).trans (if_congr ?_ rfl rfl)
      exact (iff_of_eq (congrArg _ ih)).trans List.mem_eraseDups

theorem wellKeyed_foldl_set (key : α → String) (value : Assoc β → α → β) (xs : List α) :
    (xs.foldl (fun (m : Assoc β) x => m.set (key x) (value m x)) ∅).WellKeyed := by
  rw [WellKeyed, keys_foldl_set]
  exact nodup_eraseDups _

/-- The value of a key is the last one that the pairs have for it. -/
theorem get?_ofList (pairs : List (String × β)) (key : String) :
    (ofList pairs).get? key = (pairs.findRev? fun pair => pair.1 = key).map Prod.snd := by
  induction pairs using List.reverseRecOn with
  | nil => rfl
  | append_singleton pairs pair ih =>
      rw [ofList_concat, get?_set, findRev?_concat, ih]
      by_cases h : pair.1 = key
      · rw [if_pos h.symm, if_pos (decide_eq_true h)]
        rfl
      · rw [if_neg (Ne.symm h), if_neg (by simpa using h)]

theorem mem_of_get?_ofList {pairs : List (String × β)} {key : String} {value : β}
    (h : (ofList pairs).get? key = some value) : (key, value) ∈ pairs := by
  rw [get?_ofList, Option.map_eq_some_iff] at h
  obtain ⟨pair, hpair, rfl⟩ := h
  rw [List.findRev?_eq_find?_reverse] at hpair
  have hkey : pair.1 = key := by simpa using List.find?_some hpair
  rw [← hkey]
  exact List.mem_reverse.mp (List.mem_of_find?_eq_some hpair)

theorem wellKeyed_ofList (pairs : List (String × β)) : (ofList pairs).WellKeyed :=
  wellKeyed_foldl_set Prod.fst (fun _ pair => pair.2) pairs

theorem keys_ofList (pairs : List (String × β)) :
    (ofList pairs).keys = (pairs.map Prod.fst).eraseDups :=
  keys_foldl_set Prod.fst (fun _ pair => pair.2) pairs

/-- Each key of the pairs has a value. -/
theorem exists_get?_ofList {pairs : List (String × β)} {pair : String × β} (h : pair ∈ pairs) :
    ∃ value, (ofList pairs).get? pair.1 = some value := by
  rw [← mem_keys_iff, keys_ofList, List.mem_eraseDups]
  exact List.mem_map_of_mem h

end Assoc

/-! ## Batches -/

variable {V : Type} [Measured V]

/-- The bytes that entries for some values take. -/
def Region.bytesFor (values : Assoc V) : Nat :=
  total (values.entries.map fun entry => slotSize entry.1 entry.2)

/-- A region with the settings can hold some values all at once. -/
def RegionSettings.Holds (settings : RegionSettings) (values : Assoc V) : Prop :=
  values.size ≤ settings.maxObjects.toNat ∧ Region.bytesFor values ≤ settings.heapBytes

instance (settings : RegionSettings) (values : Assoc V) : Decidable (settings.Holds values) :=
  inferInstanceAs (Decidable (_ ∧ _))

/-- Of keys and values to be put in order, those put so far always fit all at once. -/
def RegionSettings.Fits (settings : RegionSettings) (pairs : List (String × V)) : Prop :=
  ∀ begun, begun <+: pairs → settings.Holds (.ofList begun)

namespace Region

/-- The value of a key, expired or not. -/
def value? (r : Region V) (key : String) : Option V :=
  (r.slots.get? key).map Slot.value

/-- The region after puts, each at an instant, the first one first. -/
def putAll (r : Region V) (timed : List (Nat × String × V)) : Region V :=
  timed.foldl (fun r put => r.put put.1 put.2.1 put.2.2) r

theorem putAll_concat (r : Region V) (now : Nat) (pairs : List (String × V)) (pair : String × V) :
    r.putAll ((pairs ++ [pair]).map (now, ·)) =
      (r.putAll (pairs.map (now, ·))).put now pair.1 pair.2 := by
  simp [putAll]

/-- The bytes can be added up key by key. -/
theorem bytesFor_eq {values : Assoc V} (h : values.WellKeyed) :
    bytesFor values =
      total (values.keys.map fun key => ((values.get? key).map (slotSize key)).getD 0) := by
  rw [bytesFor, Assoc.keys, List.map_map]
  congr 1
  refine List.map_congr_left fun entry hmem => ?_
  have hget := (Assoc.mem_entries_iff h).mp hmem
  simp [hget]

theorem bytesFor_set_of_absent {values : Assoc V} {key : String} (h : values.get? key = none)
    (value : V) : bytesFor (values.set key value) = bytesFor values + slotSize key value := by
  rw [bytesFor, Assoc.entries_set_of_absent h, List.map_append, total_append]
  rfl

/-- Fewer values fit as well. -/
theorem holds_of_subset {settings : RegionSettings} {values values' : Assoc V}
    (hkeyed : values.WellKeyed) (hkeyed' : values'.WellKeyed)
    (hsubset : ∀ key value, values.get? key = some value → values'.get? key = some value)
    (hholds : settings.Holds values') : settings.Holds values := by
  have hkeys : values.keys ⊆ values'.keys := fun key hkey => by
    obtain ⟨value, hvalue⟩ := Assoc.mem_keys_iff.mp hkey
    exact Assoc.mem_keys_iff.mpr ⟨value, hsubset key value hvalue⟩
  refine ⟨Nat.le_trans ?_ hholds.1, Nat.le_trans ?_ hholds.2⟩
  · rw [← Assoc.length_keys, ← Assoc.length_keys]
    exact (List.subperm_of_subset hkeyed hkeys).length_le
  · rw [bytesFor_eq hkeyed, bytesFor_eq hkeyed']
    refine Nat.le_trans (total_map_le fun key hkey => ?_) (total_map_le_of_subset hkeyed hkeys _)
    obtain ⟨value, hvalue⟩ := Assoc.mem_keys_iff.mp hkey
    rw [hvalue, hsubset key value hvalue]

/-- Values that fit all at once can be put in any order and repeatedly. -/
theorem fits_of_holds {settings : RegionSettings} {values : Assoc V} (hkeyed : values.WellKeyed)
    (hholds : settings.Holds values) {pairs : List (String × V)}
    (hpairs : ∀ pair ∈ pairs, values.get? pair.1 = some pair.2) : settings.Fits pairs := by
  intro begun hbegun
  refine holds_of_subset (Assoc.wellKeyed_ofList begun) hkeyed (fun key value hvalue => ?_) hholds
  exact hpairs (key, value) (hbegun.subset (Assoc.mem_of_get?_ofList hvalue))

/-! ## On the way -/

/-- The region has these values, all newer than what it had before, and beside them at most what it
had before. -/
structure Filled (before : Region V) (values : Assoc V) (r : Region V) : Prop where
  consistent : r.Consistent
  settings : r.settings = before.settings
  nextSeq_le : before.nextSeq ≤ r.nextSeq
  filled : ∀ key value, values.get? key = some value →
    ∃ slot, r.slots.get? key = some slot ∧ slot.value = value ∧ before.nextSeq ≤ slot.seq
  others : ∀ key slot, values.get? key = none → r.slots.get? key = some slot →
    before.slots.get? key = some slot

namespace Filled

variable {before r : Region V} {values : Assoc V}

/-- Nothing was put yet. -/
theorem refl (h : before.Consistent) : Filled before ∅ before where
  consistent := h
  settings := rfl
  nextSeq_le := Nat.le_refl _
  filled key value hget := by simp at hget
  others key slot _ hslot := hslot

/-- Without other entries there is room for one more value that fits. -/
theorem hasRoom (h : Filled before values r) (hkeyed : values.WellKeyed)
    (hkeys : r.slots.keys ⊆ values.keys) {key : String} {value : V}
    (hnew : values.get? key = none) (hholds : before.settings.Holds (values.set key value)) :
    r.hasRoom (slotSize key value) = true := by
  obtain ⟨hsize, hbytes⟩ := hholds
  rw [Assoc.size_set hkeyed, Assoc.erase_of_absent hnew] at hsize
  rw [bytesFor_set_of_absent hnew] at hbytes
  have hcount : r.size ≤ values.size := by
    have := (List.subperm_of_subset h.consistent.wellKeyed hkeys).length_le
    rwa [Assoc.length_keys, Assoc.length_keys] at this
  have hused : r.bytes ≤ bytesFor values := by
    rw [h.consistent.bytes_eq, ← Assoc.total_map_keys h.consistent.wellKeyed, bytesFor_eq hkeyed]
    refine Nat.le_trans (total_map_le fun other hother => ?_)
      (total_map_le_of_subset h.consistent.wellKeyed hkeys _)
    obtain ⟨kept, hkept⟩ := Assoc.mem_keys_iff.mp (hkeys hother)
    obtain ⟨slot, hslot, rfl, -⟩ := h.filled other kept hkept
    rw [hslot, hkept]
    exact Nat.le_of_eq (h.consistent.size_eq other slot hslot)
  simp only [Region.hasRoom, Bool.and_eq_true, decide_eq_true_eq, h.settings]
  omega

/-- If the oldest entry is one of the values, there are no others. -/
theorem keys_subset_of_oldest (h : Filled before values r) (hbefore : before.Consistent)
    {seq : Nat} {oldest : String} {younger : List (Nat × String)}
    (hage : r.age = (seq, oldest) :: younger) (hvalue : values.get? oldest ≠ none) :
    r.slots.keys ⊆ values.keys := by
  intro key hkey
  obtain ⟨slot, hslot⟩ := Assoc.mem_keys_iff.mp hkey
  by_contra habsent
  rw [← Assoc.get?_eq_none_iff] at habsent
  have hold := hbefore.seq_lt_nextSeq key slot (h.others key slot habsent hslot)
  -- The oldest entry is newer than all from before, and not newer than this one.
  obtain ⟨value, hvalue⟩ := Option.ne_none_iff_exists'.mp hvalue
  obtain ⟨first, hfirst, -, hnew⟩ := h.filled oldest value hvalue
  obtain ⟨first', hfirst', rfl⟩ := (h.consistent.mem_age_iff seq oldest).mp
    (hage ▸ List.mem_cons_self)
  obtain rfl := Option.some.inj (hfirst.symm.trans hfirst')
  have hmem : (slot.seq, key) ∈ r.age := (h.consistent.mem_age_iff _ _).mpr ⟨slot, hslot, rfl⟩
  have hascending := h.consistent.age_ascending
  rw [hage, List.pairwise_cons] at hascending
  rw [hage, List.mem_cons, Prod.mk.injEq] at hmem
  rcases hmem with ⟨hseq, -⟩ | hmem
  · omega
  · have := hascending.1 _ hmem
    simp only at this
    omega

/-- **A turn of making room** for a value that fits takes an entry from before. -/
theorem evictOldest (h : Filled before values r) (hbefore : before.Consistent)
    (hkeyed : values.WellKeyed) {key : String} {value : V} (hnew : values.get? key = none)
    (hholds : before.settings.Holds (values.set key value))
    (hroom : r.hasRoom (slotSize key value) = false) : Filled before values r.evictOldest := by
  cases hage : r.age with
  | nil => rwa [evictOldest_of_age_nil hage]
  | cons oldest younger =>
      obtain ⟨seq, gone⟩ := oldest
      have hgone : values.get? gone = none := by
        by_contra hvalue
        have := h.hasRoom hkeyed (h.keys_subset_of_oldest hbefore hage hvalue) hnew hholds
        rw [hroom] at this
        contradiction
      obtain ⟨slot, hslot, heq⟩ := h.consistent.evictOldest_eq hage
      refine ⟨h.consistent.evictOldest, ?_, ?_, fun other v hv => ?_, fun other s hother hs => ?_⟩
      · rw [settings_evictOldest, h.settings]
      · rw [heq]
        exact h.nextSeq_le
      · have hne : other ≠ gone := by
          rintro rfl
          rw [hgone] at hv
          contradiction
        obtain ⟨s, hs, hsv⟩ := h.filled other v hv
        refine ⟨s, ?_, hsv⟩
        rw [heq, drop, Assoc.get?_erase, if_neg hne]
        exact hs
      · exact h.others other s hother (get?_of_get?_evictOldest hs)

theorem makeRoom (h : Filled before values r) (hbefore : before.Consistent)
    (hkeyed : values.WellKeyed) {key : String} {value : V} (hnew : values.get? key = none)
    (hholds : before.settings.Holds (values.set key value)) :
    Filled before values (r.makeRoom (slotSize key value)) := by
  obtain ⟨turns, -, heq, hnone, -⟩ := makeRoom_eq_iterate r (slotSize key value)
  rw [heq]
  have hturns : ∀ n ≤ turns, Filled before values (Region.evictOldest^[n] r) := by
    intro n hn
    induction n with
    | zero => exact h
    | succ n ih =>
        rw [Function.iterate_succ_apply']
        exact (ih (by omega)).evictOldest hbefore hkeyed hnew hholds (hnone n (by omega))
  exact hturns turns (Nat.le_refl _)

/-- Storing a value adds it to those that were put. -/
theorem store (h : Filled before values r) (now : Nat) (key : String) (value : V) :
    Filled before (values.set key value) (r.store now key value (slotSize key value)) where
  consistent := h.consistent.store now key value
  settings := h.settings
  nextSeq_le := Nat.le_succ_of_le h.nextSeq_le
  filled other v hv := by
    rw [Assoc.get?_set] at hv
    rw [get?_store]
    split
    · next hother =>
        rw [if_pos hother, Option.some.injEq] at hv
        exact ⟨_, rfl, hv, h.nextSeq_le⟩
    · next hother =>
        rw [if_neg hother] at hv
        exact h.filled other v hv
  others other slot hnone hslot := by
    rw [Assoc.get?_set] at hnone
    rw [get?_store] at hslot
    split at hnone
    · contradiction
    · next hother =>
        rw [if_neg hother] at hslot
        exact h.others other slot hnone hslot

/-- **A put** of a value that fits adds it to those that were put. -/
theorem put (h : Filled before values r) (hbefore : before.Consistent)
    (hkeyed : values.WellKeyed) (now : Nat) {key : String} {value : V}
    (hholds : before.settings.Holds (values.set key value)) :
    Filled before (values.set key value) (r.put now key value) := by
  cases hslot : r.slots.get? key with
  | some slot =>
      rw [put_of_present now value hslot]
      exact h.store now key value
  | none =>
      have hnew : values.get? key = none := by
        cases hvalue : values.get? key with
        | none => rfl
        | some v =>
            obtain ⟨slot, hslot', -⟩ := h.filled key v hvalue
            rw [hslot] at hslot'
            contradiction
      rw [put_of_absent now value hslot]
      exact (h.makeRoom hbefore hkeyed hnew hholds).store now key value

theorem value?_of_get? (h : Filled before values r) {key : String} {value : V}
    (hvalue : values.get? key = some value) : r.value? key = some value := by
  obtain ⟨slot, hslot, rfl, -⟩ := h.filled key value hvalue
  rw [value?, hslot, Option.map_some]

section Empty

variable (hempty : ∀ key, before.slots.get? key = none)

include hempty

/-- A region that was empty has just the values. -/
theorem value?_eq (h : Filled before values r) (key : String) :
    r.value? key = values.get? key := by
  cases hvalue : values.get? key with
  | some value => exact h.value?_of_get? hvalue
  | none =>
      cases hslot : r.slots.get? key with
      | none => rw [value?, hslot, Option.map_none]
      | some slot =>
          have := h.others key slot hvalue hslot
          rw [hempty] at this
          contradiction

/-- All its entries are new. -/
theorem nextSeq_le_seq (h : Filled before values r) {key : String} {slot : Slot V}
    (hslot : r.slots.get? key = some slot) : before.nextSeq ≤ slot.seq := by
  have hvalue : values.get? key = some slot.value := by
    rw [← h.value?_eq hempty key, value?, hslot, Option.map_some]
  obtain ⟨slot', hslot', -, hnew⟩ := h.filled key slot.value hvalue
  obtain rfl := Option.some.inj (hslot.symm.trans hslot')
  exact hnew

end Empty

end Filled

/-- **A batch that fits** is in the region when it has been put, each key with its last value.
Beside that the region has at most what it had. -/
theorem filled_putAll {r : Region V} (h : r.Consistent) {timed : List (Nat × String × V)}
    (hfits : r.settings.Fits (timed.map Prod.snd)) :
    Filled r (.ofList (timed.map Prod.snd)) (r.putAll timed) := by
  induction timed using List.reverseRecOn with
  | nil => exact .refl h
  | append_singleton timed put ih =>
      rw [List.map_append] at hfits ⊢
      have hbegun := ih fun begun hbegun => hfits begun (hbegun.trans (List.prefix_append ..))
      have hholds := hfits _ (List.prefix_refl _)
      rw [List.map_singleton, Assoc.ofList_concat] at hholds ⊢
      rw [putAll, List.foldl_append]
      exact hbegun.put h (Assoc.wellKeyed_ofList _) put.1 hholds

/-- What is newer than all from before was stored at the instant of the batch. -/
theorem cachedAt_putAll {r : Region V} (h : r.Consistent) (now : Nat) (pairs : List (String × V))
    {key : String} {slot : Slot V} (hslot : (r.putAll (pairs.map (now, ·))).slots.get? key = some slot)
    (hnew : r.nextSeq ≤ slot.seq) : slot.cachedAt = now := by
  induction pairs using List.reverseRecOn with
  | nil =>
      have hold := h.seq_lt_nextSeq key slot hslot
      omega
  | append_singleton pairs pair ih =>
      rw [putAll_concat] at hslot
      by_cases hkey : key = pair.1
      · subst hkey
        obtain ⟨seq, hput⟩ := get?_put_self (r.putAll (pairs.map (now, ·))) now pair.1 pair.2
        rw [hput, Option.some.injEq] at hslot
        rw [← hslot]
      · exact ih (get?_of_get?_put hkey hslot)

end Region

end AttrFederation
