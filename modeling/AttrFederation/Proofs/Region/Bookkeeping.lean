import Mathlib.Data.List.Nodup
import AttrFederation.Proofs.Region.Operations

/-!
# Bookkeeping of a region

The entries, the age index and the byte counter of a region are kept in step by every operation.
`Consistent` says what in step means:

1. the age index has a number with a key exactly when the entry of the key has that number, and it
   is in ascending order, so that numbers and keys correspond one to one;
2. the numbers in use are below the next one;
3. an entry's size is that of its value, its key and the overhead;
4. the byte counter is the sum of the sizes.

Each operation has one lemma that it keeps the agreement.  Main result: `bookkeeping_run`, for every
history of requests.  As the counter is the sum, no subtraction from it is ever cut off at zero
(`Consistent.size_le_bytes`), also while room is being made.
-/

namespace AttrFederation.Region

variable {V : Type} [Measured V]

/-- Entries, age index and byte counter agree. -/
structure Consistent (r : Region V) : Prop where
  /-- No key has two entries. -/
  wellKeyed : r.slots.WellKeyed
  /-- The age index is in ascending order of its numbers, without repetition. -/
  age_ascending : r.age.Pairwise fun older younger => older.1 < younger.1
  /-- The age index has exactly the number and the key of each entry. -/
  mem_age_iff : ∀ seq key,
    (seq, key) ∈ r.age ↔ ∃ slot, r.slots.get? key = some slot ∧ slot.seq = seq
  /-- The next number is not in use. -/
  seq_lt_nextSeq : ∀ key slot, r.slots.get? key = some slot → slot.seq < r.nextSeq
  /-- An entry is recorded with the size it has. -/
  size_eq : ∀ key slot, r.slots.get? key = some slot → slot.size = slotSize key slot.value
  /-- The byte counter is the sum of the sizes. -/
  bytes_eq : r.bytes = r.slots.sumOf Slot.size

namespace Consistent

variable {r : Region V}

/-! ## What follows from the agreement -/

/-- A number belongs to one key. -/
theorem key_unique (h : r.Consistent) {seq : Nat} {key other : String} (hkey : (seq, key) ∈ r.age)
    (hother : (seq, other) ∈ r.age) : key = other := by
  have hnodup : (r.age.map Prod.fst).Nodup :=
    List.pairwise_map.mpr (h.age_ascending.imp Nat.ne_of_lt)
  exact congrArg Prod.snd (List.inj_on_of_nodup_map hnodup hkey hother rfl)

/-- The keys of the age index are the keys of the entries, each once. -/
theorem perm_keys (h : r.Consistent) : (r.age.map Prod.snd).Perm r.slots.keys := by
  have hage : r.age.Nodup := by
    refine h.age_ascending.imp ?_
    rintro older younger hlt rfl
    exact Nat.lt_irrefl _ hlt
  have hnodup : (r.age.map Prod.snd).Nodup := by
    refine hage.map_on ?_
    rintro ⟨seq, key⟩ hmem ⟨seq', key'⟩ hmem' rfl
    obtain ⟨slot, hget, rfl⟩ := (h.mem_age_iff _ _).mp hmem
    obtain ⟨slot', hget', rfl⟩ := (h.mem_age_iff _ _).mp hmem'
    rw [hget, Option.some.injEq] at hget'
    rw [hget']
  refine (List.perm_ext_iff_of_nodup hnodup h.wellKeyed).mpr fun key => ?_
  rw [List.mem_map, Assoc.mem_keys_iff]
  constructor
  · rintro ⟨⟨seq, key⟩, hmem, rfl⟩
    obtain ⟨slot, hget, -⟩ := (h.mem_age_iff seq key).mp hmem
    exact ⟨slot, hget⟩
  · rintro ⟨slot, hget⟩
    exact ⟨(slot.seq, key), (h.mem_age_iff _ _).mpr ⟨slot, hget, rfl⟩, rfl⟩

/-- What is released for an entry is in the counter: the subtraction is exact. -/
theorem size_le_bytes (h : r.Consistent) {key : String} {slot : Slot V}
    (hget : r.slots.get? key = some slot) : slot.size ≤ r.bytes := by
  rw [h.bytes_eq]
  exact Assoc.figure_le_sumOf h.wellKeyed Slot.size hget

/-- Without ages there are no entries. -/
theorem size_eq_zero_of_age_nil (h : r.Consistent) (hage : r.age = []) : r.size = 0 := by
  refine Assoc.size_eq_zero_iff.mpr fun key => ?_
  cases hget : r.slots.get? key with
  | none => rfl
  | some slot =>
      have hmem := (h.mem_age_iff slot.seq key).mpr ⟨slot, hget, rfl⟩
      rw [hage] at hmem
      contradiction

/-- The counts do not matter. -/
theorem withCounts (h : r.Consistent) (counts : RegionCounts) :
    Consistent { r with counts } :=
  ⟨h.wellKeyed, h.age_ascending, h.mem_age_iff, h.seq_lt_nextSeq, h.size_eq, h.bytes_eq⟩

/-! ## Dropping entries -/

/-- Dropping an entry keeps the agreement. -/
theorem drop (h : r.Consistent) {key : String} {slot : Slot V}
    (hget : r.slots.get? key = some slot) : (r.drop key slot).Consistent where
  wellKeyed := h.wellKeyed.erase key
  age_ascending := h.age_ascending.sublist List.filter_sublist
  mem_age_iff seq other := by
    have hslot : (slot.seq, key) ∈ r.age := (h.mem_age_iff _ _).mpr ⟨slot, hget, rfl⟩
    simp only [Region.drop, List.mem_filter, decide_eq_true_eq, Assoc.get?_erase]
    constructor
    · rintro ⟨hmem, hseq⟩
      have hother : other ≠ key := by
        rintro rfl
        obtain ⟨slot', hget', rfl⟩ := (h.mem_age_iff _ _).mp hmem
        rw [hget, Option.some.injEq] at hget'
        exact hseq (by rw [hget'])
      rw [if_neg hother]
      exact (h.mem_age_iff _ _).mp hmem
    · rintro ⟨slot', hget', rfl⟩
      split at hget'
      · contradiction
      · next hother =>
          have hmem := (h.mem_age_iff _ _).mpr ⟨slot', hget', rfl⟩
          exact ⟨hmem, fun hseq => hother (h.key_unique (hseq ▸ hmem) hslot)⟩
  seq_lt_nextSeq other slot' hget' := by
    rw [Region.drop, Assoc.get?_erase] at hget'
    split at hget'
    · contradiction
    · exact h.seq_lt_nextSeq other slot' hget'
  size_eq other slot' hget' := by
    rw [Region.drop, Assoc.get?_erase] at hget'
    split at hget'
    · contradiction
    · exact h.size_eq other slot' hget'
  bytes_eq := by
    have hsum := Assoc.sumOf_erase_add h.wellKeyed Slot.size hget
    rw [Region.drop, h.bytes_eq]
    simp only
    omega

/-- Removing a key keeps the agreement. -/
theorem remove (h : r.Consistent) (key : String) : (r.remove key).2.Consistent := by
  unfold Region.remove
  split
  · next slot hget => exact h.drop hget
  · exact h

/-- A region without entries, ages and bytes is in agreement. -/
theorem of_empty (hslots : r.slots = ∅) (hage : r.age = []) (hbytes : r.bytes = 0) :
    r.Consistent where
  wellKeyed := hslots ▸ Assoc.wellKeyed_empty
  age_ascending := hage ▸ .nil
  mem_age_iff := by simp [hslots, hage]
  seq_lt_nextSeq := by simp [hslots]
  size_eq := by simp [hslots]
  bytes_eq := by rw [hslots, hbytes, Assoc.sumOf_empty]

/-- A read drops an entry at most. -/
theorem get (h : r.Consistent) (now : Nat) (key : String) : (r.get now key).2.Consistent := by
  cases hget : r.slots.get? key with
  | none =>
      rw [get_of_absent now hget]
      exact h.withCounts _
  | some slot =>
      cases hold : r.expired now slot.cachedAt with
      | false =>
          rw [get_of_live hget hold]
          exact h.withCounts _
      | true =>
          rw [get_of_expired hget hold]
          exact (h.drop hget).withCounts _

/-! ## Evicting -/

/-- Evicting the oldest entry is dropping it, as its number is still that of its key. -/
theorem evictOldest_eq (h : r.Consistent) {seq : Nat} {key : String}
    {younger : List (Nat × String)} (hage : r.age = (seq, key) :: younger) :
    ∃ slot, r.slots.get? key = some slot ∧
      r.evictOldest = { r.drop key slot with counts.evictions := r.counts.evictions + 1 } := by
  obtain ⟨slot, hget, hseq⟩ := (h.mem_age_iff seq key).mp (hage ▸ List.mem_cons_self)
  have hyounger : (r.age.filter fun entry => entry.1 ≠ slot.seq) = younger := by
    have hpair := h.age_ascending
    rw [hage, List.pairwise_cons] at hpair
    rw [hage, hseq, List.filter_cons_of_neg (by simp), List.filter_eq_self]
    intro entry hmem
    have := hpair.1 entry hmem
    simp only [decide_eq_true_eq]
    omega
  refine ⟨slot, hget, ?_⟩
  rw [evictOldest_of_age_cons hage, evict, hget]
  simp only [hseq, if_pos, Region.drop]
  rw [← hyounger, hseq]

/-- A turn of eviction keeps the agreement. -/
theorem evictOldest (h : r.Consistent) : r.evictOldest.Consistent := by
  cases hage : r.age with
  | nil => rwa [evictOldest_of_age_nil hage]
  | cons oldest younger =>
      obtain ⟨slot, hget, heq⟩ := h.evictOldest_eq hage
      rw [heq]
      exact (h.drop hget).withCounts _

theorem makeRoom (h : r.Consistent) (incoming : Nat) : (r.makeRoom incoming).Consistent :=
  makeRoom_induction (P := Consistent) (fun _ hs => hs.evictOldest) h incoming

/-! ## Storing -/

/-- Storing is removing what the key had and adding the new entry as the newest one. -/
theorem store_eq (h : r.Consistent) (now : Nat) (key : String) (value : V) (size : Nat) :
    r.store now key value size =
      { (r.remove key).2 with
        slots := r.slots.set key ⟨value, now, size, r.nextSeq⟩
        age := (r.remove key).2.age ++ [(r.nextSeq, key)]
        bytes := (r.remove key).2.bytes + size
        nextSeq := r.nextSeq + 1 } := by
  unfold store Region.remove
  cases hget : r.slots.get? key with
  | none => rfl
  | some previous =>
      have hle := h.size_le_bytes hget
      simp only [Region.drop, mk.injEq, true_and, and_true]
      omega

/-- Storing an entry with its size keeps the agreement. -/
theorem store (h : r.Consistent) (now : Nat) (key : String) (value : V) :
    (r.store now key value (slotSize key value)).Consistent := by
  have hrest := h.remove key
  have hget := get?_remove r key
  rw [h.store_eq]
  generalize hslot : (⟨value, now, slotSize key value, r.nextSeq⟩ : Slot V) = slot
  have hnumber : slot.seq = r.nextSeq := by rw [← hslot]
  have hold : ∀ {seq other}, (seq, other) ∈ (r.remove key).2.age → seq < r.nextSeq := by
    intro seq other hmem
    obtain ⟨slot', hget', rfl⟩ := (hrest.mem_age_iff _ _).mp hmem
    simpa using hrest.seq_lt_nextSeq other slot' hget'
  refine ⟨h.wellKeyed.set key slot, ?_, ?_, ?_, ?_, ?_⟩
  · refine List.pairwise_append.mpr ⟨hrest.age_ascending, by simp, ?_⟩
    rintro ⟨seq, other⟩ hmem entry hentry
    rw [List.mem_singleton] at hentry
    rw [hentry]
    exact hold hmem
  · intro seq other
    simp only [List.mem_append, List.mem_singleton, Prod.mk.injEq, hrest.mem_age_iff, hget,
      Assoc.get?_set]
    by_cases hother : other = key
    · simp [hother, hnumber, eq_comm]
    · simp [hother]
  · intro other slot' hget'
    simp only [Assoc.get?_set] at hget'
    split at hget'
    · rw [Option.some.injEq] at hget'
      simp only [← hget', hnumber]
      omega
    · have := h.seq_lt_nextSeq other slot' hget'
      simp only
      omega
  · intro other slot' hget'
    simp only [Assoc.get?_set] at hget'
    split at hget'
    · next hother =>
        rw [Option.some.injEq] at hget'
        rw [← hget', ← hslot, hother]
    · exact h.size_eq other slot' hget'
  · simp only [Assoc.sumOf_set h.wellKeyed, ← slots_remove, hrest.bytes_eq, ← hslot]

theorem put (h : r.Consistent) (now : Nat) (key : String) (value : V) :
    (r.put now key value).Consistent := by
  cases hget : r.slots.get? key with
  | none =>
      rw [put_of_absent now value hget]
      exact (h.makeRoom _).store now key value
  | some slot =>
      rw [put_of_present now value hget]
      exact h.store now key value

/-! ## Histories -/

theorem step (h : r.Consistent) (now : Nat) (request : Request V) :
    (r.step now request).Consistent := by
  cases request with
  | put key value => exact h.put now key value
  | get key => exact h.get now key
  | contains key => exact h
  | remove key => exact h.remove key
  | clear => exact .of_empty rfl rfl rfl

theorem run (h : r.Consistent) (history : History V) : (r.run history).Consistent :=
  run_induction (fun _ now request h => h.step now request) h history

end Consistent

/-- The empty region is in agreement. -/
theorem consistent_empty (settings : RegionSettings) :
    (Region.empty settings : Region V).Consistent :=
  .of_empty rfl rfl rfl

/-- Every region that a history leads to is in agreement. -/
theorem consistent_run_empty (settings : RegionSettings) (history : History V) :
    ((Region.empty settings).run history).Consistent :=
  (consistent_empty settings).run history

/-- **Bookkeeping**: after every history the entries, the age index and the byte counter agree, and
the age index lists each key once.  In that region, and in each one that evictions lead through, no
entry counts for more bytes than the counter holds, so that releasing it subtracts exactly. -/
theorem bookkeeping_run (settings : RegionSettings) (history : History V) :
    let r := (Region.empty settings).run history
    r.Consistent ∧ (r.age.map Prod.snd).Perm r.slots.keys ∧
      ∀ turns key slot, (evictOldest^[turns] r).slots.get? key = some slot →
        slot.size ≤ (evictOldest^[turns] r).bytes := by
  intro r
  have h : r.Consistent := consistent_run_empty settings history
  refine ⟨h, h.perm_keys, fun turns key slot hget => ?_⟩
  have hturns : Consistent (evictOldest^[turns] r) :=
    Function.Iterate.rec Consistent h (fun _ hs => hs.evictOldest) turns
  exact hturns.size_le_bytes hget

end AttrFederation.Region
