import AttrFederation.Proofs.Region.Budget

/-!
# Conservation of entries

Every entry that came into a region is still there or has left it in one of four ways, and the
region counts each way once:

* `conservation_run` — the puts of absent keys are as many as the entries that are there, were
  evicted, expired, were removed, or were there when the region was cleared; every read is a hit or
  a miss, and an expiration is a miss.

What a history is asked to count is a figure of each request and of the region that the request
meets; `tally` adds it up.  The law for one request is `Consistent.balance_step`; an entry that is
too old but was not read since then is an entry like any other in it.
-/

namespace AttrFederation.Region

variable {V : Type} {r : Region V}

/-! ## What a history counts -/

section Figures

variable [Measured V]

/-- A figure of each request and of the region that it meets, added up over a history. -/
def tally (figure : Region V → Request V → Nat) (r : Region V) : History V → Nat
  | [] => 0
  | (now, request) :: rest => figure r request + tally figure (r.step now request) rest

/-- One for a put of an absent key. -/
def addition (r : Region V) (request : Request V) : Nat :=
  (r.adds request).toNat

/-- One for a removal of a present key. -/
def removal (r : Region V) : Request V → Nat
  | .remove key => (r.remove key).1.toNat
  | _ => 0

/-- The entries that clearing takes away. -/
def clearance (r : Region V) : Request V → Nat
  | .clear => r.size
  | _ => 0

/-- One for a read. -/
def reading (_ : Region V) : Request V → Nat
  | .get _ => 1
  | _ => 0

end Figures

/-- The entries that are there, were evicted or expired. -/
def accounted (r : Region V) : Nat :=
  r.size + r.counts.evictions + r.counts.expirations

/-- What eviction changes: it counts the entries that it takes away. -/
structure Evicted (before after : Region V) : Prop where
  size_add : after.size + after.counts.evictions = before.size + before.counts.evictions
  hits_eq : after.counts.hits = before.counts.hits
  misses_eq : after.counts.misses = before.counts.misses
  expirations_eq : after.counts.expirations = before.counts.expirations

theorem Evicted.trans {first second third : Region V} (h : Evicted first second)
    (h' : Evicted second third) : Evicted first third :=
  ⟨h'.size_add.trans h.size_add, h'.hits_eq.trans h.hits_eq, h'.misses_eq.trans h.misses_eq,
    h'.expirations_eq.trans h.expirations_eq⟩

@[simp] theorem counts_store (r : Region V) (now : Nat) (key : String) (value : V) (size : Nat) :
    (r.store now key value size).counts = r.counts := rfl

variable [Measured V]

/-! ## Dropping and storing -/

/-- Dropping an entry leaves one entry less. -/
theorem Consistent.size_drop_add_one (h : r.Consistent) {key : String} {slot : Slot V}
    (hget : r.slots.get? key = some slot) : (r.drop key slot).size + 1 = r.size := by
  have hsum := Assoc.sumOf_erase_add h.wellKeyed (fun _ => 1) hget
  rwa [← Assoc.size_eq_sumOf, ← Assoc.size_eq_sumOf] at hsum

/-- Storing over an entry keeps the number of entries. -/
theorem Consistent.size_store_of_present (h : r.Consistent) (now : Nat) {key : String} (value : V)
    (size : Nat) {slot : Slot V} (hget : r.slots.get? key = some slot) :
    (r.store now key value size).size = r.size := by
  have hset := Assoc.size_set h.wellKeyed key (⟨value, now, size, r.nextSeq⟩ : Slot V)
  have hdrop : (r.slots.erase key).size + 1 = r.slots.size := h.size_drop_add_one hget
  exact hset.trans hdrop

/-- Storing an absent key adds an entry. -/
theorem Consistent.size_store_of_absent (h : r.Consistent) (now : Nat) {key : String} (value : V)
    (size : Nat) (hget : r.slots.get? key = none) :
    (r.store now key value size).size = r.size + 1 := by
  have hset := Assoc.size_set h.wellKeyed key (⟨value, now, size, r.nextSeq⟩ : Slot V)
  rw [Assoc.erase_of_absent hget] at hset
  exact hset

/-! ## Evicting -/

/-- A turn of eviction counts the entry that it takes. -/
theorem Consistent.evicted_evictOldest (h : r.Consistent) : Evicted r r.evictOldest := by
  cases hage : r.age with
  | nil =>
      rw [evictOldest_of_age_nil hage]
      exact ⟨rfl, rfl, rfl, rfl⟩
  | cons oldest younger =>
      obtain ⟨slot, hget, heq⟩ := h.evictOldest_eq hage
      have hsize := h.size_drop_add_one hget
      rw [heq]
      refine ⟨?_, rfl, rfl, rfl⟩
      change (r.drop oldest.2 slot).size + (r.counts.evictions + 1) = r.size + r.counts.evictions
      omega

/-- Making room counts the entries that it takes. -/
theorem Consistent.evicted_makeRoom (h : r.Consistent) (incoming : Nat) :
    Evicted r (r.makeRoom incoming) := by
  have hkept : ∀ s : Region V, s.Consistent ∧ Evicted r s →
      s.evictOldest.Consistent ∧ Evicted r s.evictOldest :=
    fun _ hs => ⟨hs.1.evictOldest, hs.2.trans hs.1.evicted_evictOldest⟩
  exact (makeRoom_induction hkept ⟨h, ⟨rfl, rfl, rfl, rfl⟩⟩ incoming).2

/-! ## One request -/

/-- **Balance of a put**: an absent key adds one to the entries and what left them, a present key
nothing. -/
theorem Consistent.balance_put (h : r.Consistent) (now : Nat) (key : String) (value : V) :
    (r.put now key value).accounted = r.accounted + r.addition (.put key value) ∧
      (r.put now key value).counts.hits = r.counts.hits ∧
      (r.put now key value).counts.misses = r.counts.misses ∧
      (r.put now key value).counts.expirations = r.counts.expirations := by
  cases hget : r.slots.get? key with
  | none =>
      have hadds : r.addition (.put key value) = 1 := by
        simp [addition, adds, contains, Assoc.contains, hget]
      have hevicted := h.evicted_makeRoom (slotSize key value)
      have hsize := (h.makeRoom (slotSize key value)).size_store_of_absent now value
        (slotSize key value) (get?_makeRoom_of_absent hget _)
      have hadd := hevicted.size_add
      rw [put_of_absent now value hget, accounted, accounted, hsize, hadds, counts_store,
        hevicted.expirations_eq]
      exact ⟨by omega, hevicted.hits_eq, hevicted.misses_eq, rfl⟩
  | some slot =>
      have hadds : r.addition (.put key value) = 0 := by
        simp [addition, adds, contains, Assoc.contains, hget]
      rw [put_of_present now value hget, accounted, accounted,
        h.size_store_of_present now value _ hget, hadds, counts_store]
      exact ⟨rfl, rfl, rfl, rfl⟩

/-- **Balance of a read**: it is a hit or a miss, and an entry that it finds too old goes from the
entries to the expirations and counts as a miss. -/
theorem Consistent.balance_get (h : r.Consistent) (now : Nat) (key : String) :
    (r.get now key).2.accounted = r.accounted ∧
      (r.get now key).2.counts.hits + (r.get now key).2.counts.misses
        = r.counts.hits + r.counts.misses + 1 ∧
      (r.get now key).2.counts.expirations + r.counts.misses
        ≤ (r.get now key).2.counts.misses + r.counts.expirations := by
  cases hget : r.slots.get? key with
  | none =>
      rw [get_of_absent now hget]
      exact ⟨rfl, rfl, by simp only; omega⟩
  | some slot =>
      cases hold : r.expired now slot.cachedAt with
      | false =>
          rw [get_of_live hget hold]
          exact ⟨rfl, by simp only; omega, by simp only; omega⟩
      | true =>
          have hsize := h.size_drop_add_one hget
          rw [get_of_expired hget hold]
          refine ⟨?_, (Nat.add_assoc ..).symm, by simp only; omega⟩
          change (r.drop key slot).size + r.counts.evictions + (r.counts.expirations + 1)
            = r.size + r.counts.evictions + r.counts.expirations
          omega

/-- **Balance of a removal**: the entry of a present key goes. -/
theorem Consistent.balance_remove (h : r.Consistent) (key : String) :
    (r.remove key).2.accounted + (r.remove key).1.toNat = r.accounted ∧
      (r.remove key).2.counts = r.counts := by
  unfold Region.remove
  split
  · next slot hget =>
      have hsize := h.size_drop_add_one hget
      refine ⟨?_, rfl⟩
      change (r.drop key slot).size + r.counts.evictions + r.counts.expirations + 1
        = r.size + r.counts.evictions + r.counts.expirations
      omega
  · exact ⟨rfl, rfl⟩

/-- What a request changes in the account of a region. -/
structure Balanced (before : Region V) (request : Request V) (after : Region V) : Prop where
  entries : before.accounted + before.addition request
    = after.accounted + before.removal request + before.clearance request
  reads : after.counts.hits + after.counts.misses
    = before.counts.hits + before.counts.misses + before.reading request
  expirations : after.counts.expirations + before.counts.misses
    ≤ after.counts.misses + before.counts.expirations

/-- Every request is balanced. -/
theorem Consistent.balance_step (h : r.Consistent) (now : Nat) (request : Request V) :
    Balanced r request (r.step now request) := by
  cases request with
  | put key value =>
      obtain ⟨hentries, hhits, hmisses, hexpirations⟩ := h.balance_put now key value
      refine ⟨hentries.symm, ?_, ?_⟩
      · simp only [Region.step, hhits, hmisses, reading, Nat.add_zero]
      · simp only [Region.step, hmisses, hexpirations]
        omega
  | get key =>
      obtain ⟨hentries, hreads, hexpirations⟩ := h.balance_get now key
      exact ⟨hentries.symm, hreads, hexpirations⟩
  | contains key => exact ⟨rfl, rfl, Nat.le_of_eq (Nat.add_comm ..)⟩
  | remove key =>
      obtain ⟨hentries, hcounts⟩ := h.balance_remove key
      refine ⟨hentries.symm, ?_, ?_⟩
      · simp only [Region.step, hcounts, reading, Nat.add_zero]
      · simp only [Region.step, hcounts]
        omega
  | clear =>
      refine ⟨?_, rfl, Nat.le_of_eq (Nat.add_comm ..)⟩
      change r.size + r.counts.evictions + r.counts.expirations + 0
        = 0 + r.counts.evictions + r.counts.expirations + 0 + r.size
      omega

/-! ## Histories -/

/-- Every history is balanced. -/
theorem Consistent.balance_run (h : r.Consistent) (history : History V) :
    r.accounted + tally addition r history
        = (r.run history).accounted + tally removal r history + tally clearance r history ∧
      (r.run history).counts.hits + (r.run history).counts.misses
        = r.counts.hits + r.counts.misses + tally reading r history ∧
      (r.run history).counts.expirations + r.counts.misses
        ≤ (r.run history).counts.misses + r.counts.expirations := by
  induction history generalizing r with
  | nil => exact ⟨rfl, rfl, Nat.le_of_eq (Nat.add_comm ..)⟩
  | cons request rest ih =>
      obtain ⟨now, request⟩ := request
      have hstep := h.balance_step now request
      obtain ⟨hentries, hreads, hexpirations⟩ := ih (h.step now request)
      have hentries' := hstep.entries
      have hreads' := hstep.reads
      have hexpirations' := hstep.expirations
      simp only [run_cons, tally]
      refine ⟨?_, ?_, ?_⟩ <;> omega

/-- **Conservation**: after every history, the puts of absent keys are as many as the entries, the
evictions, the expirations, the removals of present keys and the entries that were there at each
clearing together.  Hits and misses are as many as the reads, and no more entries expired than reads
missed. -/
theorem conservation_run (settings : RegionSettings) (history : History V) :
    let r := (Region.empty settings).run history
    tally addition (Region.empty settings) history
        = r.size + r.counts.evictions + r.counts.expirations
          + tally removal (Region.empty settings) history
          + tally clearance (Region.empty settings) history ∧
      r.counts.hits + r.counts.misses = tally reading (Region.empty settings) history ∧
      r.counts.expirations ≤ r.counts.misses := by
  intro r
  have h : (Region.empty settings : Region V).Consistent := consistent_empty settings
  obtain ⟨hentries, hreads, hexpirations⟩ := h.balance_run history
  have hzero : (Region.empty settings : Region V).accounted = 0 := rfl
  have hnone : (Region.empty settings : Region V).counts = {} := rfl
  rw [hzero, Nat.zero_add, accounted] at hentries
  rw [hnone, Nat.zero_add, Nat.zero_add] at hreads
  rw [hnone, Nat.add_zero] at hexpirations
  exact ⟨hentries, hreads, hexpirations⟩

/-- Three puts into a region for two entries: an eviction, then an entry that is too old when it is
read, a removal and a clearing account for all of them. -/
example :
    let history : History OrgUnit :=
      [(0, .put "A" (.blank "A")), (0, .put "B" (.blank "B")), (0, .put "C" (.blank "C")),
        (1, .put "B" (.blank "B")), (9, .get "C"), (9, .put "D" (.blank "D")), (9, .remove "B"),
        (9, .get "B"), (9, .clear)]
    let settings : RegionSettings := { heapMb := 1, maxObjects := 2, ttl := .finite (.ofNanos 5) }
    let r := (Region.empty settings).run history
    (r.size, r.counts.evictions, r.counts.expirations, r.counts.misses) = (0, 1, 1, 2) := by
  decide

end AttrFederation.Region
