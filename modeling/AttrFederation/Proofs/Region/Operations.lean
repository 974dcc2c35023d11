import AttrFederation.Proofs.Assoc
import AttrFederation.Proofs.Region.Eviction
import AttrFederation.Proofs.Region.Run

/-!
# What the operations of a region do to its entries

One equation for each way an operation can go, in terms of the entries as `slots.get?` shows them.
Later modules rest on these and do not open the operations again.

* `get_of_absent`, `get_of_expired`, `get_of_live` — the three ways of a read;
* `put_of_present`, `put_of_absent` — a put replaces, or makes room first;
* `get?_store`, `get?_remove`, `get?_clear` — the entries afterwards.
-/

namespace AttrFederation.Region

variable {V : Type} {r : Region V} {key : String}

/-! ## Removing and clearing -/

/-- Removing a key erases it, whether it was there or not. -/
theorem slots_remove (r : Region V) (key : String) :
    (r.remove key).2.slots = r.slots.erase key := by
  unfold remove
  split
  · rfl
  · next hget => exact (Assoc.erase_of_absent hget).symm

theorem get?_remove (r : Region V) (key other : String) :
    (r.remove key).2.slots.get? other = if other = key then none else r.slots.get? other := by
  rw [slots_remove, Assoc.get?_erase]

@[simp] theorem get?_clear (r : Region V) (key : String) : r.clear.slots.get? key = none := rfl

@[simp] theorem settings_remove (r : Region V) (key : String) :
    (r.remove key).2.settings = r.settings := by
  unfold remove
  split <;> rfl

@[simp] theorem nextSeq_remove (r : Region V) (key : String) :
    (r.remove key).2.nextSeq = r.nextSeq := by
  unfold remove
  split <;> rfl

@[simp] theorem settings_clear (r : Region V) : r.clear.settings = r.settings := rfl

/-! ## Reading -/

theorem contains_iff : r.contains key = true ↔ ∃ slot, r.slots.get? key = some slot :=
  Option.isSome_iff_exists

theorem contains_eq_false_iff : r.contains key = false ↔ r.slots.get? key = none :=
  Option.isSome_eq_false_iff.trans Option.isNone_iff_eq_none

theorem get_of_absent (now : Nat) (h : r.slots.get? key = none) :
    r.get now key = (none, { r with counts.misses := r.counts.misses + 1 }) := by
  rw [get, h]

theorem get_of_expired {now : Nat} {slot : Slot V} (h : r.slots.get? key = some slot)
    (hold : r.expired now slot.cachedAt = true) :
    r.get now key =
      (none,
        { r.drop key slot with
          counts.expirations := r.counts.expirations + 1
          counts.misses := r.counts.misses + 1 }) := by
  rw [get, h]
  exact if_pos hold

theorem get_of_live {now : Nat} {slot : Slot V} (h : r.slots.get? key = some slot)
    (hlive : r.expired now slot.cachedAt = false) :
    r.get now key = (some slot.value, { r with counts.hits := r.counts.hits + 1 }) := by
  rw [get, h]
  exact if_neg (by rw [hlive]; exact Bool.false_ne_true)

/-- A read only takes entries away, and only from its own key one that is too old. -/
theorem get?_get (r : Region V) (now : Nat) (key other : String) :
    (r.get now key).2.slots.get? other = r.slots.get? other ∨
      other = key ∧ (r.get now key).2.slots.get? other = none ∧
        ∃ slot, r.slots.get? other = some slot ∧ r.expired now slot.cachedAt = true := by
  cases h : r.slots.get? key with
  | none => exact .inl (by rw [get_of_absent now h])
  | some slot =>
      cases hold : r.expired now slot.cachedAt with
      | false => exact .inl (by rw [get_of_live h hold])
      | true =>
          rw [get_of_expired h hold]
          simp only [drop, Assoc.get?_erase]
          by_cases hother : other = key
          · subst hother
            exact .inr ⟨rfl, if_pos rfl, slot, h, hold⟩
          · exact .inl (if_neg hother)

@[simp] theorem settings_get (r : Region V) (now : Nat) (key : String) :
    (r.get now key).2.settings = r.settings := by
  unfold get
  split
  · rfl
  · split <;> rfl

/-! ## Storing -/

theorem get?_store (r : Region V) (now : Nat) (key other : String) (value : V) (size : Nat) :
    (r.store now key value size).slots.get? other =
      if other = key then some ⟨value, now, size, r.nextSeq⟩ else r.slots.get? other :=
  Assoc.get?_set ..

@[simp] theorem settings_store (r : Region V) (now : Nat) (key : String) (value : V)
    (size : Nat) : (r.store now key value size).settings = r.settings := rfl

variable [Measured V]

theorem put_of_present (now : Nat) (value : V) {slot : Slot V}
    (h : r.slots.get? key = some slot) :
    r.put now key value = r.store now key value (slotSize key value) := by
  rw [put, if_pos (by rw [contains, Assoc.contains, h]; rfl)]

theorem put_of_absent (now : Nat) (value : V) (h : r.slots.get? key = none) :
    r.put now key value =
      (r.makeRoom (slotSize key value)).store now key value (slotSize key value) := by
  rw [put, if_neg (by rw [contains, Assoc.contains, h]; exact Bool.false_ne_true)]

/-- A put stores its value, whatever the key had. -/
theorem get?_put_self (r : Region V) (now : Nat) (key : String) (value : V) :
    ∃ seq, (r.put now key value).slots.get? key
      = some ⟨value, now, slotSize key value, seq⟩ := by
  cases h : r.slots.get? key with
  | none => exact ⟨_, by rw [put_of_absent now value h, get?_store, if_pos rfl]⟩
  | some slot => exact ⟨_, by rw [put_of_present now value h, get?_store, if_pos rfl]⟩

/-- A put of a present key leaves the other entries alone. -/
theorem get?_put_of_present (now : Nat) (value : V) {slot : Slot V}
    (h : r.slots.get? key = some slot) {other : String} (hother : other ≠ key) :
    (r.put now key value).slots.get? other = r.slots.get? other := by
  rw [put_of_present now value h, get?_store, if_neg hother]

/-- Beside its own key, a put only takes entries away. -/
theorem get?_of_get?_put {now : Nat} {value : V} {other : String} (hother : other ≠ key)
    {slot : Slot V} (h : (r.put now key value).slots.get? other = some slot) :
    r.slots.get? other = some slot := by
  cases hkey : r.slots.get? key with
  | none =>
      rw [put_of_absent now value hkey, get?_store, if_neg hother] at h
      exact get?_of_get?_makeRoom h
  | some _ => rwa [get?_put_of_present now value hkey hother] at h

@[simp] theorem settings_put (r : Region V) (now : Nat) (key : String) (value : V) :
    (r.put now key value).settings = r.settings := by
  cases h : r.slots.get? key with
  | none => rw [put_of_absent now value h, settings_store, settings_makeRoom]
  | some slot => rw [put_of_present now value h, settings_store]

/-! ## Requests -/

@[simp] theorem settings_step (r : Region V) (now : Nat) (request : Request V) :
    (r.step now request).settings = r.settings := by
  cases request with
  | put key value => exact settings_put r now key value
  | get key => exact settings_get r now key
  | contains key => rfl
  | remove key => exact settings_remove r key
  | clear => rfl

@[simp] theorem settings_run (r : Region V) (history : History V) :
    (r.run history).settings = r.settings :=
  run_induction (P := fun s => s.settings = r.settings)
    (fun s now request h => (settings_step s now request).trans h) rfl history

end AttrFederation.Region
