import Mathlib.Data.List.Induction
import AttrFederation.Proofs.Region.Operations
import AttrFederation.Proofs.Source.Enumeration

/-!
# What a cache holds after stores

As long as nothing is evicted, a cache holds under each identifier the record stored last, and each
name leads where the entry that was stored last under it leads (`record?_storeAll`,
`target?_storeAll`).  Stores that are repeated later on do not show (`Stores.eq_of_subset`).
-/

namespace AttrFederation

/-! ## Last ones -/

section Last

variable {α : Type} {p : α → Bool} {xs ys : List α}

theorem findRev?_append : (xs ++ ys).findRev? p = (ys.findRev? p).or (xs.findRev? p) := by
  simp only [List.findRev?_eq_find?_reverse, List.reverse_append, List.find?_append]

/-- What comes again later on is not the last one. -/
theorem findRev?_append_of_subset (h : ∀ x ∈ xs, x ∈ ys) :
    (xs ++ ys).findRev? p = ys.findRev? p := by
  rw [findRev?_append]
  cases hys : ys.findRev? p with
  | some y => rfl
  | none =>
      rw [List.findRev?_eq_find?_reverse, List.find?_eq_none] at hys
      rw [Option.none_or, List.findRev?_eq_find?_reverse, List.find?_eq_none]
      exact fun x hx => hys x (List.mem_reverse.mpr (h x (List.mem_reverse.mp hx)))

end Last

namespace Stored

variable {xs ys : List Stored}

theorem latest?_append_of_subset (h : ∀ x ∈ xs, x ∈ ys) (id : String) :
    latest? (xs ++ ys) id = latest? ys id :=
  findRev?_append_of_subset h

theorem lastNamed?_append_of_subset (h : ∀ x ∈ xs, x ∈ ys) (name : String) :
    lastNamed? (xs ++ ys) name = lastNamed? ys name :=
  findRev?_append_of_subset h

end Stored

/-! ## Regions -/

namespace Region

variable {V : Type} {r : Region V}

/-- A turn of making room counts what it evicts. -/
theorem evictOldest_evictions (r : Region V) :
    r.counts.evictions ≤ r.evictOldest.counts.evictions ∧
      (r.evictOldest.counts.evictions = r.counts.evictions → r.evictOldest.slots = r.slots) := by
  unfold evictOldest
  split
  · exact ⟨Nat.le_refl _, fun _ => rfl⟩
  · unfold evict
    split
    · split
      · exact ⟨Nat.le_succ _, fun h => absurd h (Nat.succ_ne_self _)⟩
      · exact ⟨Nat.le_refl _, fun _ => rfl⟩
    · exact ⟨Nat.le_refl _, fun _ => rfl⟩

theorem makeRoom_evictions (r : Region V) (incoming : Nat) :
    r.counts.evictions ≤ (r.makeRoom incoming).counts.evictions ∧
      ((r.makeRoom incoming).counts.evictions = r.counts.evictions →
        (r.makeRoom incoming).slots = r.slots) := by
  refine makeRoom_induction (P := fun s => r.counts.evictions ≤ s.counts.evictions ∧
    (s.counts.evictions = r.counts.evictions → s.slots = r.slots)) (fun s h => ?_)
    ⟨Nat.le_refl _, fun _ => rfl⟩ incoming
  obtain ⟨hle, hslots⟩ := h
  obtain ⟨hle', hslots'⟩ := evictOldest_evictions s
  refine ⟨Nat.le_trans hle hle', fun heq => ?_⟩
  rw [hslots' (by omega), hslots (by omega)]

variable [Measured V]

/-- A put that evicts nothing leaves the other entries alone. -/
theorem put_evictions (r : Region V) (now : Nat) (key : String) (value : V) :
    r.counts.evictions ≤ (r.put now key value).counts.evictions ∧
      ((r.put now key value).counts.evictions = r.counts.evictions →
        ∀ other, other ≠ key → (r.put now key value).slots.get? other = r.slots.get? other) := by
  cases h : r.slots.get? key with
  | some slot =>
      refine ⟨by rw [put_of_present now value h]; exact Nat.le_refl _, fun _ other hother => ?_⟩
      exact get?_put_of_present now value h hother
  | none =>
      rw [put_of_absent now value h]
      obtain ⟨hle, hslots⟩ := makeRoom_evictions r (slotSize key value)
      refine ⟨hle, fun heq other hother => ?_⟩
      rw [get?_store, if_neg hother, hslots heq]

end Region

/-! ## Caches -/

namespace Cache

/-- The record under an identifier, expired or not. -/
def record? (c : Cache) (id : String) : Option Record :=
  c.principals.bind fun region => (region.slots.get? id).map Slot.value

/-- The records that were evicted so far. -/
def evictions (c : Cache) : Nat :=
  (c.stats .principal).counts.evictions

/-- Storing an entry without an eviction puts its record under its identifier and leaves the other
records alone. -/
theorem record?_storeIn (c : Cache) (x : Stored) (now : Nat) :
    c.evictions ≤ (x.storeIn now c).evictions ∧
      ((x.storeIn now c).evictions = c.evictions → ∀ id, (x.storeIn now c).record? id =
        c.principals.bind fun _ => if x.record.id = id then some x.record else c.record? id) := by
  have hprincipals : (x.storeIn now c).principals =
      c.principals.map fun region => region.put now x.record.id x.record :=
    x.normalized.principals_storeIn x.kind now c
  unfold evictions stats record?
  rw [hprincipals]
  cases c.principals with
  | none => exact ⟨Nat.le_refl _, fun _ _ => rfl⟩
  | some region =>
      obtain ⟨hle, hothers⟩ := region.put_evictions now x.record.id x.record
      refine ⟨hle, fun heq id => ?_⟩
      simp only [Option.map_some, Option.bind_some]
      split
      · next hid =>
          obtain ⟨seq, hget⟩ := region.get?_put_self now x.record.id x.record
          rw [← hid, hget]
          rfl
      · next hid => rw [hothers heq id (Ne.symm hid)]

theorem storeAll_concat (c : Cache) (timed : List (Nat × Stored)) (x : Nat × Stored) :
    c.storeAll (timed ++ [x]) = x.2.storeIn x.1 (c.storeAll timed) := by
  rw [storeAll, List.foldl_append]
  rfl

/-- **What is held after stores**: nothing was evicted on the way if nothing was evicted in all, and
then each identifier has the record stored last. -/
theorem record?_storeAll (c : Cache) (timed : List (Nat × Stored)) :
    c.evictions ≤ (c.storeAll timed).evictions ∧
      (c.storeAll timed).principals.isSome = c.principals.isSome ∧
      ((c.storeAll timed).evictions = c.evictions → ∀ id, (c.storeAll timed).record? id =
        c.principals.bind fun _ =>
          ((Stored.latest? (timed.map Prod.snd) id).map Stored.record).or (c.record? id)) := by
  induction timed using List.reverseRecOn with
  | nil =>
      refine ⟨Nat.le_refl _, rfl, fun _ id => ?_⟩
      show c.record? id = _
      unfold record?
      cases c.principals <;> rfl
  | append_singleton timed x ih =>
      obtain ⟨hle, hsome, hrecord⟩ := ih
      obtain ⟨hle', hrecord'⟩ := (c.storeAll timed).record?_storeIn x.2 x.1
      rw [storeAll_concat]
      refine ⟨Nat.le_trans hle hle', ?_, fun heq id => ?_⟩
      · rw [← hsome]
        exact (congrArg Option.isSome (x.2.normalized.principals_storeIn ..)).trans
          Option.isSome_map
      · rw [hrecord' (by omega), hrecord (by omega), List.map_append, List.map_singleton,
          Stored.latest?_concat]
        cases hprincipals : c.principals with
        | none =>
            rw [hprincipals, Option.isSome_none, Option.isSome_eq_false_iff,
              Option.isNone_iff_eq_none] at hsome
            rw [hsome]
            rfl
        | some region =>
            rw [hprincipals, Option.isSome_some] at hsome
            obtain ⟨region', hregion'⟩ := Option.isSome_iff_exists.mp hsome
            simp only [hregion', Option.bind_some]
            split <;> rfl

/-- Each name leads where the entry stored last under it leads. -/
theorem target?_storeAll (c : Cache) (timed : List (Nat × Stored)) (name : String) :
    (c.storeAll timed).aliases.targets.get? name =
      ((Stored.lastNamed? (timed.map Prod.snd) name).map fun x => ⟨x.record.id, x.kind⟩).or
        (c.aliases.targets.get? name) := by
  induction timed using List.reverseRecOn with
  | nil => rfl
  | append_singleton timed x ih =>
      rw [storeAll_concat, List.map_append, List.map_singleton, Stored.lastNamed?_concat]
      refine (x.2.normalized.get?_targets_storeIn ..).trans ?_
      rw [ih]
      split <;> rfl

namespace Stores

variable {c c₁ c₂ : Cache} {xs ys : List Stored}

/-- **Repeated stores do not show**: if everything that was stored at first is stored again later
on, the same records and aliases are left as without the first stores, as long as nothing is
evicted. -/
theorem eq_of_subset (h₁ : c.Stores (xs ++ ys) c₁) (h₂ : c.Stores ys c₂)
    (hsubset : ∀ x ∈ xs, x ∈ ys) :
    (c₁.evictions = c.evictions → c₂.evictions = c.evictions →
        ∀ id, c₁.record? id = c₂.record? id) ∧
      ∀ name, c₁.aliases.targets.get? name = c₂.aliases.targets.get? name := by
  obtain ⟨timed₁, hxs₁, rfl⟩ := h₁
  obtain ⟨timed₂, rfl, rfl⟩ := h₂
  refine ⟨fun hkept₁ hkept₂ id => ?_, fun name => ?_⟩
  · rw [(c.record?_storeAll timed₁).2.2 hkept₁, (c.record?_storeAll timed₂).2.2 hkept₂, hxs₁,
      Stored.latest?_append_of_subset hsubset]
  · rw [target?_storeAll, target?_storeAll, hxs₁, Stored.lastNamed?_append_of_subset hsubset]

end Stores

end Cache

end AttrFederation
