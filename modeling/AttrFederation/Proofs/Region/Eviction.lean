import Mathlib.Logic.Function.Iterate
import AttrFederation.Cache.Region

/-!
# Making room

Room is made by evicting the oldest entry again and again.  `evictOldest` is one such turn, and
`makeRoom_eq_iterate` says what making room is in these terms: so many turns, none of them taken
while there was room, until there is room or nothing is left to evict.

What a turn keeps is therefore kept by making room (`makeRoom_induction`).
-/

namespace AttrFederation.Region

variable {V : Type}

/-! ## One turn -/

/-- The region after its oldest entry has gone. -/
def evictOldest (r : Region V) : Region V :=
  match r.age with
  | [] => r
  | (seq, key) :: younger => r.evict seq key younger

theorem evictOldest_of_age_nil {r : Region V} (h : r.age = []) : r.evictOldest = r := by
  rw [evictOldest, h]

theorem evictOldest_of_age_cons {r : Region V} {seq : Nat} {key : String}
    {younger : List (Nat × String)} (h : r.age = (seq, key) :: younger) :
    r.evictOldest = r.evict seq key younger := by
  rw [evictOldest, h]

@[simp] theorem age_evict (r : Region V) (seq : Nat) (key : String)
    (younger : List (Nat × String)) : (r.evict seq key younger).age = younger := by
  unfold evict
  split
  · split <;> rfl
  · rfl

@[simp] theorem settings_evict (r : Region V) (seq : Nat) (key : String)
    (younger : List (Nat × String)) : (r.evict seq key younger).settings = r.settings := by
  unfold evict
  split
  · split <;> rfl
  · rfl

/-- A turn only takes entries away. -/
theorem get?_of_get?_evict {r : Region V} {seq : Nat} {key : String}
    {younger : List (Nat × String)} {other : String} {slot : Slot V}
    (h : (r.evict seq key younger).slots.get? other = some slot) :
    r.slots.get? other = some slot := by
  unfold evict at h
  split at h
  · split at h
    · rw [Assoc.get?_erase] at h
      split at h
      · contradiction
      · exact h
    · exact h
  · exact h

@[simp] theorem settings_evictOldest (r : Region V) : r.evictOldest.settings = r.settings := by
  unfold evictOldest
  split
  · rfl
  · exact settings_evict ..

theorem get?_of_get?_evictOldest {r : Region V} {key : String} {slot : Slot V}
    (h : r.evictOldest.slots.get? key = some slot) : r.slots.get? key = some slot := by
  unfold evictOldest at h
  split at h
  · exact h
  · exact get?_of_get?_evict h

/-! ## All turns -/

/-- The loop over the ages of a region is so many turns. -/
theorem evictUntilRoom_eq_iterate (incoming : Nat) (r : Region V) :
    ∃ turns ≤ r.age.length, evictUntilRoom incoming r.age r = evictOldest^[turns] r ∧
      (∀ n < turns, (evictOldest^[n] r).hasRoom incoming = false) ∧
      ((evictOldest^[turns] r).hasRoom incoming = true ∨ (evictOldest^[turns] r).age = []) := by
  generalize hage : r.age = ages
  induction ages generalizing r with
  | nil => exact ⟨0, Nat.le_refl 0, rfl, by simp, .inr hage⟩
  | cons oldest younger ih =>
      obtain ⟨seq, key⟩ := oldest
      by_cases hroom : r.hasRoom incoming = true
      · exact ⟨0, Nat.zero_le _, by rw [evictUntilRoom, if_pos hroom]; rfl, by simp, .inl hroom⟩
      · have hturn := evictOldest_of_age_cons hage
        obtain ⟨turns, hle, heq, hnone, hend⟩ := ih (r.evict seq key younger) (age_evict ..)
        refine ⟨turns + 1, Nat.succ_le_succ hle, ?_, ?_, ?_⟩
        · rw [evictUntilRoom, if_neg hroom, heq, Function.iterate_succ_apply, hturn]
        · intro n hn
          cases n with
          | zero => simpa using hroom
          | succ n =>
              rw [Function.iterate_succ_apply, hturn]
              exact hnone n (by omega)
        · rwa [Function.iterate_succ_apply, hturn]

/-- **Making room**: the oldest entries go, one by one, as long as there is no room and there is an
entry left. -/
theorem makeRoom_eq_iterate (r : Region V) (incoming : Nat) :
    ∃ turns ≤ r.age.length, r.makeRoom incoming = evictOldest^[turns] r ∧
      (∀ n < turns, (evictOldest^[n] r).hasRoom incoming = false) ∧
      ((r.makeRoom incoming).hasRoom incoming = true ∨ (r.makeRoom incoming).age = []) := by
  obtain ⟨turns, hle, heq, hnone, hend⟩ := evictUntilRoom_eq_iterate incoming r
  exact ⟨turns, hle, heq, hnone, by rwa [makeRoom, heq]⟩

/-- Room is made in the end, unless nothing is left to evict. -/
theorem hasRoom_makeRoom (r : Region V) (incoming : Nat) :
    (r.makeRoom incoming).hasRoom incoming = true ∨ (r.makeRoom incoming).age = [] := by
  obtain ⟨_, _, _, _, hend⟩ := makeRoom_eq_iterate r incoming
  exact hend

/-- What a turn keeps, making room keeps. -/
theorem makeRoom_induction {P : Region V → Prop} (hturn : ∀ r, P r → P r.evictOldest)
    {r : Region V} (h : P r) (incoming : Nat) : P (r.makeRoom incoming) := by
  obtain ⟨turns, _, heq, _⟩ := makeRoom_eq_iterate r incoming
  rw [heq]
  exact Function.Iterate.rec P h hturn turns

@[simp] theorem settings_makeRoom (r : Region V) (incoming : Nat) :
    (r.makeRoom incoming).settings = r.settings :=
  makeRoom_induction (P := fun s => s.settings = r.settings)
    (fun _ h => (settings_evictOldest _).trans h) rfl incoming

/-- Making room only takes entries away. -/
theorem get?_of_get?_makeRoom {r : Region V} {incoming : Nat} {key : String} {slot : Slot V}
    (h : (r.makeRoom incoming).slots.get? key = some slot) : r.slots.get? key = some slot :=
  makeRoom_induction (P := fun s => s.slots.get? key = some slot → r.slots.get? key = some slot)
    (fun _ ih h => ih (get?_of_get?_evictOldest h)) id incoming h

/-- An absent key stays absent. -/
theorem get?_makeRoom_of_absent {r : Region V} {key : String} (h : r.slots.get? key = none)
    (incoming : Nat) : (r.makeRoom incoming).slots.get? key = none := by
  refine Option.eq_none_iff_forall_ne_some.mpr fun slot hslot => ?_
  rw [get?_of_get?_makeRoom hslot] at h
  contradiction

end AttrFederation.Region
