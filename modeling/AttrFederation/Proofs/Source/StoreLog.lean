import Mathlib.Data.List.Induction
import AttrFederation.Proofs.Region.Operations
import AttrFederation.Proofs.Source.Fetch

/-!
# Where stored units come from

The log of fetches says where a unit in the org-unit region comes from: its origin is the last store
of a batch with its id, with no purge after it (`IsOrigin`).

Stores of refreshes are serial when each of them happens between the purge and the end of its own
refresh and outside every other one, and none is of an older version than those before it
(`SerialStores`).  Then what a region holds is not older than what a refresh has stored, or a query
has stored it after the purge (`SerialStores.not_older`).
-/

namespace AttrFederation

/-! ## Batches in the region -/

/-- The unit of a batch for an id; of several the last one counts. -/
def Batch.unit? (b : Batch) (id : String) : Option OrgUnit :=
  (b.negatives ++ b.records).findRev? fun unit => unit.id = id

namespace Cache

/-- What the org-unit region keeps for an id. -/
def orgUnitSlot (c : Cache) (id : String) : Option (Slot OrgUnit) :=
  c.orgUnits.bind fun region => region.slots.get? id

theorem orgUnitSlot_clear (c : Cache) (id : String) : (c.clear .orgUnit).orgUnitSlot id = none := by
  cases h : c.orgUnits with
  | none => simp [orgUnitSlot, clear, h]
  | some region => simp [orgUnitSlot, clear, h]

/-- Beside the unit itself, storing a unit only takes entries away. -/
theorem of_orgUnitSlot_put {c : Cache} {now : Nat} {unit : OrgUnit} {id : String}
    {slot : Slot OrgUnit} (h : (c.putOrgUnit now unit).orgUnitSlot id = some slot) :
    (unit.id = id ∧ slot.value = unit) ∨ (unit.id ≠ id ∧ c.orgUnitSlot id = some slot) := by
  obtain ⟨region', hregion', hslot⟩ := Option.bind_eq_some_iff.mp h
  obtain ⟨region, hregion, rfl⟩ := Option.map_eq_some_iff.mp hregion'
  by_cases hid : unit.id = id
  · subst hid
    obtain ⟨seq, hself⟩ := region.get?_put_self now unit.id unit
    rw [hself, Option.some.injEq] at hslot
    exact .inl ⟨rfl, by rw [← hslot]⟩
  · refine .inr ⟨hid, Option.bind_eq_some_iff.mpr ⟨region, hregion, ?_⟩⟩
    exact Region.get?_of_get?_put (Ne.symm hid) hslot

/-- After a batch has been stored, the region has the unit of the batch, if it has one for the id,
and otherwise at most what it had. -/
theorem of_orgUnitSlot_storeIn {c : Cache} {now : Nat} {batch : Batch} {id : String}
    {slot : Slot OrgUnit} (h : (batch.storeIn now c).orgUnitSlot id = some slot) :
    batch.unit? id = some slot.value ∨
      (batch.unit? id = none ∧ c.orgUnitSlot id = some slot) := by
  have hunits : ∀ (units : List OrgUnit) (slot : Slot OrgUnit),
      (units.foldl (fun c unit => c.putOrgUnit now unit) c).orgUnitSlot id = some slot →
      (units.findRev? fun unit => unit.id = id) = some slot.value ∨
        ((units.findRev? fun unit => unit.id = id) = none ∧ c.orgUnitSlot id = some slot) := by
    intro units
    induction units using List.reverseRecOn with
    | nil => exact fun slot h => .inr ⟨rfl, h⟩
    | append_singleton units unit ih =>
        intro slot h
        rw [List.foldl_append] at h
        rw [findRev?_concat]
        rcases of_orgUnitSlot_put h with ⟨hid, hvalue⟩ | ⟨hid, hslot⟩
        · exact .inl (by rw [if_pos (decide_eq_true hid), hvalue])
        · rw [if_neg (by simpa using hid)]
          exact ih slot hslot
  exact hunits _ slot h

end Cache

/-! ## Origins -/

/-- The event replaces or removes what the region has for an id. -/
def FetchEvent.Touches (id : String) : FetchEvent → Prop
  | purged => True
  | lowered => False
  | stored _ batch => (batch.unit? id).isSome

instance (id : String) : (event : FetchEvent) → Decidable (event.Touches id)
  | .purged => isTrue trivial
  | .lowered => isFalse not_false
  | .stored _ batch => inferInstanceAs (Decidable ((batch.unit? id).isSome = true))

/-- What the region has for an id was stored by a task, in a batch from the content of a version,
after certain events. -/
def IsOrigin (log : List (Nat × FetchEvent)) (id : String) (before : List (Nat × FetchEvent))
    (i version : Nat) (batch : Batch) : Prop :=
  (batch.unit? id).isSome ∧ ∃ after, log = before ++ (i, .stored version batch) :: after ∧
    ∀ event ∈ after, ¬ event.2.Touches id

section Origins

variable {log before : List (Nat × FetchEvent)} {id : String} {i version : Nat} {batch : Batch}

theorem isOrigin_concat (log : List (Nat × FetchEvent)) (i version : Nat)
    (h : (batch.unit? id).isSome) :
    IsOrigin (log ++ [(i, .stored version batch)]) id log i version batch :=
  ⟨h, [], rfl, fun _ hmem => by contradiction⟩

theorem IsOrigin.mem (h : IsOrigin log id before i version batch) :
    (i, .stored version batch) ∈ log := by
  obtain ⟨-, after, rfl, -⟩ := h
  exact List.mem_append_right _ List.mem_cons_self

theorem IsOrigin.concat (h : IsOrigin log id before i version batch) {event : Nat × FetchEvent}
    (hevent : ¬ event.2.Touches id) : IsOrigin (log ++ [event]) id before i version batch := by
  obtain ⟨hunit, after, rfl, hafter⟩ := h
  refine ⟨hunit, after ++ [event], by rw [List.append_assoc, List.cons_append], fun e hmem => ?_⟩
  rcases List.mem_append.mp hmem with hmem | hmem
  · exact hafter e hmem
  · rw [List.mem_singleton.mp hmem]
    exact hevent

end Origins

/-- Whatever the region has was stored in a batch of the log, unless nothing has been purged yet. -/
def OriginsKnown (log : List (Nat × FetchEvent)) (c : Cache) : Prop :=
  ∀ id slot, c.orgUnitSlot id = some slot →
    (∃ before i version batch, IsOrigin log id before i version batch ∧
      batch.unit? id = some slot.value) ∨ ∀ i, (i, .purged) ∉ log

namespace OriginsKnown

variable {log : List (Nat × FetchEvent)} {c c' : Cache}

theorem of_no_purge (h : ∀ i, (i, .purged) ∉ log) (c : Cache) : OriginsKnown log c :=
  fun _ _ _ => .inr h

theorem kept (h : OriginsKnown log c)
    (hkept : ∀ id slot, c'.orgUnitSlot id = some slot → c.orgUnitSlot id = some slot) :
    OriginsKnown log c' :=
  fun id slot hslot => h id slot (hkept id slot hslot)

theorem purge (log : List (Nat × FetchEvent)) (c : Cache) :
    OriginsKnown log (c.clear .orgUnit) := by
  intro id slot hslot
  rw [Cache.orgUnitSlot_clear] at hslot
  contradiction

theorem lower (h : OriginsKnown log c) (i : Nat) : OriginsKnown (log ++ [(i, .lowered)]) c := by
  intro id slot hslot
  rcases h id slot hslot with ⟨before, j, version, batch, horigin, hunit⟩ | hnone
  · exact .inl ⟨before, j, version, batch, horigin.concat not_false, hunit⟩
  · exact .inr fun j hmem => by simp [hnone] at hmem

theorem store (h : OriginsKnown log c) (i version : Nat) (batch : Batch) (now : Nat) :
    OriginsKnown (log ++ [(i, .stored version batch)]) (batch.storeIn now c) := by
  intro id slot hslot
  rcases Cache.of_orgUnitSlot_storeIn hslot with hunit | ⟨habsent, hslot⟩
  · exact .inl ⟨log, i, version, batch,
      isOrigin_concat log i version (Option.isSome_of_eq_some hunit), hunit⟩
  · have huntouched : ¬ (FetchEvent.stored version batch).Touches id := by
      rw [FetchEvent.Touches, habsent]
      exact Bool.false_ne_true
    rcases h id slot hslot with ⟨before, j, version', batch', horigin, hunit⟩ | hnone
    · exact .inl ⟨before, j, version', batch', horigin.concat huntouched, hunit⟩
    · exact .inr fun j hmem => by simp [hnone] at hmem

end OriginsKnown

/-! ## Serial stores -/

/-- The store of a refresh after certain events is in its place. -/
structure StoreInPlace (isRefresh : Nat → Prop) (before : List (Nat × FetchEvent))
    (i version : Nat) : Prop where
  purged : (i, .purged) ∈ before
  notLowered : (i, .lowered) ∉ before
  first : ∀ v batch, (i, .stored v batch) ∉ before
  /-- Every other refresh that has purged has come to its end. -/
  alone : ∀ j, j ≠ i → (j, .purged) ∈ before → (j, .lowered) ∈ before
  newer : ∀ j v batch, isRefresh j → (j, .stored v batch) ∈ before → v ≤ version

/-- Every store of a refresh is in its place. -/
def SerialStores (isRefresh : Nat → Prop) (log : List (Nat × FetchEvent)) : Prop :=
  ∀ before i version batch after, isRefresh i →
    log = before ++ (i, .stored version batch) :: after → StoreInPlace isRefresh before i version

namespace SerialStores

variable {isRefresh : Nat → Prop} {log : List (Nat × FetchEvent)}

theorem nil : SerialStores isRefresh [] :=
  fun before _ _ _ _ _ hlog => by simp at hlog

theorem concat (h : SerialStores isRefresh log) {i : Nat} {event : FetchEvent}
    (hevent : ∀ version batch, isRefresh i → event = .stored version batch →
      StoreInPlace isRefresh log i version) :
    SerialStores isRefresh (log ++ [(i, event)]) := by
  intro before j version batch after hj hlog
  rcases split_concat hlog with ⟨hlast, rfl⟩ | ⟨after', hlog⟩
  · obtain ⟨rfl, rfl⟩ := Prod.mk.inj hlast
    exact hevent version batch hj rfl
  · exact h before j version batch after' hj hlog

/-- **Nothing older**: when a refresh has stored a batch, what the region has for an id is not from
an older version, or else it was stored after the refresh's purge by a task that is no refresh:
either after the batch, or the batch has no unit for the id. -/
theorem not_older (h : SerialStores isRefresh log) {i version : Nat} {batch : Batch}
    (hi : isRefresh i) (hstored : (i, .stored version batch) ∈ log) {id : String}
    {before : List (Nat × FetchEvent)} {j version' : Nat} {batch' : Batch}
    (horigin : IsOrigin log id before j version' batch') :
    version ≤ version' ∨ (¬ isRefresh j ∧ (i, .purged) ∈ before ∧
      ((i, .stored version batch) ∈ before ∨ batch.unit? id = none)) := by
  obtain ⟨-, after, rfl, hafter⟩ := horigin
  -- the store of the refresh is before the origin, is the origin, or comes after it
  rcases List.mem_append.mp hstored with hbefore | hmem
  · by_cases hj : isRefresh j
    · exact .inl ((h before j version' batch' after hj rfl).newer i version batch hi hbefore)
    · obtain ⟨start, rest, rfl⟩ := List.append_of_mem hbefore
      have hplace := h start i version batch (rest ++ (j, .stored version' batch') :: after) hi
        (by rw [List.append_assoc, List.cons_append])
      exact .inr ⟨hj, List.mem_append_left _ hplace.purged, .inl hbefore⟩
  · rcases List.mem_cons.mp hmem with heq | hmem
    · obtain ⟨-, hevent⟩ := Prod.mk.inj heq
      exact .inl (Nat.le_of_eq (FetchEvent.stored.inj hevent).1)
    · obtain ⟨between, rest, rfl⟩ := List.append_of_mem hmem
      have hplace := h (before ++ (j, .stored version' batch') :: between) i version batch rest hi
        (by rw [List.append_assoc, List.cons_append])
      -- no purge has followed the origin, so the refresh had purged before it
      have hpurged : (i, .purged) ∈ before := by
        rcases List.mem_append.mp hplace.purged with hpurged | hpurged
        · exact hpurged
        · rcases List.mem_cons.mp hpurged with heq | hpurged
          · cases heq
          · exact absurd trivial (hafter _ (List.mem_append_left _ hpurged))
      by_cases hj : isRefresh j
      · -- the origin would lie within the refresh
        exfalso
        by_cases hji : i = j
        · subst hji
          exact hplace.first version' batch' (List.mem_append_right _ List.mem_cons_self)
        · have hlowered := (h before j version' batch' _ hj rfl).alone i hji hpurged
          exact hplace.notLowered (List.mem_append_left _ hlowered)
      · refine .inr ⟨hj, hpurged, .inr ?_⟩
        have hnot := hafter _ hmem
        exact Option.not_isSome_iff_eq_none.mp hnot

end SerialStores

end AttrFederation
