import Mathlib.Data.String.Basic
import AttrFederation.Proofs.Region.Bookkeeping

/-!
# The byte budget

A region makes room only for a key that it does not have.  Right after such a put its entries fit
the budget, unless the new one is alone (`withinBudget_put_of_absent`).  A put of a present key makes
no room, so entries may outgrow the budget by what overwrites add to them:

* `not_withinBudget_of_overwrite` — two small entries, one overwritten by a large value;
* `sumOf_size_le_heapBytes_add_growth` — the budget is exceeded at most by what the entries have
  grown since the last put of an absent key.
-/

namespace AttrFederation

/-! ## Totals over a list -/

section Totals

variable {α : Type} {l l' : List α}

theorem total_map_le {f g : α → Nat} (h : ∀ a ∈ l, f a ≤ g a) :
    total (l.map f) ≤ total (l.map g) := by
  induction l with
  | nil => exact Nat.le_refl 0
  | cons a l ih =>
      have hhead := h a List.mem_cons_self
      have htail := ih fun b hb => h b (List.mem_cons_of_mem a hb)
      simp only [List.map_cons, total_cons]
      omega

theorem total_map_add (l : List α) (f g : α → Nat) :
    total (l.map fun a => f a + g a) = total (l.map f) + total (l.map g) := by
  induction l with
  | nil => rfl
  | cons a l ih =>
      simp only [List.map_cons, total_cons, ih]
      omega

theorem total_map_le_of_sublist (h : l.Sublist l') (f : α → Nat) :
    total (l.map f) ≤ total (l'.map f) := by
  induction h with
  | slnil => exact Nat.le_refl 0
  | cons a _ ih =>
      simp only [List.map_cons, total_cons]
      omega
  | cons_cons a _ ih =>
      simp only [List.map_cons, total_cons]
      omega

end Totals

namespace Region

variable {V : Type} [Measured V] {r : Region V}

/-- The entries fit the budget, or there is just one. -/
def WithinBudget (r : Region V) : Prop :=
  r.slots.sumOf Slot.size ≤ r.settings.heapBytes ∨ r.size = 1

/-- The bytes that a key's entry counts for, none without an entry. -/
def sizeAt (r : Region V) (key : String) : Nat :=
  ((r.slots.get? key).map Slot.size).getD 0

/-- By how much the entries of a region have outgrown those that an earlier one had for their
keys. -/
def growthSince (earlier r : Region V) : Nat :=
  total (r.slots.keys.map fun key => r.sizeAt key - earlier.sizeAt key)

/-- The request puts a key that the region does not have. -/
def adds (r : Region V) : Request V → Bool
  | .put key _ => !r.contains key
  | _ => false

theorem exists_put_of_adds {W : Type} {s : Region W} {request : Request W}
    (h : s.adds request = true) :
    ∃ key value, request = .put key value ∧ s.slots.get? key = none := by
  cases request with
  | put key value => exact ⟨key, value, rfl, contains_eq_false_iff.mp (by simpa [adds] using h)⟩
  | get key => contradiction
  | contains key => contradiction
  | remove key => contradiction
  | clear => contradiction

/-- The region right after the last request of a history that added a key, or a marked one if there
was none. -/
def afterLastAddition (marked r : Region V) : History V → Region V
  | [] => marked
  | (now, request) :: rest =>
    let next := r.step now request
    afterLastAddition (if r.adds request then next else marked) next rest

/-! ## Adding a key -/

/-- The entries without those that eviction took fit beside the new one, or there are none. -/
theorem makeRoom_fits (h : r.Consistent) (incoming : Nat) :
    (r.makeRoom incoming).slots.sumOf Slot.size + incoming ≤ r.settings.heapBytes ∨
      (r.makeRoom incoming).size = 0 := by
  have hroom := h.makeRoom incoming
  rcases hasRoom_makeRoom r incoming with hfits | hage
  · left
    simp only [hasRoom, Bool.and_eq_true, decide_eq_true_eq, settings_makeRoom] at hfits
    rw [← hroom.bytes_eq]
    exact hfits.2
  · exact .inr (hroom.size_eq_zero_of_age_nil hage)

/-- **Adding within the budget**: a put of an absent key leaves the entries within the budget,
whatever they were before. -/
theorem withinBudget_put_of_absent (h : r.Consistent) (now : Nat) {key : String} (value : V)
    (hget : r.slots.get? key = none) : (r.put now key value).WithinBudget := by
  rw [put_of_absent now value hget]
  generalize hincoming : slotSize key value = incoming
  have hroom := h.makeRoom incoming
  have habsent : (r.makeRoom incoming).slots.erase key = (r.makeRoom incoming).slots :=
    Assoc.erase_of_absent (get?_makeRoom_of_absent hget incoming)
  rw [WithinBudget, settings_store, settings_makeRoom]
  rcases makeRoom_fits h incoming with hfits | hnone
  · left
    simp only [store, Assoc.sumOf_set hroom.wellKeyed, habsent]
    exact hfits
  · right
    simp only [store, size, Assoc.size_set hroom.wellKeyed, habsent] at hnone ⊢
    omega

/-! ## Everything else -/

/-- A request that adds no key leaves a part of the keys. -/
theorem keys_step_sublist (now : Nat) {request : Request V} (h : r.adds request = false) :
    (r.step now request).slots.keys.Sublist r.slots.keys := by
  cases request with
  | put key value =>
      obtain ⟨slot, hget⟩ := contains_iff.mp (by simpa [adds] using h)
      rw [step, put_of_present now value hget]
      have hkeys := Assoc.keys_set_of_mem (m := r.slots)
        (⟨value, now, slotSize key value, r.nextSeq⟩ : Slot V) (Assoc.mem_keys_iff.mpr ⟨slot, hget⟩)
      exact hkeys ▸ List.Sublist.refl _
  | get key =>
      cases hget : r.slots.get? key with
      | none => rw [step, get_of_absent now hget]
      | some slot =>
          cases hold : r.expired now slot.cachedAt with
          | false => rw [step, get_of_live hget hold]
          | true =>
              rw [step, get_of_expired hget hold]
              exact Assoc.keys_erase_sublist ..
  | contains key => exact .refl _
  | remove key =>
      rw [step, slots_remove]
      exact Assoc.keys_erase_sublist ..
  | clear => exact List.nil_sublist _

/-! ## Histories -/

/-- The entries of a region would fit the budget at the sizes that a marked region has for their
keys, unless there is at most one. -/
def Covered (marked r : Region V) : Prop :=
  total (r.slots.keys.map marked.sizeAt) ≤ r.settings.heapBytes ∨ r.size ≤ 1

theorem covered_self (h : r.Consistent) (hwithin : r.WithinBudget) : Covered r r := by
  rcases hwithin with hsum | hone
  · left
    have hkeys := Assoc.total_map_keys h.wellKeyed Slot.size
    exact hkeys.trans_le hsum
  · exact .inr (Nat.le_of_eq hone)

/-- A request leaves a region covered, by itself if it added a key. -/
theorem Covered.step {marked : Region V} (hcovered : Covered marked r) (h : r.Consistent)
    (now : Nat) (request : Request V) :
    Covered (if r.adds request then r.step now request else marked) (r.step now request) := by
  cases hadds : r.adds request with
  | false =>
      have hkeys := keys_step_sublist now hadds
      rw [if_neg Bool.false_ne_true, Covered, settings_step]
      rcases hcovered with hsum | hone
      · exact .inl (Nat.le_trans (total_map_le_of_sublist hkeys _) hsum)
      · right
        have hle := hkeys.length_le
        rw [Assoc.length_keys, Assoc.length_keys] at hle
        exact Nat.le_trans hle hone
  | true =>
      rw [if_pos rfl]
      obtain ⟨key, value, rfl, hget⟩ := exists_put_of_adds hadds
      exact covered_self (h.step now _) (withinBudget_put_of_absent h now value hget)

/-- After every history a region is covered by what it was after the last added key. -/
theorem Covered.run {marked : Region V} (hcovered : Covered marked r) (h : r.Consistent)
    (history : History V) :
    Covered (afterLastAddition marked r history) (r.run history) := by
  induction history generalizing marked r with
  | nil => exact hcovered
  | cons request rest ih =>
      obtain ⟨now, request⟩ := request
      exact ih (hcovered.step h now request) (h.step now request)

/-- What is covered has outgrown the budget by its growth only. -/
theorem Covered.sumOf_size_le {marked : Region V} (hcovered : Covered marked r)
    (h : r.Consistent) :
    r.slots.sumOf Slot.size ≤ r.settings.heapBytes + marked.growthSince r ∨ r.size = 1 := by
  rcases hcovered with hsum | hone
  · left
    have hgrown : total (r.slots.keys.map r.sizeAt) ≤
        total (r.slots.keys.map fun key => marked.sizeAt key + (r.sizeAt key - marked.sizeAt key)) :=
      total_map_le fun key _ => by omega
    rw [total_map_add] at hgrown
    calc
      r.slots.sumOf Slot.size = total (r.slots.keys.map r.sizeAt) :=
        (Assoc.total_map_keys h.wellKeyed Slot.size).symm
      _ ≤ total (r.slots.keys.map marked.sizeAt) + marked.growthSince r := hgrown
      _ ≤ r.settings.heapBytes + marked.growthSince r := Nat.add_le_add_right hsum _
  · rcases Nat.le_one_iff_eq_zero_or_eq_one.mp hone with hnone | hone
    · left
      have hempty : r.slots.entries = [] := List.length_eq_zero_iff.mp hnone
      rw [Assoc.sumOf, hempty]
      exact Nat.zero_le _
    · exact .inr hone

/-- **Byte budget**: after every history, the entries exceed the budget at most by what they have
grown, through overwrites, since the last put of an absent key; or there is just one. -/
theorem sumOf_size_le_heapBytes_add_growth (settings : RegionSettings) (history : History V) :
    let r := (Region.empty settings).run history
    let marked := afterLastAddition (Region.empty settings) (Region.empty settings) history
    r.slots.sumOf Slot.size ≤ settings.heapBytes + marked.growthSince r ∨ r.size = 1 := by
  intro r marked
  have hempty : Covered (Region.empty settings : Region V) (Region.empty settings) :=
    .inl (Nat.zero_le _)
  have hcovered : Covered marked r := hempty.run (consistent_empty settings) history
  have h := hcovered.sumOf_size_le (consistent_run_empty settings history)
  rwa [settings_run] at h

/-- The bytes of a text of one repeated ASCII letter. -/
theorem utf8ByteSize_replicate_x (n : Nat) :
    (String.ofList (List.replicate n 'x')).utf8ByteSize = n := by
  rw [String.utf8ByteSize_ofList]
  induction n with
  | zero => rfl
  | succ n ih =>
      rw [List.replicate_succ, String.utf8Len_cons, ih]
      rfl

/-- Two small entries, and the first overwritten with a text. -/
theorem not_withinBudget_of_long_text {text : String} (htext : 1048576 ≤ text.utf8ByteSize) :
    ¬ ((Region.empty { heapMb := 1, maxObjects := 10, ttl := .infinite }).run
        [(0, .put "A" (.blank "A")), (0, .put "B" (.blank "B")),
          (0, .put "A" ((OrgUnit.blank "A").push .storageLocation text))]).WithinBudget := by
  generalize hregion : (Region.empty { heapMb := 1, maxObjects := 10, ttl := .infinite }).run
    [(0, .put "A" (.blank "A")), (0, .put "B" (.blank "B")),
      (0, .put "A" ((OrgUnit.blank "A").push .storageLocation text))] = r
  have hconsistent : r.Consistent := hregion ▸ consistent_run_empty _ _
  have hsize : r.size = 2 := by rw [← hregion]; rfl
  have hbudget : r.settings.heapBytes = 1048576 := by
    rw [← hregion, settings_run]
    decide
  obtain ⟨seq, hget⟩ : ∃ seq, r.slots.get? "A" = some
      ⟨(OrgUnit.blank "A").push .storageLocation text, 0,
        slotSize "A" ((OrgUnit.blank "A").push .storageLocation text), seq⟩ := by
    rw [← hregion]
    exact get?_put_self ..
  have hslot : slotSize "A" ((OrgUnit.blank "A").push .storageLocation text) =
      1 + (text.utf8ByteSize + 24) + 1 + 64 := by
    change 1 + (text.utf8ByteSize + 24 + 0 + 0) + 1 + 64 = _
    rfl
  have hle := Assoc.figure_le_sumOf hconsistent.wellKeyed Slot.size hget
  have := hslot.symm.trans_le hle
  rintro (hsum | hone)
  · rw [hbudget] at hsum
    omega
  · omega

/-- **A budget outgrown**: of two small entries one is overwritten by a value of a megabyte.  Nothing
is evicted, and the two take more than the budget. -/
theorem not_withinBudget_of_overwrite :
    ¬ ((Region.empty { heapMb := 1, maxObjects := 10, ttl := .infinite }).run
        [(0, .put "A" (.blank "A")), (0, .put "B" (.blank "B")),
          (0, .put "A" ((OrgUnit.blank "A").push .storageLocation
            (String.ofList (List.replicate 1048576 'x'))))]).WithinBudget :=
  not_withinBudget_of_long_text (Nat.le_of_eq (utf8ByteSize_replicate_x 1048576).symm)

end Region

end AttrFederation
