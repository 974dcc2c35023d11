import Mathlib.Data.List.Induction
import Mathlib.Data.List.Nodup
import AttrFederation.Assoc
import AttrFederation.Total

/-!
# Keys of associations and sums over them

An association is well keyed when no two of its pairs share a key: then its pairs are exactly what
`get?` shows.  `set` and `erase` keep it so.  Pairs with distinct keys are an association as they
are (`entries_ofList`).

`sumOf` adds up a figure over all values, with one equation for each operation:

* `sumOf_erase_add` — erasing a key takes its value's figure away;
* `sumOf_set` — setting a key erases it first and adds the new figure.

The number of pairs is such a sum.
-/

namespace AttrFederation.Assoc

variable {β : Type}

/-- No two pairs share a key. -/
def WellKeyed (m : Assoc β) : Prop := m.keys.Nodup

/-- A figure of the values, added up over all pairs. -/
def sumOf (m : Assoc β) (figure : β → Nat) : Nat :=
  total (m.entries.map fun entry => figure entry.2)

/-! ## Keys -/

@[simp] theorem entries_empty : (∅ : Assoc β).entries = [] := rfl

@[simp] theorem get?_emptyCollection (key : String) : (∅ : Assoc β).get? key = none := rfl

@[simp] theorem sumOf_empty (figure : β → Nat) : (∅ : Assoc β).sumOf figure = 0 := rfl

@[simp] theorem size_empty : (∅ : Assoc β).size = 0 := rfl

theorem wellKeyed_empty : (∅ : Assoc β).WellKeyed := List.nodup_nil

/-- A key without a value is in no pair. -/
theorem get?_eq_none_iff {m : Assoc β} {key : String} : m.get? key = none ↔ key ∉ m.keys := by
  rw [get?, List.lookup_eq_none_iff, keys, List.mem_map]
  constructor
  · rintro h ⟨entry, hmem, rfl⟩
    simpa using h entry hmem
  · intro h entry hmem
    simp only [bne_iff_ne, ne_eq]
    rintro rfl
    exact h ⟨entry, hmem, rfl⟩

theorem mem_keys_iff {m : Assoc β} {key : String} :
    key ∈ m.keys ↔ ∃ value, m.get? key = some value := by
  rw [← Option.ne_none_iff_exists', Ne, get?_eq_none_iff, Classical.not_not]

/-- The pairs of a well-keyed association are what it shows. -/
theorem mem_entries_iff {m : Assoc β} (h : m.WellKeyed) {key : String} {value : β} :
    (key, value) ∈ m.entries ↔ m.get? key = some value := by
  obtain ⟨entries⟩ := m
  unfold WellKeyed keys at h
  unfold get?
  induction entries with
  | nil => simp
  | cons entry rest ih =>
      obtain ⟨k, v⟩ := entry
      rw [List.map_cons, List.nodup_cons] at h
      rw [List.mem_cons, lookup_cons_eq, ih h.2]
      by_cases hk : key = k
      · subst hk
        have hnone : rest.lookup key = none :=
          get?_eq_none_iff (m := ⟨rest⟩).mpr h.1
        simp [hnone, eq_comm]
      · simp [hk]

/-- The keys after a pair has been set. -/
theorem keys_setEntry (key : String) (value : β) (entries : List (String × β)) :
    (setEntry key value entries).map Prod.fst =
      if key ∈ entries.map Prod.fst then entries.map Prod.fst
      else entries.map Prod.fst ++ [key] := by
  induction entries with
  | nil => simp [setEntry]
  | cons entry rest ih =>
      by_cases hk : entry.1 = key
      · simp [setEntry, hk]
      · have hk' : key ≠ entry.1 := Ne.symm hk
        simp only [setEntry, if_neg hk, List.map_cons, ih, List.mem_cons, hk', false_or]
        split <;> simp

/-- Setting a present key keeps the keys. -/
theorem keys_set_of_mem {m : Assoc β} {key : String} (value : β) (h : key ∈ m.keys) :
    (m.set key value).keys = m.keys :=
  (keys_setEntry key value m.entries).trans (if_pos h)

theorem keys_erase_sublist (m : Assoc β) (key : String) : (m.erase key).keys.Sublist m.keys :=
  List.filter_sublist.map Prod.fst

/-- Setting a key keeps an association well keyed. -/
theorem WellKeyed.set {m : Assoc β} (h : m.WellKeyed) (key : String) (value : β) :
    (m.set key value).WellKeyed := by
  unfold WellKeyed keys Assoc.set at *
  rw [keys_setEntry]
  split
  · exact h
  · next hk =>
      rw [List.nodup_append]
      refine ⟨h, by simp, ?_⟩
      rintro k hmem other hother rfl
      rw [List.mem_singleton] at hother
      exact hk (hother ▸ hmem)

/-- Erasing a key keeps an association well keyed. -/
theorem WellKeyed.erase {m : Assoc β} (h : m.WellKeyed) (key : String) :
    (m.erase key).WellKeyed :=
  h.sublist (keys_erase_sublist m key)

/-- A value is found if no other has its key. -/
theorem lookup_eq_some {entries : List (String × β)} {key : String} {value : β}
    (hmem : (key, value) ∈ entries) (hunique : ∀ other, (key, other) ∈ entries → other = value) :
    entries.lookup key = some value := by
  induction entries with
  | nil => exact nomatch hmem
  | cons entry rest ih =>
      obtain ⟨first, found⟩ := entry
      rw [lookup_cons_eq]
      split
      · next heq =>
          subst heq
          rw [hunique found List.mem_cons_self]
      · next hne =>
          refine ih ?_ fun other hother => hunique other (List.mem_cons_of_mem _ hother)
          exact (List.mem_cons.mp hmem).resolve_left fun heq => hne (Prod.mk.inj heq).1

/-! ## Maps from lists -/

/-- A new key comes last. -/
theorem entries_set_of_absent {m : Assoc β} {key : String} (h : m.get? key = none) (value : β) :
    (m.set key value).entries = m.entries ++ [(key, value)] := by
  obtain ⟨entries⟩ := m
  rw [get?_eq_none_iff, keys] at h
  change setEntry key value entries = entries ++ [(key, value)]
  induction entries with
  | nil => rfl
  | cons entry rest ih =>
      rw [List.map_cons, List.mem_cons, not_or] at h
      rw [setEntry, if_neg (Ne.symm h.1), ih h.2, List.cons_append]

theorem ofList_concat (pairs : List (String × β)) (pair : String × β) :
    ofList (pairs ++ [pair]) = (ofList pairs).set pair.1 pair.2 :=
  List.foldl_append

/-- Pairs with distinct keys are kept as they are. -/
theorem entries_ofList {pairs : List (String × β)} (h : (pairs.map Prod.fst).Nodup) :
    (ofList pairs).entries = pairs := by
  induction pairs using List.reverseRecOn with
  | nil => rfl
  | append_singleton pairs pair ih =>
      rw [List.map_append, List.map_singleton, ← List.concat_eq_append, List.nodup_concat] at h
      have hpairs := ih h.2
      have habsent : (ofList pairs).get? pair.1 = none := by
        rw [get?_eq_none_iff, keys, hpairs]
        exact h.1
      rw [ofList_concat, entries_set_of_absent habsent, hpairs]

/-! ## Sums -/

/-- An erased key without a value changes nothing. -/
theorem erase_of_absent {m : Assoc β} {key : String} (h : m.get? key = none) :
    m.erase key = m := by
  rw [get?_eq_none_iff] at h
  have hall : ∀ entry ∈ m.entries, entry.1 ≠ key := by
    rintro entry hmem rfl
    exact h (List.mem_map_of_mem hmem)
  unfold erase
  rw [List.filter_eq_self.mpr (by simpa using hall)]

/-- **Sum after erasing**: the erased value's figure is what the sum has lost. -/
theorem sumOf_erase_add {m : Assoc β} (h : m.WellKeyed) (figure : β → Nat) {key : String}
    {value : β} (hget : m.get? key = some value) :
    (m.erase key).sumOf figure + figure value = m.sumOf figure := by
  obtain ⟨entries⟩ := m
  unfold sumOf
  unfold WellKeyed keys at h
  induction entries with
  | nil => simp [get?] at hget
  | cons entry rest ih =>
      obtain ⟨k, v⟩ := entry
      rw [List.map_cons, List.nodup_cons] at h
      rw [get?, lookup_cons_eq] at hget
      by_cases hk : key = k
      · subst hk
        rw [if_pos rfl, Option.some.injEq] at hget
        have hrest : erase ⟨rest⟩ key = ⟨rest⟩ := erase_of_absent (get?_eq_none_iff.mpr h.1)
        have hfilter : (rest.filter fun entry => entry.1 ≠ key) = rest := congrArg entries hrest
        simp only [erase, ne_eq, not_true_eq_false, decide_false, Bool.false_eq_true,
          not_false_eq_true, List.filter_cons_of_neg, List.map_cons, total_cons, hget]
        rw [hfilter, Nat.add_comm]
      · rw [if_neg hk] at hget
        have ih' := ih h.2 hget
        have hk' : k ≠ key := Ne.symm hk
        simp only [erase, hk', ne_eq, not_false_eq_true, decide_true, List.filter_cons_of_pos,
          List.map_cons, total_cons] at ih' ⊢
        omega

/-- **Sum after setting**: whatever the key had makes way for the new figure. -/
theorem sumOf_set {m : Assoc β} (h : m.WellKeyed) (figure : β → Nat) (key : String) (value : β) :
    (m.set key value).sumOf figure = (m.erase key).sumOf figure + figure value := by
  obtain ⟨entries⟩ := m
  unfold sumOf
  unfold WellKeyed keys at h
  induction entries with
  | nil => simp [set, erase, setEntry]
  | cons entry rest ih =>
      obtain ⟨k, v⟩ := entry
      rw [List.map_cons, List.nodup_cons] at h
      have ih' := ih h.2
      by_cases hk : k = key
      · subst hk
        have hrest : erase ⟨rest⟩ k = ⟨rest⟩ := erase_of_absent (get?_eq_none_iff.mpr h.1)
        have hfilter : (rest.filter fun entry => entry.1 ≠ k) = rest := congrArg entries hrest
        simp only [set, setEntry, erase, ne_eq, not_true_eq_false, decide_false, if_pos,
          Bool.false_eq_true, not_false_eq_true, List.filter_cons_of_neg, List.map_cons,
          total_cons]
        rw [hfilter, Nat.add_comm]
      · simp only [set, setEntry, erase, hk, if_neg, ne_eq, not_false_eq_true, decide_true,
          List.filter_cons_of_pos, List.map_cons, total_cons] at ih' ⊢
        omega

/-- A sum can be taken key by key. -/
theorem total_map_keys {m : Assoc β} (h : m.WellKeyed) (figure : β → Nat) :
    total (m.keys.map fun key => ((m.get? key).map figure).getD 0) = m.sumOf figure := by
  rw [keys, List.map_map, sumOf]
  congr 1
  refine List.map_congr_left fun entry hmem => ?_
  have hget := (mem_entries_iff h).mp hmem
  simp [hget]

/-- The number of pairs is the sum that counts one for each. -/
theorem size_eq_sumOf (m : Assoc β) : m.size = m.sumOf fun _ => 1 := by
  obtain ⟨entries⟩ := m
  unfold size sumOf
  induction entries with
  | nil => rfl
  | cons entry rest ih =>
      simp only [List.length_cons, List.map_cons, total_cons]
      simp only at ih
      omega

theorem length_keys (m : Assoc β) : m.keys.length = m.size :=
  List.length_map ..

/-- Setting a key leaves one pair for it. -/
theorem size_set {m : Assoc β} (h : m.WellKeyed) (key : String) (value : β) :
    (m.set key value).size = (m.erase key).size + 1 := by
  rw [size_eq_sumOf, size_eq_sumOf, sumOf_set h]

/-- A value's figure is part of the sum. -/
theorem figure_le_sumOf {m : Assoc β} (h : m.WellKeyed) (figure : β → Nat) {key : String}
    {value : β} (hget : m.get? key = some value) : figure value ≤ m.sumOf figure := by
  have := sumOf_erase_add h figure hget
  omega

/-- Only the empty association has no values. -/
theorem size_eq_zero_iff {m : Assoc β} : m.size = 0 ↔ ∀ key, m.get? key = none := by
  constructor
  · intro h key
    rw [size, List.length_eq_zero_iff] at h
    rw [get?, h, List.lookup_nil]
  · intro h
    obtain ⟨entries⟩ := m
    cases entries with
    | nil => rfl
    | cons entry rest =>
        have := h entry.1
        rw [get?, lookup_cons_eq, if_pos rfl] at this
        contradiction

end AttrFederation.Assoc
