import Mathlib.Data.List.Dedup
import AttrFederation.Proofs.Region.PutAll

/-!
# The oldest entries go first, and no more than needed

The keys of a region stand in the order of their latest puts, and a put of an absent key evicts
from the front of that order.

* `queue_run` — the age index lists exactly the keys with an entry, by their latest puts in the
  history;
* `Consistent.makesWay` — making room takes the shortest front part whose entries have to go, and
  all of them if no part is enough;
* `Consistent.put_of_absent_makesWay` — so does a put of an absent key, and the key comes last;
* `size_run_le` — no history leads to more entries than the bound allows, or than one.

Main result: `put_evicts_oldest`, for every history and every put after it.  The order is taken from
the requests alone, so it does not rest on the sequence numbers that overwriting reassigns.  An
entry that is too old but was not read since then is an entry like any other.
-/

namespace AttrFederation

/-- Of a list with one more member, that member is the last to occur. -/
theorem dedup_concat {α : Type} [DecidableEq α] (xs : List α) (x : α) :
    (xs ++ [x]).dedup = xs.dedup.filter (· ≠ x) ++ [x] := by
  induction xs with
  | nil => simp
  | cons y ys ih =>
      by_cases hmem : y ∈ ys
      · rw [List.cons_append, List.dedup_cons_of_mem (List.mem_append_left _ hmem), ih,
          List.dedup_cons_of_mem hmem]
      · rw [List.dedup_cons_of_notMem hmem]
        by_cases hy : y = x
        · rw [List.cons_append, List.dedup_cons_of_mem (by simp [hy]), ih,
            List.filter_cons_of_neg (by simpa using hy)]
        · rw [List.cons_append, List.dedup_cons_of_notMem (by simp [hmem, hy]), ih,
            List.filter_cons_of_pos (by simpa using hy), List.cons_append]

/-- A part of a list without repetitions is what the list has of its members. -/
theorem eq_filter_of_sublist {α : Type} {xs ys : List α} (h : xs.Sublist ys) (hys : ys.Nodup)
    {p : α → Bool} (hp : ∀ y ∈ ys, p y = true ↔ y ∈ xs) : xs = ys.filter p := by
  induction h with
  | slnil => rfl
  | @cons xs ys y hsub ih =>
      rw [List.nodup_cons] at hys
      have hnot : ¬ p y = true := fun hy =>
        hys.1 (hsub.subset ((hp y List.mem_cons_self).mp hy))
      rw [List.filter_cons_of_neg hnot]
      exact ih hys.2 fun z hz => hp z (List.mem_cons_of_mem y hz)
  | @cons_cons xs ys y hsub ih =>
      rw [List.nodup_cons] at hys
      rw [List.filter_cons_of_pos ((hp y List.mem_cons_self).mpr List.mem_cons_self),
        ← ih hys.2 fun z hz => ?_]
      have hne : z ≠ y := by
        rintro rfl
        exact hys.1 hz
      rw [hp z (List.mem_cons_of_mem y hz), List.mem_cons, or_iff_right hne]

namespace Region

variable {V : Type}

/-! ## The order of the latest puts -/

/-- The key that a request puts. -/
def Request.putKey? : Request V → Option String
  | .put key _ => some key
  | _ => none

theorem Request.exists_eq_put {request : Request V} {key : String}
    (h : request.putKey? = some key) : ∃ value, request = .put key value := by
  cases request with
  | put other value => exact ⟨value, congrArg (Request.put · value) (Option.some.inj h)⟩
  | get key => contradiction
  | contains key => contradiction
  | remove key => contradiction
  | clear => contradiction

/-- The keys that a history has put, in the order of their latest puts. -/
def latestPuts (history : History V) : List String :=
  (history.filterMap (·.2.putKey?)).dedup

theorem latestPuts_concat_put (history : History V) (now : Nat) (key : String) (value : V) :
    latestPuts (history ++ [(now, .put key value)]) =
      (latestPuts history).filter (· ≠ key) ++ [key] := by
  rw [latestPuts, List.filterMap_append]
  exact dedup_concat ..

theorem latestPuts_concat_of_none (history : History V) (now : Nat) {request : Request V}
    (h : request.putKey? = none) :
    latestPuts (history ++ [(now, request)]) = latestPuts history := by
  have hnone : [(now, request)].filterMap (·.2.putKey?) = [] := List.filterMap_cons_none h
  rw [latestPuts, List.filterMap_append, hnone, List.append_nil]
  rfl

/-- The keys in the order of their ages, the oldest first. -/
def queue (r : Region V) : List String :=
  r.age.map Prod.snd

theorem age_remove_sublist (r : Region V) (key : String) :
    (r.remove key).2.age.Sublist r.age := by
  unfold Region.remove
  split
  · exact List.filter_sublist
  · exact .refl _

theorem age_makeRoom_sublist (r : Region V) (incoming : Nat) :
    (r.makeRoom incoming).age.Sublist r.age := by
  refine makeRoom_induction (P := fun s => s.age.Sublist r.age) (fun s hs => ?_) (.refl _) incoming
  cases hage : s.age with
  | nil =>
      rw [evictOldest_of_age_nil hage]
      exact hs
  | cons oldest younger =>
      rw [evictOldest_of_age_cons hage, age_evict]
      exact (hage ▸ List.sublist_cons_self oldest younger).trans hs

variable [Measured V]

/-- The keys that have an entry after a history, in the order of their latest puts. -/
def byLatestPut (settings : RegionSettings) (history : History V) : List String :=
  (latestPuts history).filter ((empty settings).run history).contains

variable {r s : Region V}

theorem Consistent.mem_queue_iff (h : r.Consistent) {key : String} :
    key ∈ r.queue ↔ r.contains key = true := by
  rw [queue, h.perm_keys.mem_iff, Assoc.mem_keys_iff, contains_iff]

theorem Consistent.nodup_queue (h : r.Consistent) : r.queue.Nodup :=
  h.perm_keys.nodup_iff.mpr h.wellKeyed

theorem Consistent.length_queue (h : r.Consistent) : r.queue.length = r.size := by
  rw [queue, h.perm_keys.length_eq, Assoc.length_keys]
  rfl

/-- A region whose ages are some of another one's has its keys in the same order. -/
theorem Consistent.queue_of_sublist (h : r.Consistent) (hs : s.Consistent)
    (hsub : s.age.Sublist r.age) : s.queue = r.queue.filter s.contains :=
  eq_filter_of_sublist (hsub.map Prod.snd) h.nodup_queue fun _ _ => hs.mem_queue_iff.symm

/-- The order of a list of keys stays when ages go. -/
theorem Consistent.queue_eq_filter (h : r.Consistent) (hs : s.Consistent)
    (hsub : s.age.Sublist r.age) {keys : List String} (hr : r.queue = keys.filter r.contains) :
    s.queue = keys.filter s.contains := by
  rw [h.queue_of_sublist hs hsub, hr, List.filter_filter]
  refine List.filter_congr fun key _ => ?_
  cases hkey : s.contains key with
  | false => rfl
  | true => exact h.mem_queue_iff.mp ((hsub.map Prod.snd).subset (hs.mem_queue_iff.mpr hkey))

/-! ## The order that each request leaves -/

/-- A request that puts no key takes away ages at most. -/
theorem age_step_sublist (r : Region V) (now : Nat) {request : Request V}
    (h : request.putKey? = none) : (r.step now request).age.Sublist r.age := by
  cases request with
  | put key value => contradiction
  | get key =>
      cases hget : r.slots.get? key with
      | none => rw [step, get_of_absent now hget]
      | some slot =>
          cases hold : r.expired now slot.cachedAt with
          | false => rw [step, get_of_live hget hold]
          | true =>
              rw [step, get_of_expired hget hold]
              exact List.filter_sublist
  | contains key => exact .refl _
  | remove key => exact age_remove_sublist r key
  | clear => exact List.nil_sublist _

/-- Storing a key makes it the newest and leaves the order of the others. -/
theorem Consistent.queue_store (h : r.Consistent) (now : Nat) (key : String) (value : V)
    (size : Nat) : (r.store now key value size).queue = r.queue.filter (· ≠ key) ++ [key] := by
  have hrest : (r.remove key).2.queue = r.queue.filter (· ≠ key) := by
    refine (h.queue_of_sublist (h.remove key) (age_remove_sublist r key)).trans ?_
    refine List.filter_congr fun other hmem => ?_
    rw [h.mem_queue_iff, contains_iff] at hmem
    obtain ⟨slot, hget⟩ := hmem
    rw [contains, Assoc.contains, get?_remove]
    by_cases hother : other = key <;> simp [hother, hget]
  rw [h.store_eq, queue, List.map_append]
  exact congrArg (· ++ [key]) hrest

/-- Storing a key puts it at the end of a list of keys. -/
theorem Consistent.queue_store_eq_filter (h : r.Consistent) {keys : List String}
    (hr : r.queue = keys.filter r.contains) (now : Nat) (key : String) (value : V) (size : Nat) :
    (r.store now key value size).queue =
      (keys.filter (· ≠ key) ++ [key]).filter (r.store now key value size).contains := by
  have hself : (r.store now key value size).contains key = true := by
    rw [contains_iff, get?_store, if_pos rfl]
    exact ⟨_, rfl⟩
  rw [h.queue_store, hr, List.filter_append, List.filter_filter, List.filter_filter,
    List.filter_singleton, hself]
  refine congrArg (· ++ [key]) (List.filter_congr fun other _ => ?_)
  rw [contains, contains, Assoc.contains, Assoc.contains, get?_store]
  by_cases hother : other = key <;> simp [hother]

/-! ## Evicting a front part -/

/-- A region after the entries of a front part of the age index were evicted. -/
structure Shed (before : Region V) (gone kept : List (Nat × String)) (after : Region V) : Prop where
  consistent : after.Consistent
  settings_eq : after.settings = before.settings
  age_eq : after.age = kept
  evictions_eq : after.counts.evictions = before.counts.evictions + gone.length
  get?_eq : ∀ key, after.slots.get? key =
    if key ∈ gone.map Prod.snd then none else before.slots.get? key

/-- So many turns evict so many entries from the front. -/
theorem Consistent.shed (h : r.Consistent) {gone kept : List (Nat × String)}
    (hage : r.age = gone ++ kept) : Shed r gone kept (Region.evictOldest^[gone.length] r) := by
  induction gone generalizing r with
  | nil => exact ⟨h, rfl, hage, rfl, fun key => by simp⟩
  | cons oldest gone ih =>
      rw [List.cons_append] at hage
      obtain ⟨slot, hget, heq⟩ := h.evictOldest_eq hage
      have hturn : r.evictOldest.age = gone ++ kept := by
        rw [evictOldest_of_age_cons hage, age_evict]
      have hevictions : r.evictOldest.counts.evictions = r.counts.evictions + 1 := by rw [heq]
      have hslots : ∀ key, r.evictOldest.slots.get? key =
          if key = oldest.2 then none else r.slots.get? key := by
        intro key
        rw [heq]
        exact Assoc.get?_erase ..
      have hrest := ih h.evictOldest hturn
      rw [List.length_cons, Function.iterate_succ_apply]
      refine ⟨hrest.consistent, hrest.settings_eq.trans (settings_evictOldest r), hrest.age_eq,
        ?_, fun key => ?_⟩
      · rw [hrest.evictions_eq, hevictions, List.length_cons]
        omega
      · rw [hrest.get?_eq, hslots]
        by_cases hgone : key ∈ gone.map Prod.snd <;> by_cases hkey : key = oldest.2 <;>
          simp [hgone, hkey]

/-- With just some keys left there is room for an entry of so many bytes. -/
def LeavesRoom (r : Region V) (incoming : Nat) (kept : List String) : Prop :=
  kept.length < r.settings.maxObjects.toNat ∧
    total (kept.map r.sizeAt) + incoming ≤ r.settings.heapBytes

/-- The bytes of a region are those of its keys. -/
theorem Consistent.bytes_eq_total (h : r.Consistent) : r.bytes = total (r.queue.map r.sizeAt) := by
  rw [queue, total_map_perm h.perm_keys, h.bytes_eq]
  exact (Assoc.total_map_keys h.wellKeyed Slot.size).symm

/-- After a front part has gone, there is room if what was kept leaves it. -/
theorem Shed.hasRoom_iff {gone kept : List (Nat × String)} (h : Shed r gone kept s)
    (hr : r.Consistent) (hage : r.age = gone ++ kept) (incoming : Nat) :
    s.hasRoom incoming = true ↔ r.LeavesRoom incoming (kept.map Prod.snd) := by
  have hqueue : s.queue = kept.map Prod.snd := congrArg (List.map Prod.snd) h.age_eq
  have hnodup := hr.nodup_queue
  rw [queue, hage, List.map_append, List.nodup_append] at hnodup
  have hsizes : (kept.map Prod.snd).map s.sizeAt = (kept.map Prod.snd).map r.sizeAt := by
    refine List.map_congr_left fun key hkey => ?_
    have hstays : key ∉ gone.map Prod.snd := fun hgone => hnodup.2.2 key hgone key hkey rfl
    rw [sizeAt, h.get?_eq, if_neg hstays, sizeAt]
  rw [hasRoom, Bool.and_eq_true, decide_eq_true_eq, decide_eq_true_eq, h.settings_eq,
    ← h.consistent.length_queue, h.consistent.bytes_eq_total, hqueue, hsizes, LeavesRoom]

/-! ## The shortest front part -/

/-- Of a queue of keys a front part goes so that an entry of so many bytes fits: the shortest one
that leaves room, or all of it if none does. -/
structure MakesWay (r : Region V) (incoming : Nat) (queue gone kept : List String) : Prop where
  split : queue = gone ++ kept
  enough : r.LeavesRoom incoming kept ∨ kept = []
  /-- No shorter front part would have been enough. -/
  shortest : ∀ before after, queue = before ++ after → before.length < gone.length →
    ¬ r.LeavesRoom incoming after

/-- Making room evicts the shortest front part that leaves room. -/
theorem Consistent.makesWay (h : r.Consistent) (incoming : Nat) :
    ∃ gone kept, MakesWay r incoming r.queue (gone.map Prod.snd) (kept.map Prod.snd) ∧
      Shed r gone kept (r.makeRoom incoming) := by
  obtain ⟨turns, hle, heq, hnone, hend⟩ := makeRoom_eq_iterate r incoming
  have hage : r.age = r.age.take turns ++ r.age.drop turns := (List.take_append_drop ..).symm
  have hlength : (r.age.take turns).length = turns := List.length_take_of_le hle
  have hshed := h.shed hage
  rw [hlength, ← heq] at hshed
  refine ⟨r.age.take turns, r.age.drop turns, ⟨?_, ?_, ?_⟩, hshed⟩
  · rw [← List.map_append, ← hage]
    rfl
  · refine hend.imp (hshed.hasRoom_iff h hage incoming).mp fun hnil => ?_
    rw [← hshed.age_eq, hnil, List.map_nil]
  · intro before after hsplit hshorter hroom
    rw [List.length_map, hlength] at hshorter
    -- the keys before and after the cut are those of the ages before and after it
    obtain ⟨gone, kept, hcut, hbefore, hafter⟩ := List.map_eq_append_iff.mp hsplit
    have hfewer := h.shed hcut
    have hlengths : gone.length = before.length := by rw [← hbefore, List.length_map]
    rw [hlengths] at hfewer
    have hno := hnone before.length hshorter
    rw [(hfewer.hasRoom_iff h hcut incoming).mpr (hafter ▸ hroom)] at hno
    contradiction

/-- **A put of an absent key** evicts the shortest front part that leaves room for it and nothing
else, and the key comes last. -/
theorem Consistent.put_of_absent_makesWay (h : r.Consistent) (now : Nat) {key : String} (value : V)
    (hget : r.slots.get? key = none) :
    ∃ gone kept, MakesWay r (slotSize key value) r.queue gone kept ∧
      (∀ other ≠ key, (r.put now key value).slots.get? other =
        if other ∈ gone then none else r.slots.get? other) ∧
      (r.put now key value).counts.evictions = r.counts.evictions + gone.length ∧
      (r.put now key value).queue = kept ++ [key] := by
  obtain ⟨gone, kept, hway, hshed⟩ := h.makesWay (slotSize key value)
  have hkept : (r.makeRoom (slotSize key value)).queue = kept.map Prod.snd :=
    congrArg (List.map Prod.snd) hshed.age_eq
  have hnew : key ∉ kept.map Prod.snd := by
    rw [← hkept, hshed.consistent.mem_queue_iff, contains_iff, get?_makeRoom_of_absent hget]
    rintro ⟨slot, hslot⟩
    contradiction
  rw [put_of_absent now value hget]
  refine ⟨gone.map Prod.snd, kept.map Prod.snd, hway, fun other hother => ?_, ?_, ?_⟩
  · rw [get?_store, if_neg hother, hshed.get?_eq]
  · rw [List.length_map]
    exact hshed.evictions_eq
  · rw [hshed.consistent.queue_store, hkept, List.filter_eq_self.mpr]
    intro other hmem
    simpa using ne_of_mem_of_not_mem hmem hnew

/-! ## Histories -/

/-- **Order**: after every history the age index lists the keys with an entry by their latest
puts. -/
theorem queue_run (settings : RegionSettings) (history : History V) :
    ((empty settings).run history).queue = byLatestPut settings history := by
  induction history using List.reverseRecOn with
  | nil => rfl
  | append_singleton history request ih =>
      obtain ⟨now, request⟩ := request
      have h : ((empty settings).run history).Consistent := consistent_run_empty settings history
      rw [byLatestPut] at ih
      rw [byLatestPut, run_append, run_cons, run_nil]
      generalize (empty settings).run history = r at h ih ⊢
      -- only a put brings a new age; whatever else happens takes ages away, in place
      cases hput : request.putKey? with
      | none =>
          rw [latestPuts_concat_of_none history now hput]
          exact h.queue_eq_filter (h.step now request) (age_step_sublist r now hput) ih
      | some key =>
          obtain ⟨value, rfl⟩ := Request.exists_eq_put hput
          rw [latestPuts_concat_put, step]
          cases hget : r.slots.get? key with
          | none =>
              have hroom := h.makeRoom (slotSize key value)
              have hkept := h.queue_eq_filter hroom (age_makeRoom_sublist r _) ih
              rw [put_of_absent now value hget]
              exact hroom.queue_store_eq_filter hkept now key value _
          | some slot =>
              rw [put_of_present now value hget]
              exact h.queue_store_eq_filter ih now key value _

/-- A put of an absent key finds room for it, or leaves it alone. -/
theorem Consistent.size_put_of_absent_le (h : r.Consistent) (now : Nat) {key : String} (value : V)
    (hget : r.slots.get? key = none) :
    (r.put now key value).size ≤ max 1 r.settings.maxObjects.toNat := by
  obtain ⟨gone, kept, hway, -, -, hqueue⟩ := h.put_of_absent_makesWay now value hget
  rw [← (h.put now key value).length_queue, hqueue, List.length_append, List.length_singleton]
  rcases hway.enough with hroom | rfl
  · have hfewer := hroom.1
    omega
  · exact Nat.le_max_left ..

/-- A request leaves at most as many entries as the bound allows, or just one. -/
theorem Consistent.size_step_le (h : r.Consistent) (now : Nat) (request : Request V)
    (hsize : r.size ≤ max 1 r.settings.maxObjects.toNat) :
    (r.step now request).size ≤ max 1 r.settings.maxObjects.toNat := by
  cases hadds : r.adds request with
  | false =>
      have hle := (keys_step_sublist now hadds).length_le
      rw [Assoc.length_keys, Assoc.length_keys] at hle
      exact Nat.le_trans hle hsize
  | true =>
      obtain ⟨key, value, rfl, hget⟩ := exists_put_of_adds hadds
      exact h.size_put_of_absent_le now value hget

theorem size_run_le (settings : RegionSettings) (history : History V) :
    ((empty settings).run history).size ≤ max 1 settings.maxObjects.toNat := by
  have hkept : ∀ (r : Region V) now request,
      r.Consistent ∧ r.settings = settings ∧ r.size ≤ max 1 settings.maxObjects.toNat →
        (r.step now request).Consistent ∧ (r.step now request).settings = settings ∧
          (r.step now request).size ≤ max 1 settings.maxObjects.toNat := by
    rintro r now request ⟨h, rfl, hsize⟩
    exact ⟨h.step now request, settings_step r now request, h.size_step_le now request hsize⟩
  exact (run_induction hkept ⟨consistent_empty settings, rfl, Nat.zero_le _⟩ history).2.2

/-! ## A put after a history -/

/-- **Oldest first, and no more than needed**: let the keys with an entry stand in the order of their
latest puts.  A put of an absent key takes away the entries of the shortest front part that leaves
room for the new one, all of them if no part does, and no others; the evictions grow by their
number.  A put of a present key takes none away.  Either way the new entry is there and the newest.
No history leads to more entries than the bound allows, or than one. -/
theorem put_evicts_oldest (settings : RegionSettings) (history : History V) (now : Nat)
    (key : String) (value : V) :
    let r := (empty settings).run history
    let after := r.put now key value
    let queue := byLatestPut settings history
    (∃ seq, after.slots.get? key = some ⟨value, now, slotSize key value, seq⟩) ∧
    queue.Perm r.slots.keys ∧
    (r.contains key = false →
      ∃ gone kept, MakesWay r (slotSize key value) queue gone kept ∧
        (∀ other ≠ key, after.slots.get? other =
          if other ∈ gone then none else r.slots.get? other) ∧
        after.counts.evictions = r.counts.evictions + gone.length ∧
        byLatestPut settings (history ++ [(now, .put key value)]) = kept ++ [key]) ∧
    (r.contains key = true →
      (∀ other ≠ key, after.slots.get? other = r.slots.get? other) ∧
        after.counts.evictions = r.counts.evictions ∧
        byLatestPut settings (history ++ [(now, .put key value)]) =
          queue.filter (· ≠ key) ++ [key]) ∧
    r.size ≤ max 1 settings.maxObjects.toNat := by
  intro r after queue
  have h : r.Consistent := consistent_run_empty settings history
  have hqueue : r.queue = queue := queue_run settings history
  have hafter : after.queue = byLatestPut settings (history ++ [(now, .put key value)]) := by
    rw [← queue_run, run_append]
    rfl
  refine ⟨get?_put_self r now key value, hqueue ▸ h.perm_keys, fun habsent => ?_,
    fun hpresent => ?_, size_run_le settings history⟩
  · have hget := contains_eq_false_iff.mp habsent
    obtain ⟨gone, kept, hway, hothers, hevictions, hnext⟩ := h.put_of_absent_makesWay now value hget
    exact ⟨gone, kept, hqueue ▸ hway, hothers, hevictions, hafter.symm.trans hnext⟩
  · obtain ⟨slot, hget⟩ := contains_iff.mp hpresent
    have hput : after = r.store now key value _ := put_of_present now value hget
    refine ⟨fun other hother => get?_put_of_present now value hget hother, ?_, ?_⟩
    · rw [hput]
      rfl
    · rw [← hafter, hput, h.queue_store, hqueue]

/-- A region for two entries.  The first key was put anew, so the second one is the oldest and makes
way for a third; put anew itself, it becomes the newest and nothing goes. -/
theorem put_evicts_oldest_after_overwrite :
    let settings : RegionSettings := { heapMb := 1, maxObjects := 2, ttl := .infinite }
    let history : History OrgUnit :=
      [(0, .put "A" (.blank "A")), (1, .put "B" (.blank "B")), (2, .put "A" (.blank "A"))]
    let r := (empty settings).run history
    byLatestPut settings history = ["B", "A"] ∧
      (r.contains "C" = false ∧ ∃ gone kept,
        MakesWay r (slotSize "C" (OrgUnit.blank "C")) ["B", "A"] gone kept ∧
          (r.put 3 "C" (.blank "C")).counts.evictions = r.counts.evictions + gone.length ∧
          kept ++ ["C"] = ["A", "C"]) ∧
      (r.contains "B" = true ∧
        (r.put 3 "B" (.blank "B")).counts.evictions = r.counts.evictions ∧
        byLatestPut settings (history ++ [(3, .put "B" (.blank "B"))]) = ["A", "B"]) := by
  intro settings history r
  have hr : (empty settings).run history = r := rfl
  have habsent : r.contains "C" = false := by decide
  have hpresent : r.contains "B" = true := by decide
  have horder : byLatestPut settings history = ["B", "A"] := by decide
  have hthird : byLatestPut settings (history ++ [(3, .put "C" (.blank "C"))]) = ["A", "C"] := by
    decide +kernel
  obtain ⟨-, -, hevicts, -, -⟩ := put_evicts_oldest settings history 3 "C" (.blank "C")
  obtain ⟨gone, kept, hway, -, hevictions, hnext⟩ := hevicts habsent
  obtain ⟨-, -, -, hkeeps, -⟩ := put_evicts_oldest settings history 3 "B" (.blank "B")
  obtain ⟨-, hnone, hnewest⟩ := hkeeps hpresent
  rw [horder] at hway hnewest
  rw [hr] at hevictions hnone
  exact ⟨horder, ⟨habsent, gone, kept, hway, hevictions, hnext.symm.trans hthird⟩, hpresent, hnone,
    hnewest⟩

end Region

end AttrFederation
