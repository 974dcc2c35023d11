import Mathlib.Data.List.Induction
import AttrFederation.Proofs.Region.Operations

/-!
# Reads reflect the latest write

A put, a remove and a clear write a key.  The entry of a key is always that of the last request that
wrote it (`lastWrite?_of_get?`), and a key without an entry has one of four explanations
(`explained_of_get?_none`): it was never put, or the last write took it away, or its lifetime is
over, or a put of another key evicted it.

Main result: `get_reflects_lastWrite`, over all histories whose clock does not go back.
-/

namespace AttrFederation.Region

variable {V : Type}

/-! ## Writes -/

/-- The request puts, removes or clears a key. -/
def Request.writes (key : String) : Request V → Bool
  | .put other _ => other = key
  | .remove other => other = key
  | .clear => true
  | .get _ | .contains _ => false

/-- The last request that wrote a key, and its instant. -/
def lastWrite? (history : History V) (key : String) : Option (Nat × Request V) :=
  history.findRev? fun request => request.2.writes key

theorem lastWrite?_concat (history : History V) (now : Nat) (request : Request V) (key : String) :
    lastWrite? (history ++ [(now, request)]) key =
      if request.writes key then some (now, request) else lastWrite? history key :=
  findRev?_concat ..

/-- No request has put the key. -/
def NeverPut (history : History V) (key : String) : Prop :=
  ∀ request ∈ history, ∀ value, request.2 ≠ .put key value

/-- What was stored at an instant is too old at another one. -/
def Outlived (ttl : TimeToLive) (now since : Nat) : Prop :=
  ∃ lifetime, ttl.lifetime? = some lifetime ∧ lifetime.toNanos < now - since

theorem Outlived.mono {ttl : TimeToLive} {now later since : Nat} (h : Outlived ttl now since)
    (hle : now ≤ later) : Outlived ttl later since := by
  obtain ⟨lifetime, hlifetime, hlt⟩ := h
  exact ⟨lifetime, hlifetime, by omega⟩

theorem expired_iff_outlived (r : Region V) (now since : Nat) :
    r.expired now since = true ↔ Outlived r.settings.ttl now since := by
  unfold expired Outlived
  cases r.settings.ttl.lifetime? with
  | none => simp
  | some lifetime => simp

variable [Measured V]

/-- Since the last write of a key, a put of another key, absent then, has taken its entry away. -/
def EvictedSince (start : Region V) (history : History V) (key : String) : Prop :=
  ∃ before now other value after,
    history = before ++ (now, .put other value) :: after ∧
    (∀ request ∈ after, request.2.writes key = false) ∧
    other ≠ key ∧
    (start.run before).contains other = false ∧
    (start.run before).contains key = true ∧
    ((start.run before).put now other value).contains key = false

/-- Why a key has no entry at an instant after a history. -/
inductive Explained (start : Region V) (history : History V) (key : String) (now : Nat) : Prop
  | neverPut (h : NeverPut history key)
  | removed (since : Nat) (h : lastWrite? history key = some (since, .remove key))
  | cleared (since : Nat) (h : lastWrite? history key = some (since, .clear))
  | outlived (since : Nat) (value : V) (h : lastWrite? history key = some (since, .put key value))
      (hold : Outlived start.settings.ttl now since)
  | evicted (since : Nat) (value : V) (h : lastWrite? history key = some (since, .put key value))
      (hevicted : EvictedSince start history key)

/-! ## What is there -/

/-- **Entries reflect the latest write**: the entry of a key is that of the last request that wrote
the key. -/
theorem lastWrite?_of_get? (settings : RegionSettings) (history : History V) {key : String}
    {slot : Slot V} (h : ((empty settings).run history).slots.get? key = some slot) :
    lastWrite? history key = some (slot.cachedAt, .put key slot.value) := by
  induction history using List.reverseRecOn with
  | nil => contradiction
  | append_singleton history request ih =>
      obtain ⟨now, request⟩ := request
      rw [lastWrite?_concat]
      rw [run_append, run_cons, run_nil] at h
      cases request with
      | put other value =>
          by_cases hother : other = key
          · subst hother
            obtain ⟨seq, hget⟩ := get?_put_self ((empty settings).run history) now other value
            rw [step, hget, Option.some.injEq] at h
            rw [Request.writes, if_pos (by simp), ← h]
          · rw [Request.writes, if_neg (by simpa using hother)]
            exact ih (get?_of_get?_put (Ne.symm hother) h)
      | get other =>
          rw [Request.writes, if_neg Bool.false_ne_true]
          rcases get?_get ((empty settings).run history) now other key with hsame | ⟨-, hnone, -⟩
          · exact ih (hsame ▸ h)
          · rw [step, hnone] at h
            contradiction
      | contains other => exact ih h
      | remove other =>
          rw [step, get?_remove] at h
          split at h
          · contradiction
          · next hother =>
              rw [Request.writes, if_neg (by simpa using Ne.symm hother)]
              exact ih h
      | clear => contradiction

/-! ## What is missing -/

/-- A request that does not write the key leaves its explanation, also for a later instant. -/
theorem Explained.concat {start : Region V} {history : History V} {key : String}
    {now later : Nat} (h : Explained start history key now) (hle : now ≤ later) (instant : Nat)
    {request : Request V} (hwrites : request.writes key = false) :
    Explained start (history ++ [(instant, request)]) key later := by
  have hlast := lastWrite?_concat history instant request key
  rw [hwrites, if_neg Bool.false_ne_true] at hlast
  cases h with
  | neverPut h =>
      refine .neverPut fun entry hmem value => ?_
      rcases List.mem_append.mp hmem with hmem | hmem
      · exact h entry hmem value
      · rw [List.mem_singleton] at hmem
        rw [hmem]
        rintro rfl
        simp [Request.writes] at hwrites
  | removed since h => exact .removed since (hlast.trans h)
  | cleared since h => exact .cleared since (hlast.trans h)
  | outlived since value h hold => exact .outlived since value (hlast.trans h) (hold.mono hle)
  | evicted since value h hevicted =>
      obtain ⟨before, at_, other, stored, after, heq, hafter, hrest⟩ := hevicted
      refine .evicted since value (hlast.trans h)
        ⟨before, at_, other, stored, after ++ [(instant, request)], by simp [heq], ?_, hrest⟩
      intro entry hmem
      rcases List.mem_append.mp hmem with hmem | hmem
      · exact hafter entry hmem
      · rw [List.mem_singleton] at hmem
        rwa [hmem]

/-- A key that is missing after a put of another one was missing before, or that put has evicted
it. -/
theorem explained_of_put {settings : RegionSettings} {history : History V} {key other : String}
    {instant now : Nat} {value : V} (hother : other ≠ key)
    (h : (((empty settings).run history).put instant other value).slots.get? key = none)
    (hbefore : ((empty settings).run history).slots.get? key = none →
      Explained (empty settings) history key instant) (hle : instant ≤ now) :
    Explained (empty settings) (history ++ [(instant, .put other value)]) key now := by
  have hwrites : (Request.put other value).writes key = false := by
    simpa [Request.writes] using hother
  cases hget : ((empty settings).run history).slots.get? key with
  | none => exact (hbefore hget).concat hle instant hwrites
  | some slot =>
      -- only making room for an absent key takes another entry away
      have habsent : ((empty settings).run history).slots.get? other = none := by
        cases hget' : ((empty settings).run history).slots.get? other with
        | none => rfl
        | some slot' =>
            rw [get?_put_of_present instant value hget' (Ne.symm hother), hget] at h
            contradiction
      have hlast := lastWrite?_of_get? settings history hget
      refine .evicted slot.cachedAt slot.value ?_
        ⟨history, instant, other, value, [], rfl, by simp, hother, ?_, ?_, ?_⟩
      · rw [lastWrite?_concat, hwrites, if_neg Bool.false_ne_true, hlast]
      · rw [contains, Assoc.contains, habsent]
        rfl
      · rw [contains, Assoc.contains, hget]
        rfl
      · rw [contains, Assoc.contains, h]
        rfl

/-- **Misses are explained**: a key without an entry was never put, or was removed or cleared by the
last write, or has outlived its lifetime, or was evicted. -/
theorem explained_of_get?_none (settings : RegionSettings) (history : History V) {key : String}
    {now : Nat} (hclock : (history.map Prod.fst).Pairwise (· ≤ ·))
    (hnow : ∀ request ∈ history, request.1 ≤ now)
    (h : ((empty settings).run history).slots.get? key = none) :
    Explained (empty settings) history key now := by
  induction history using List.reverseRecOn generalizing now with
  | nil => exact .neverPut fun _ hmem => absurd hmem List.not_mem_nil
  | append_singleton history request ih =>
      obtain ⟨instant, request⟩ := request
      simp only [List.map_append, List.map_singleton, List.pairwise_append, List.mem_map,
        List.mem_singleton, forall_exists_index, and_imp] at hclock
      have hinstant : instant ≤ now := hnow (instant, request) (by simp)
      have hbefore : ∀ entry ∈ history, entry.1 ≤ instant :=
        fun entry hmem => hclock.2.2 entry.1 entry hmem rfl instant rfl
      have ih' := fun hnone => ih hclock.1 hbefore hnone
      rw [run_append, run_cons, run_nil] at h
      generalize hregion : (empty settings).run history = r at h ih'
      cases request with
      | put other value =>
          have hother : other ≠ key := by
            rintro rfl
            obtain ⟨seq, hget⟩ := get?_put_self r instant other value
            rw [step, hget] at h
            contradiction
          subst hregion
          exact explained_of_put hother h ih' hinstant
      | get other =>
          rcases get?_get r instant other key with hsame | ⟨-, -, slot, hget, hold⟩
          · exact (ih' (hsame ▸ h)).concat hinstant instant rfl
          · have hlast := lastWrite?_of_get? settings history (hregion ▸ hget)
            rw [expired_iff_outlived, ← hregion, settings_run] at hold
            refine .outlived slot.cachedAt slot.value ?_ (hold.mono hinstant)
            rw [lastWrite?_concat, Request.writes, if_neg Bool.false_ne_true, hlast]
      | contains other => exact (ih' h).concat hinstant instant rfl
      | remove other =>
          rw [step, get?_remove] at h
          by_cases hother : key = other
          · subst hother
            refine .removed instant ?_
            rw [lastWrite?_concat, Request.writes, if_pos (by simp)]
          · rw [if_neg hother] at h
            exact (ih' h).concat hinstant instant (by simpa [Request.writes] using Ne.symm hother)
      | clear =>
          refine .cleared instant ?_
          rw [lastWrite?_concat, Request.writes, if_pos rfl]

/-! ## Reads -/

/-- **Reads reflect the latest write**: on a clock that does not go back, a read that finds a value
finds that of the last request that wrote the key, a put within the lifetime; and a read that finds
none has one of the explanations. -/
theorem get_reflects_lastWrite (settings : RegionSettings) (history : History V) (key : String)
    (now : Nat) (hclock : (history.map Prod.fst ++ [now]).Pairwise (· ≤ ·)) :
    (∀ value, (((empty settings).run history).get now key).1 = some value →
      ∃ since, lastWrite? history key = some (since, .put key value) ∧
        ¬ Outlived settings.ttl now since) ∧
    ((((empty settings).run history).get now key).1 = none →
      Explained (empty settings) history key now) := by
  rw [List.pairwise_append] at hclock
  have hnow : ∀ request ∈ history, request.1 ≤ now := fun request hmem =>
    hclock.2.2 request.1 (List.mem_map_of_mem hmem) now (List.mem_singleton_self now)
  have hexpired := expired_iff_outlived ((empty settings).run history) now
  rw [settings_run] at hexpired
  cases hget : ((empty settings).run history).slots.get? key with
  | none =>
      rw [get_of_absent now hget]
      exact ⟨fun value h => by contradiction,
        fun _ => explained_of_get?_none settings history hclock.1 hnow hget⟩
  | some slot =>
      have hlast := lastWrite?_of_get? settings history hget
      cases hold : ((empty settings).run history).expired now slot.cachedAt with
      | false =>
          rw [get_of_live hget hold]
          refine ⟨fun value h => ?_, fun h => by contradiction⟩
          rw [Option.some.injEq] at h
          refine ⟨slot.cachedAt, h ▸ hlast, fun houtlived => ?_⟩
          rw [(hexpired slot.cachedAt).mpr houtlived] at hold
          contradiction
      | true =>
          rw [get_of_expired hget hold]
          exact ⟨fun value h => by contradiction,
            fun _ => .outlived slot.cachedAt slot.value hlast ((hexpired _).mp hold)⟩

/-- Of two entries that fit, the older one makes way for a third; reading it finds nothing, and that
is explained. -/
theorem get_reflects_lastWrite_of_third_put :
    ([0, 1, 2] ++ [3]).Pairwise (· ≤ ·) ∧
      Explained (empty { heapMb := 1, maxObjects := 2, ttl := .infinite })
        [(0, .put "A" (OrgUnit.blank "A")), (1, .put "B" (.blank "B")), (2, .put "C" (.blank "C"))]
        "A" 3 :=
  ⟨by decide, (get_reflects_lastWrite _ _ "A" 3 (by decide)).2 (by decide)⟩

end AttrFederation.Region
