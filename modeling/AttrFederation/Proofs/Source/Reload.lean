import AttrFederation.Proofs.Activity.Attempts
import AttrFederation.Proofs.Source.ScopedQuery
import AttrFederation.Source.Replay

/-!
# Loading all org units anew

A refresh of the backend empties the org-unit region and then calls the backend, again after a
failure that may pass, until an attempt settles it (`RetryPolicy.Settles`).  A backend is given by a
script of the outcomes of its calls (`BackendClient.Plays`), so that the batch that is loaded is
known beforehand (`BackendSource.Loads`).

One load is followed by itself (`loadAll_replies`), the attempts by a rule for all operations
(`RetryPolicy.achieves_attempts`), and then the refresh around them.  Main result:
`BackendSource.refreshAll_replaces`.
-/

namespace AttrFederation

/-! ## Batches of all units -/

namespace Batch

/-- The region has the units of a batch and nothing else, all newer than what it had before. -/
structure Replaces (b : Batch) (before after : Region OrgUnit) : Prop where
  /-- The keys are the ids of the records, each with its record. -/
  value_iff : ∀ id unit, after.value? id = some unit ↔ unit ∈ b.records ∧ unit.id = id
  size_eq : after.size = b.records.length
  /-- Nothing from before has survived. -/
  newer : ∀ id slot, after.slots.get? id = some slot → before.nextSeq ≤ slot.seq

/-- When no id is asked for, a reply says what some details say. -/
theorem exists_ofReply_eq (reply : Except SourceError BackendResponse) :
    ∃ details, ofReply [] reply = ofDetails details [] := by
  cases reply with
  | error e => exact ⟨[], rfl⟩
  | ok response =>
      dsimp only [ofReply, ofResponse]
      rcases response.tables.get? BackendRequest.returnTable with _ | _ | _
      · exact ⟨[], rfl⟩
      · cases response.tables.get? BackendRequest.detailTable with
        | none => exact ⟨[], rfl⟩
        | some rows => exact ⟨_, rfl⟩
      · exact ⟨[], rfl⟩

variable {details : List Detail}

/-- The records are the units of the ids. -/
theorem unit?_eq_some_iff {id : String} {unit : OrgUnit} :
    (ofDetails details []).unit? id = some unit ↔
      unit ∈ (ofDetails details []).records ∧ unit.id = id := by
  have hid : ∀ id, (OrgUnit.ofDetails details id).id = id := fun id =>
    (OrgUnit.id_isNegative_ofDetails details id).1
  rw [unit?_ofDetails, records_ofDetails]
  simp only [List.not_mem_nil, if_false]
  constructor
  · intro h
    split at h
    · next hmem =>
        obtain rfl := Option.some.inj h
        exact ⟨List.mem_map.mpr ⟨id, List.mem_eraseDups.mpr hmem, rfl⟩, hid id⟩
    · contradiction
  · rintro ⟨hrecord, rfl⟩
    obtain ⟨id, hmem, rfl⟩ := List.mem_map.mp hrecord
    rw [hid, if_pos (List.mem_eraseDups.mp hmem)]

/-- Stored in an emptied region, the batch replaces what was there. -/
theorem replaces_of_filled {before after : Region OrgUnit}
    (h : Region.Filled before.clear (.ofList (ofDetails details []).pairs) after) :
    (ofDetails details []).Replaces before after := by
  have hvalue : ∀ id, after.value? id = (ofDetails details []).unit? id := fun id =>
    (h.value?_eq before.get?_clear id).trans (get?_ofList_pairs _ id)
  refine ⟨fun id unit => by rw [hvalue, unit?_eq_some_iff], ?_, fun id slot hslot => ?_⟩
  · have hkeys : after.slots.keys.Perm (details.map Detail.id).eraseDups := by
      refine (List.perm_ext_iff_of_nodup h.consistent.wellKeyed (nodup_eraseDups _)).mpr ?_
      intro id
      have hkey : id ∈ after.slots.keys ↔ (after.value? id).isSome = true := by
        rw [Assoc.mem_keys_iff, Region.value?, Option.isSome_map, Option.isSome_iff_exists]
      rw [hkey, hvalue, unit?_ofDetails, List.mem_eraseDups]
      by_cases hid : id ∈ details.map Detail.id <;> simp [hid, -List.mem_map]
    rw [records_ofDetails, List.length_map, ← hkeys.length_eq, Assoc.length_keys]
    rfl
  · exact h.nextSeq_le_seq before.get?_clear hslot

end Batch

/-! ## Backends with a script -/

variable {δ : Type}

/-- Whatever else happens, the org units, what the sources keep and the queue of backend refreshes
stay as they are. -/
def World.BackendUndisturbed (w w' : World δ) : Prop :=
  w.UnitsUndisturbed w' ∧ w'.backendLock = w.backendLock

/-- The calls of a client end as a script says, the first one first, and leave the org units alone.
`Inv n` says of what the sources keep that so many calls were made. -/
def BackendClient.Plays (client : BackendClient (World δ)) (Inv : Nat → δ → Prop)
    (script : Nat → BackendAnswer) : Prop :=
  ∀ n serverPrefix function imports (w : World δ), Inv n w.sources →
    (client.invoke serverPrefix function imports).Achieves World.BackendUndisturbed w
      fun outcome w' => outcome = script n serverPrefix function imports ∧
        w'.cache.orgUnits = w.cache.orgUnits ∧ Inv (n + 1) w'.sources

/-- A backend that replays outcomes plays them, and then responds without tables. -/
theorem ReplayBackend.client_plays (field : Field δ ReplayBackend)
    (outcomes : List (Except SourceError BackendResponse)) :
    (client (World.sourcesField.comp field)).Plays
      (fun n s => (field.get s).outcomes = outcomes.drop n)
      (fun n _ _ _ => outcomes[n]?.getD (.ok .empty)) := by
  intro n serverPrefix function imports w hw w' hw'
  have hleft : (field.get w'.sources).outcomes = outcomes.drop n := by rw [hw'.1.2, hw]
  have hnext : ∀ default : Except SourceError BackendResponse,
      nextOutcome default (outcomes.drop n) =
        (outcomes[n]?.getD default, outcomes.drop (n + 1)) := by
    intro default
    rw [← List.tail_drop, ← List.head?_drop]
    cases outcomes.drop n <;> rfl
  refine ⟨?_, hw'.1.1, ?_⟩
  · dsimp only [Field.comp, World.sourcesField]
    rw [hleft, hnext]
  · dsimp only [Field.comp, World.sourcesField]
    rw [field.get_set, hleft, hnext]

namespace BackendSource

/-- A reload over a script makes so many calls and loads a batch. -/
def Loads (b : BackendSource δ) (script : Nat → BackendAnswer) (calls : Nat) (batch : Batch) :
    Prop :=
  if b.reloadEnabled = true ∧ b.profile.isSome = true then
    ∃ last, RetryPolicy.Settles (fun i => b.reply (script i) .all) b.retry.retries.toNat last ∧
      calls = last + 1 ∧ batch = .ofReply [] (b.reply (script last) .all)
  else calls = 0 ∧ batch = {}

variable {b : BackendSource δ} {Inv : Nat → δ → Prop} {script : Nat → BackendAnswer}
  {before : Region OrgUnit}

theorem loads_nothing (h : ¬ (b.reloadEnabled = true ∧ b.profile.isSome = true)) :
    b.Loads script 0 {} :=
  (if_neg h).mpr ⟨rfl, rfl⟩

theorem loads_of_settles (henabled : b.reloadEnabled = true) (hprofile : b.profile.isSome = true)
    {last : Nat}
    (h : RetryPolicy.Settles (fun i => b.reply (script i) .all) b.retry.retries.toNat last) :
    b.Loads script (last + 1) (.ofReply [] (b.reply (script last) .all)) :=
  (if_pos ⟨henabled, hprofile⟩).mpr ⟨last, h, rfl, rfl⟩

/-- The calls and the batch are determined. -/
theorem Loads.unique {calls calls' : Nat} {batch batch' : Batch}
    (h : b.Loads script calls batch) (h' : b.Loads script calls' batch') :
    calls = calls' ∧ batch = batch' := by
  unfold Loads at h h'
  split at h
  · next hreloads =>
      rw [if_pos hreloads] at h'
      obtain ⟨last, hlast, rfl, rfl⟩ := h
      obtain ⟨other, hother, rfl, rfl⟩ := h'
      rw [hlast.unique hother]
      exact ⟨rfl, rfl⟩
  · next hidle =>
      rw [if_neg hidle] at h'
      exact ⟨h.1.trans h'.1.symm, h.2.trans h'.2.symm⟩

/-- The org-unit region is the result of loading a batch into what was emptied. -/
def Loaded (before : Region OrgUnit) (batch : Batch) (w : World δ) : Prop :=
  ∃ after, w.cache.orgUnits = some after ∧
    (before.settings.Holds (.ofList batch.pairs) → batch.Replaces before after)

/-- Nothing was loaded. -/
theorem loaded_nothing {w : World δ} (h : w.cache.orgUnits = some before.clear) :
    Loaded before {} w := by
  have hempty : Region.Filled before.clear (.ofList (Batch.ofDetails [] []).pairs) before.clear :=
    .refl (.of_empty rfl rfl rfl)
  exact ⟨_, h, fun _ => Batch.replaces_of_filled hempty⟩

section Plays

variable (hplays : b.client.Plays Inv script)

include hplays

/-- **One load** stores what is said in the reply, and nothing after a failure. -/
theorem loadAll_replies (hprofile : b.profile.isSome = true) {n : Nat} {w : World δ}
    (hw : Inv n w.sources) (hunits : w.cache.orgUnits = some before.clear) :
    b.loadAll.Achieves World.BackendUndisturbed w fun outcome w' =>
      outcome = (b.reply (script n) .all).map (fun response =>
          (Batch.ofResponse response []).records.length) ∧
        Inv (n + 1) w'.sources ∧ Loaded before (.ofReply [] (b.reply (script n) .all)) w' ∧
        (∀ e, b.reply (script n) .all = .error e → w'.cache.orgUnits = some before.clear) := by
  rw [loadAll, if_neg (by simpa [Option.isSome_iff_ne_none] using hprofile)]
  refine Activity.achieves_bind.mpr ((call_replies (script n)
    (P := fun w' => w'.cache.orgUnits = w.cache.orgUnits ∧ Inv (n + 1) w'.sources)
    (fun hnone => by simp [hnone] at hprofile)
    fun profile _ => hplays n _ _ _ w hw).mono ?_)
  rintro reply w₁ ⟨rfl, hunits₁, hinv⟩
  cases hreply : b.reply (script n) .all with
  | error e =>
      have hempty := hunits₁.trans hunits
      exact ⟨rfl, hinv, loaded_nothing hempty, fun _ _ => hempty⟩
  | ok response =>
      intro w₂ hw₂
      have hunits₂ : w₂.cache.orgUnits = some before.clear := hw₂.1.1.trans (hunits₁.trans hunits)
      have hstored := (Batch.orgUnits_storeIn (.ofResponse response []) w₂.now w₂.cache).trans
        (congrArg _ hunits₂)
      refine ⟨rfl, ?_, ⟨_, hstored, fun hholds => ?_⟩, by simp⟩
      · show Inv (n + 1) w₂.sources
        rw [hw₂.1.2]
        exact hinv
      · obtain ⟨details, hdetails⟩ := Batch.exists_ofReply_eq (.ok response)
        have hbatch : Batch.ofResponse response [] = .ofDetails details [] := hdetails
        rw [hdetails] at hholds ⊢
        rw [hbatch]
        have hclear : before.clear.Consistent := .of_empty rfl rfl rfl
        exact Batch.replaces_of_filled
          (Batch.filled_putAll hclear (Batch.fits_pairs hholds) w₂.now)

/-- **The attempts** load what is said in the reply to the one that settles them. -/
theorem execute_loads (hprofile : b.profile.isSome = true) {w : World δ} (hw : Inv 0 w.sources)
    (hunits : w.cache.orgUnits = some before.clear) :
    (b.retry.execute b.loadAll).Achieves World.BackendUndisturbed w fun outcome w' =>
      ∃ last, RetryPolicy.Settles (fun i => b.reply (script i) .all) b.retry.retries.toNat last ∧
        outcome = (b.reply (script last) .all).map (fun response =>
          (Batch.ofResponse response []).records.length) ∧
        Inv (last + 1) w'.sources ∧ Loaded before (.ofReply [] (b.reply (script last) .all)) w' := by
  refine (RetryPolicy.achieves_attempts
    (I := fun n w' => Inv n w'.sources ∧ w'.cache.orgUnits = some before.clear)
    (Q := fun n w' => Inv (n + 1) w'.sources ∧
      Loaded before (.ofReply [] (b.reply (script n) .all)) w' ∧
        ∀ e, b.reply (script n) .all = .error e → w'.cache.orgUnits = some before.clear)
    ?_ (fun n w' h => loadAll_replies hplays hprofile h.1 h.2) ?_ b.retry.retries.toNat
    ⟨hw, hunits⟩).mono ?_
  · rintro n w₁ w₂ ⟨hinv, hempty⟩ h
    exact ⟨h.1.2 ▸ hinv, h.1.1.trans hempty⟩
  · rintro n e w₁ houtcome ⟨hinv, -, hfailed⟩
    exact ⟨hinv, hfailed e (RetryPolicy.map_eq_error_iff.mp houtcome)⟩
  · rintro outcome w' ⟨last, hsettles, rfl, hinv, hloaded, -⟩
    rw [Nat.zero_add] at hinv hloaded ⊢
    simp only [Nat.zero_add] at hsettles
    exact ⟨last, hsettles.of_map, rfl, hinv, hloaded⟩

/-- **A reload** loads its batch. -/
theorem reload_loads {w : World δ} (hw : Inv 0 w.sources)
    (hunits : w.cache.orgUnits = some before.clear) :
    b.reload.Achieves World.BackendUndisturbed w fun result w' =>
      ∃ calls batch, b.Loads script calls batch ∧
        result = { loaded := batch.records.length, reloaded := b.reloadEnabled } ∧
        Inv calls w'.sources ∧ (calls = 0 → w'.sources = w.sources) ∧ Loaded before batch w' := by
  unfold reload
  cases henabled : b.reloadEnabled with
  | false =>
      have hidle : b.Loads script 0 {} := loads_nothing (by simp [henabled])
      exact ⟨0, {}, hidle, rfl, hw, fun _ => rfl, loaded_nothing hunits⟩
  | true =>
      rw [if_pos rfl]
      cases hprofile : b.profile with
      | none =>
          have hidle : b.Loads script 0 {} := loads_nothing (by simp [hprofile])
          have hexecute : b.retry.execute b.loadAll = .done (.ok 0) := by
            rw [RetryPolicy.execute, loadAll, hprofile]
            cases b.retry.retries.toNat <;> rfl
          rw [hexecute]
          exact ⟨0, {}, hidle, rfl, hw, fun _ => rfl, loaded_nothing hunits⟩
      | some profile =>
          have hsome : b.profile.isSome = true := by rw [hprofile]; rfl
          refine Activity.achieves_bind.mpr ((execute_loads hplays hsome hw hunits).mono ?_)
          rintro outcome w' ⟨last, hsettles, rfl, hinv, hloaded⟩
          have hloads := loads_of_settles henabled hsome hsettles
          revert hloads hloaded
          cases b.reply (script last) .all with
          | error e => exact fun hloaded hloads => ⟨_, _, hloads, rfl, hinv, by simp, hloaded⟩
          | ok response => exact fun hloaded hloads => ⟨_, _, hloads, rfl, hinv, by simp, hloaded⟩

/-- **A full refresh replaces the region**, whatever was in it, however the calls of the backend end
and whatever the retries are, as long as the region can hold all at once what is loaded.

* Nothing from before survives: the keys are the ids of the records of the batch, each with its
  record, and their number is reported.
* The batch is what the reply of the attempt that settles the reload says, and empty if that attempt
  fails; with reloading off it is empty and the backend is not called. -/
theorem refreshAll_replaces {w : World δ} (hw : Inv 0 w.sources)
    (hlock : w.backendLock.queue = []) (hunits : w.cache.orgUnits = some before)
    (hroom : ∀ calls batch, b.Loads script calls batch →
      before.settings.Holds (.ofList batch.pairs)) :
    b.refreshAll.Achieves World.BackendUndisturbed w fun result w' =>
      ∃ calls batch after, b.Loads script calls batch ∧ w'.cache.orgUnits = some after ∧
        batch.Replaces before after ∧
        result = { loaded := batch.records.length, reloaded := b.reloadEnabled } ∧
        Inv calls w'.sources ∧ (calls = 0 → w'.sources = w.sources) := by
  refine Lock.achieves_holding (fun s s' hs => hs.2) hlock fun w₁ w₂ h₁ h₂ => ?_
  refine Gate.achieves_refreshing.mpr fun w₃ h₃ => ?_
  have hunits₃ : w₃.cache.orgUnits = some before :=
    h₃.1.1.trans (h₂.1.1.trans (h₁.1.1.trans hunits))
  have hsources₃ : w₃.sources = w.sources := h₃.1.2.trans (h₂.1.2.trans h₁.1.2)
  have hempty : (Gate.raise World.backendFlag purge w₃).cache.orgUnits = some before.clear := by
    show w₃.cache.orgUnits.map Region.clear = _
    rw [hunits₃, Option.map_some]
  refine (reload_loads hplays (w := Gate.raise World.backendFlag purge w₃) (hsources₃ ▸ hw)
    hempty).mono ?_
  rintro result t ⟨calls, batch, hloads, hresult, hinv, huncalled, after, hafter, hreplaces⟩
  -- Neither lowering the flag nor giving the lock back touches the org units or the sources.
  intro t₁ ht₁ t₂ ht₂ ticket
  have hsources : t₂.sources = t.sources := ht₂.1.2.trans ht₁.1.2
  refine ⟨calls, batch, after, hloads, (ht₂.1.1.trans ht₁.1.1).trans hafter,
    hreplaces (hroom calls batch hloads), hresult, ?_, fun hzero => ?_⟩
  · exact hsources ▸ hinv
  · exact hsources.trans ((huncalled hzero).trans hsources₃)

end Plays

end BackendSource

namespace Depot

/-- The first call fails, and the second one tells all units. -/
def outcomes : List (Except SourceError BackendResponse) :=
  [.error (.transient "connection reset"), .ok (backend.response BackendRequest.all.imports)]

def flakySource : BackendSource ReplayBackend where
  client := ReplayBackend.client (World.sourcesField.comp .whole)
  profile := source.profile
  retry := {}
  reloadEnabled := true

def flakyState : World ReplayBackend where
  cache := { orgUnits := some region }
  sources := { outcomes }

/-- The units of the second reply. -/
def batch : Batch where
  records := [.ofDetails backend.details "B", .ofDetails backend.details "A"]

theorem loads_batch :
    flakySource.Loads (fun n _ _ _ => outcomes[n]?.getD (.ok .empty)) 2 batch := by
  refine BackendSource.loads_of_settles rfl rfl ⟨by decide, fun i hi => ?_, .inr ?_⟩
  · obtain rfl : i = 0 := by omega
    exact ⟨_, rfl, rfl⟩
  · intro e he
    contradiction

end Depot

open Depot in
/-- A region of three entries is replaced by two units, after a failure. -/
theorem BackendSource.refreshAll_replaces_of_depot :
    flakySource.refreshAll.Achieves World.BackendUndisturbed flakyState fun result w' =>
      ∃ after, w'.cache.orgUnits = some after ∧ batch.Replaces region after ∧
        result = { loaded := 2, reloaded := true } ∧ w'.sources.outcomes = [] := by
  refine (refreshAll_replaces (ReplayBackend.client_plays .whole outcomes) rfl rfl rfl
    fun calls loaded hloads => ?_).mono ?_
  · obtain ⟨-, rfl⟩ := loads_batch.unique hloads
    decide
  · rintro result w' ⟨calls, loaded, after, hloads, hafter, hreplaces, rfl, hleft, -⟩
    obtain ⟨rfl, rfl⟩ := loads_batch.unique hloads
    exact ⟨after, hafter, hreplaces, rfl, hleft⟩

end AttrFederation
