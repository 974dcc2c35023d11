import AttrFederation.Proofs.Resolution.Repetition

/-!
# Attributes while the backend fails

An attribute that comes from the backend is composed from the org units in the cache and those that
a call adds.  A call that fails, and one whose response has no return table, adds none, and what
composes the value is not told.  So it gives what the units in the cache supply:

* `BackendSource.query_of_fails` — a query that turns out so returns nothing;
* `Resolver.compose_of_fails` — the value is composed of the units in the cache alone;
* `Resolver.resolve_of_fails` — so is what is resolved, however the principal is found; it is the
  null value exactly if those units supply nothing;
* `Resolver.not_null_of_failed_call` — one of two units is in the cache, and the call for the other
  one fails.
-/

namespace AttrFederation

variable {δ : Type} {during : Nat → Prop} {Inv : δ → Prop} {w : World δ}

/-! ## Calls that add nothing -/

/-- A call ended with an error, or with a response without a return table. -/
def SaysNothing (outcome : Except SourceError BackendResponse) : Prop :=
  ∀ response, outcome = .ok response →
    response.tables.get? BackendRequest.returnTable = none

/-- While what the sources keep is as `Inv` says, a call for some ids ends so. -/
def BackendSource.Fails (b : BackendSource δ) (Inv : δ → Prop) : Prop :=
  ∀ ids (w : World δ), Inv w.sources → (b.call (.only ids)).Achieves World.Undisturbed w
    fun outcome _ => SaysNothing outcome

/-- A query that turns out so returns nothing. -/
theorem BackendSource.query_of_fails {b : BackendSource δ} (hfails : b.Fails Inv)
    (ids : List String) (hw : Inv w.sources) :
    (b.query ids).Achieves (World.Resting during) w fun units _ => units = [] := by
  unfold query
  split
  · exact rfl
  · have hcall : (b.call (.only ids)).Achieves (World.Resting during) w fun outcome _ =>
        SaysNothing outcome := (hfails ids w hw).of_le fun _ _ hrest => hrest.1
    refine Activity.achieves_bind.mpr (hcall.mono fun outcome w₁ hnothing => ?_)
    cases outcome with
    | error e => exact rfl
    | ok response =>
        have hrecords : (Batch.ofResponse response ids).records = [] := by
          rw [Batch.ofResponse, hnothing response rfl]
        exact fun w₂ _ => hrecords

/-- A backend in memory that does not provide the function of a profile fails its calls. -/
theorem MemoryBackend.fails {b : BackendSource δ} {field : Field δ MemoryBackend}
    (hclient : b.client = MemoryBackend.client (World.sourcesField.comp field)) :
    b.Fails fun s => ¬ (field.get s).Provides b.profile := by
  intro ids w hw
  have hcall : (b.call (.only ids)).Achieves World.UnitsUndisturbed w fun outcome w' =>
      outcome = b.reply (field.get w.sources).outcome (.only ids) ∧
        w'.cache.orgUnits = w.cache.orgUnits := by
    refine BackendSource.call_replies _ (fun _ => rfl) fun profile _ => ?_
    rw [hclient]
    exact MemoryBackend.client_outcome field w _ _ _
  refine (hcall.of_le fun _ _ h => ⟨congrArg _ h.1, h.2.1⟩).mono ?_
  rintro _ _ ⟨rfl, -⟩ response hresponse
  generalize field.get w.sources = m at hw hresponse
  by_cases hknows : m.Knows b.profile
  · rw [BackendSource.reply_of_knows hknows] at hresponse
    obtain ⟨hfailures, rfl⟩ := MemoryBackend.respond_eq_ok_iff.mp hresponse
    -- It responds, so it must be silent.
    have hsilent : m.silent = true := by
      by_contra hspeaks
      exact hw ⟨hfailures, by simpa using hspeaks, hknows⟩
    rw [MemoryBackend.response, if_pos hsilent]
    rfl
  · rw [BackendSource.reply_of_not_knows hknows] at hresponse
    obtain rfl := Except.ok.inj hresponse
    rfl

/-! ## What is composed -/

/-- Collecting depends on the org units alone. -/
theorem Cache.collect_congr {c c' : Cache} (h : c'.orgUnits = c.orgUnits) (attributeName : String)
    (now : Nat) (ids : List String) :
    (CachedValues.collect attributeName now ids c').1 =
      (CachedValues.collect attributeName now ids c).1 := by
  have hsame : c.SameUnits (· = now) c' := ⟨h, fun region _ => region.steady_of_instant now⟩
  refine hsame.collect ?_ ?_ attributeName ids <;> rfl

namespace Resolver

variable {r : Resolver δ}

/-- What the org units of a record supply from a cache at an instant. -/
def cachedTexts (r : Resolver δ) (record : Record) (attributeName : String) (now : Nat)
    (c : Cache) : List String :=
  (CachedValues.collect attributeName now (r.unitsOf record) c).1.values

/-- However the principal of a key is found, in the cache or in the directory, it has this record;
the org units are left as they are. -/
def Finds (r : Resolver δ) (Inv : δ → Prop) (during : Nat → Prop) (w : World δ)
    (key attributeName : String) (record : Record) : Prop :=
  ∀ w₁, w.Resting during w₁ →
    (r.findPrincipal key attributeName).Achieves (World.Resting during) w₁ fun found w₂ =>
      found = some record ∧ w₂.cache.orgUnits = w.cache.orgUnits ∧ Inv w₂.sources

/-- A principal that the cache leads to is found there. -/
theorem finds_of_cached {key attributeName : String} {record : Record} (hw : Inv w.sources)
    (hcached : ∀ i, during i → (w.cache.findPrincipal i key).1 = some record) :
    r.Finds Inv during w key attributeName record := by
  intro w₁ hw₁
  refine Activity.achieves_bind.mpr (Activity.achieves_modifyGet.mpr fun w₂ hw₂ => ?_)
  have hcache : w₂.cache = w.cache := hw₂.1.1.trans hw₁.1.1
  have hfound : (lookUp key w₂).1 = some record := by
    refine Eq.trans ?_ (hcached w₂.now hw₂.2)
    rw [← hcache]
    rfl
  rw [hfound]
  refine ⟨rfl, ?_, ?_⟩
  · show (w₂.cache.findPrincipal w₂.now key).2.orgUnits = w.cache.orgUnits
    rw [Cache.orgUnits_findPrincipal, hcache]
  · show Inv w₂.sources
    rw [hw₂.1.2.1, hw₁.1.2.1]
    exact hw

section Fails

variable (hfails : r.backend.Fails Inv)

include hfails

theorem fetch_of_fails (misses : List String) (hw : Inv w.sources) :
    (r.fetch misses).Achieves (World.Resting during) w fun units _ => units = [] := by
  unfold fetch
  split
  · exact rfl
  · intro w₁ hw₁
    exact BackendSource.query_of_fails hfails misses (hw₁.1.2.1 ▸ hw)

/-- **Composing** gives what the units in the cache supply. -/
theorem compose_of_fails (ids : List String) (attributeName : String) (hw : Inv w.sources) :
    (r.compose ids attributeName).Achieves (World.Resting during) w fun value _ => ∃ i, during i ∧
      value = ofTexts? (CachedValues.collect attributeName i ids w.cache).1.values := by
  refine compose_achieves fun w₁ hw₁ =>
    (fetch_of_fails hfails _ (hw₁.1.2.1 ▸ hw)).mono ?_
  rintro units w₂ rfl
  refine ⟨w₁.now, hw₁.2, ?_⟩
  rw [List.flatMap_nil, List.append_nil]
  exact congrArg (fun c => ofTexts? (CachedValues.collect attributeName w₁.now ids c).1.values)
    hw₁.1.1

theorem resolveFor_of_fails {record : Record} {attributeName : String}
    (hroute : r.routes.route record.domain record.kind attributeName = .backend)
    (hw : Inv w.sources) :
    (r.resolveFor record attributeName).Achieves (World.Resting during) w fun result _ =>
      ∃ i, during i ∧ result.2 = ofTexts? (r.cachedTexts record attributeName i w.cache) := by
  refine resolveFor_achieves (P := fun value _ => ∃ i, during i ∧
    value = ofTexts? (r.cachedTexts record attributeName i w.cache)) hroute ?_ ?_
  · intro hids w₁ _ _ hi
    refine ⟨w₁.now, hi, ?_⟩
    rw [cachedTexts, unitsOf, hids]
    rfl
  · intro ids hids w₁ hcache hsources
    refine (compose_of_fails hfails ids attributeName (hsources ▸ hw)).mono ?_
    rintro value _ ⟨i, hi, rfl⟩
    refine ⟨i, hi, ?_⟩
    rw [cachedTexts, unitsOf, hids, Option.getD_some, hcache]

/-- **While the backend fails** to say anything, with an error or with a response without a return
table, an attribute that comes from it has the values that the principal's org units in the cache
supply, in the order of their ids, as of an instant during the request.  It has the null value
exactly if they supply none. -/
theorem resolve_of_fails {subject : Subject} {key attributeName : String} {record : Record}
    (hkey : subject.get? r.settings.correlationKey = some key)
    (hfinds : r.Finds Inv during w key attributeName record)
    (hroute : r.routes.route record.domain record.kind attributeName = .backend) :
    (r.resolve subject attributeName).Achieves (World.Resting during) w fun value _ =>
      ∃ i, during i ∧
        value = (ofTexts? (r.cachedTexts record attributeName i w.cache)).getD
          r.settings.nullValue ∧
        (value = r.settings.nullValue ↔ r.cachedTexts record attributeName i w.cache = []) := by
  intro w₁ hw₁
  refine Activity.achieves_bind.mpr (Activity.achieves_bind.mpr ?_)
  unfold resolve?
  rw [hkey]
  refine Activity.achieves_bind.mpr ((hfinds w₁ hw₁).mono ?_)
  rintro _ w₂ ⟨rfl, hunits, hinv⟩
  refine (resolveFor_of_fails hfails hroute hinv).mono ?_
  rintro ⟨path, value⟩ w₃ ⟨i, hi, rfl⟩ w₄ _
  have hsame : r.cachedTexts record attributeName i w₂.cache =
      r.cachedTexts record attributeName i w.cache :=
    congrArg CachedValues.values (Cache.collect_congr hunits attributeName i _)
  rw [hsame]
  exact ⟨i, hi, rfl, ofTexts?_eq_nullValue_iff⟩

end Fails

end Resolver

namespace Branches

/-- Of Jake's org units one is in the cache, and the next call of the backend fails. -/
def stateOfFailure : World MemorySources :=
  { stateOfJake with sources.backend.failures := 1 }

end Branches

open Branches in
/-- The location of the one unit in the cache is all there is. -/
theorem Resolver.resolve_of_fails_for_jake :
    (service.resolve subject "sloc").Achieves (World.Resting (· = 0)) stateOfFailure
      fun value _ => value = .multi ["L2"] := by
  have hfails : service.backend.Fails
      (fun s => ¬ (MemorySources.backendField.get s).Provides service.backend.profile) :=
    MemoryBackend.fails rfl
  have hfailing : ¬ (MemorySources.backendField.get stateOfFailure.sources).Provides
      service.backend.profile := fun h => Nat.one_ne_zero h.1
  have hkey : subject.get? service.settings.correlationKey = some "jake" := by decide +kernel
  have hcached : (stateOfFailure.cache.findPrincipal 0 "jake").1 = some jakeOfUnits.record := by
    decide +kernel
  have hroute : service.routes.route jakeOfUnits.record.domain jakeOfUnits.record.kind "sloc" =
      .backend := by decide +kernel
  have htexts : service.cachedTexts jakeOfUnits.record "sloc" 0 stateOfFailure.cache = ["L2"] := by
    decide +kernel
  refine (resolve_of_fails hfails hkey (finds_of_cached hfailing ?_) hroute).mono ?_
  · rintro _ rfl
    exact hcached
  · rintro value _ ⟨_, rfl, rfl, -⟩
    rw [htexts]
    rfl

open Branches in
/-- **A failed call**: the request returns a location, which is not the null value, although the call
for the other org units failed. -/
theorem Resolver.not_null_of_failed_call :
    ((service.backend.call (.only ["u1", "U1", "u1", "u9"])).alone stateOfFailure 0).map
        (fun run => run.1.toOption) = some none ∧
      ((service.resolve subject "sloc").alone stateOfFailure 0).map (·.1) =
        some (.multi ["L2"]) ∧
      AttributeValue.multi ["L2"] ≠ service.settings.nullValue := by
  decide +kernel

end AttrFederation
