import AttrFederation.Proofs.Cache.View
import AttrFederation.Proofs.Resolution.CacheTransparency
import AttrFederation.Proofs.Source.SomeOfAll

/-!
# Asking again

Org units that the cache lacks are asked of the backend, and what it says of them is cached, also
that it knows nothing.  So the second request for the same attribute of the same principal finds all
of the org units in the cache.  It finds the same values, although it may find them under other ids:
what was found under the lower-case form of an id before may now be found under the id itself.

* `Batch.Covers` — a batch says something about each id asked for, and nothing else;
* `Cache.View.misses_withBatch`, `Cache.View.mem_values_withBatch` — with such a batch in front,
  nothing is missed, and the values are those that were there and those that came;
* `Resolver.resolve_composes` — a request, whatever the cache shows;
* `Resolver.resolve_again` — the main result, for two requests.
-/

namespace AttrFederation

/-- The texts of a value. -/
def AttributeValue.texts : AttributeValue → List String
  | null => []
  | single text => [text]
  | multi texts => texts

/-! ## What a batch covers -/

/-- A batch has a unit for each of some ids and no others, its records among them; what is no record
supplies nothing. -/
structure Batch.Covers (batch : Batch) (ids : List String) : Prop where
  isSome_unit? : ∀ id, (batch.unit? id).isSome = true ↔ id ∈ ids
  record_or : ∀ id unit, batch.unit? id = some unit →
    unit ∈ batch.records ∨ ∀ attributeName, unit.supply attributeName = []
  unit?_record : ∀ unit ∈ batch.records, batch.unit? unit.id = some unit

theorem OrgUnit.supply_negative (id attributeName : String) :
    (negative id).supply attributeName = [] := by
  unfold supply columnNamed
  cases OrgUnitColumn.ofKey? attributeName with
  | none => rfl
  | some column => cases column <;> rfl

theorem Batch.Covers.records_eq_nil {batch : Batch} (h : batch.Covers []) : batch.records = [] := by
  refine List.eq_nil_iff_forall_not_mem.mpr fun unit hunit => ?_
  have hnone := (h.isSome_unit? unit.id).mp (by rw [h.unit?_record unit hunit, Option.isSome_some])
  contradiction

namespace Batch

theorem covers_nil : Covers {} [] where
  isSome_unit? id := by simp [unit?]
  record_or id unit h := by simp [unit?] at h
  unit?_record unit h := by contradiction

/-- The details of the ids asked for. -/
theorem covers_ofDetails {details : List Detail} {ids : List String}
    (h : ∀ id ∈ details.map Detail.id, id ∈ ids) : (ofDetails details ids).Covers ids where
  isSome_unit? id := by
    rw [unit?_ofDetails]
    by_cases hd : id ∈ details.map Detail.id
    · simp [hd, h id hd, -List.mem_map]
    · by_cases hid : id ∈ ids <;> simp [hd, hid, -List.mem_map]
  record_or id unit hunit := by
    rw [unit?_ofDetails] at hunit
    by_cases hd : id ∈ details.map Detail.id
    · rw [if_pos hd] at hunit
      left
      rw [records_ofDetails, ← Option.some.inj hunit]
      exact List.mem_map_of_mem (List.mem_eraseDups.mpr hd)
    · rw [if_neg hd] at hunit
      split at hunit
      · right
        rw [← Option.some.inj hunit]
        exact OrgUnit.supply_negative id
      · contradiction
  unit?_record unit hunit := by
    rw [records_ofDetails] at hunit
    obtain ⟨id, hid, rfl⟩ := List.mem_map.mp hunit
    rw [(OrgUnit.id_isNegative_ofDetails details id).1, unit?_ofDetails,
      if_pos (List.mem_eraseDups.mp hid)]

/-- Nothing but negative units. -/
theorem covers_negatives (ids : List String) :
    Covers { negatives := ids.map .negative } ids := by
  have hunit : ∀ id, unit? { negatives := ids.map .negative } id =
      if id ∈ ids then some (.negative id) else none := by
    intro id
    rw [unit?, List.append_nil]
    exact findRev?_map_keyed (fun _ => rfl) ids id
  refine ⟨fun id => ?_, fun id unit h => ?_, fun unit h => by contradiction⟩
  · by_cases hid : id ∈ ids <;> simp [hunit, hid]
  · rw [hunit] at h
    split at h
    · right
      rw [← Option.some.inj h]
      exact OrgUnit.supply_negative id
    · contradiction

/-- **A response with tables** says something about each id asked for, also when it reports
errors. -/
theorem covers_response {m : MemoryBackend} (hsilent : m.silent = false) (ids : List String) :
    (ofResponse (m.response (BackendRequest.only ids).imports) ids).Covers ids := by
  have hsome : MemoryBackend.wantsAll (BackendRequest.only ids).imports = false := rfl
  rw [MemoryBackend.ofResponse_response_eq, if_neg (by simp [hsilent]), hsome,
    MemoryBackend.wanted_imports]
  split
  · refine covers_ofDetails fun id hid => ?_
    obtain ⟨d, hd, rfl⟩ := List.mem_map.mp hid
    simpa using (List.mem_filter.mp hd).2
  · exact covers_negatives ids

end Batch

/-! ## Views with a batch in front -/

namespace Cache.View

variable {v : View} {batch : Batch} {ids : List String}

theorem mem_misses_iff {id : String} : id ∈ v.misses ids ↔ id ∈ ids ∧ v.found? id = none := by
  simp [misses]

theorem mem_values_iff {attributeName text : String} :
    text ∈ v.values attributeName ids ↔
      ∃ id ∈ ids, ∃ unit, v.found? id = some unit ∧ text ∈ unit.supply attributeName := by
  unfold values
  rw [List.mem_flatMap]
  refine exists_congr fun id => and_congr_right fun _ => ?_
  cases v.found? id <;> simp

/-- What is found is not covered. -/
theorem unit?_eq_none (hcovers : batch.Covers (v.misses ids)) {id : String} {unit : OrgUnit}
    (h : v.found? id = some unit) : batch.unit? id = none := by
  have hnot : id ∉ v.misses ids := by simp [mem_misses_iff, h]
  rw [← hcovers.isSome_unit?] at hnot
  simpa using hnot

/-- With the batch in front, what was found is found still, and what was not is in the batch. -/
theorem found?_withBatch (hcovers : batch.Covers (v.misses ids)) {id : String} (hid : id ∈ ids) :
    (v.withBatch batch).found? id = (v.found? id).or (batch.unit? id) := by
  have hfound : (v.withBatch batch).found? id = ((batch.unit? id).or (v.unit? id)).or
      ((batch.unit? (Text.lowercase id)).or (v.unit? (Text.lowercase id))) := rfl
  rw [hfound]
  cases h : v.found? id with
  | none =>
      have hcovered := (hcovers.isSome_unit? id).mpr (mem_misses_iff.mpr ⟨hid, h⟩)
      obtain ⟨unit, hunit⟩ := Option.isSome_iff_exists.mp hcovered
      simp [hunit]
  | some unit =>
      rw [unit?_eq_none hcovers h]
      cases hexact : v.unit? id with
      | some exact =>
          simpa [found?, hexact] using h
      | none =>
          -- It was found in lower case, so the batch has nothing under that either.
          have hlower : v.unit? (Text.lowercase id) = some unit := by
            simpa [found?, hexact] using h
          have hfoundLower : v.found? (Text.lowercase id) = some unit := by simp [found?, hlower]
          simp [unit?_eq_none hcovers hfoundLower, hlower]

/-- **Nothing is missed** any more. -/
theorem misses_withBatch (hcovers : batch.Covers (v.misses ids)) :
    (v.withBatch batch).misses ids = [] := by
  refine List.eq_nil_iff_forall_not_mem.mpr fun id hmem => ?_
  obtain ⟨hid, hnone⟩ := mem_misses_iff.mp hmem
  rw [found?_withBatch hcovers hid, Option.or_eq_none_iff] at hnone
  have hcovered := (hcovers.isSome_unit? id).mpr (mem_misses_iff.mpr ⟨hid, hnone.1⟩)
  simp [hnone.2] at hcovered

/-- **The values** are those that were found and those of the records that came. -/
theorem mem_values_withBatch (hcovers : batch.Covers (v.misses ids)) {attributeName text : String} :
    text ∈ (v.withBatch batch).values attributeName ids ↔
      text ∈ v.values attributeName ids ++ batch.records.flatMap fun unit =>
        unit.supply attributeName := by
  rw [List.mem_append, mem_values_iff, mem_values_iff, List.mem_flatMap]
  constructor
  · rintro ⟨id, hid, unit, hunit, htext⟩
    rw [found?_withBatch hcovers hid] at hunit
    cases hfound : v.found? id with
    | some found =>
        left
        rw [hfound, Option.some_or] at hunit
        exact ⟨id, hid, unit, hfound.trans hunit, htext⟩
    | none =>
        right
        rw [hfound, Option.none_or] at hunit
        rcases hcovers.record_or id unit hunit with hrecord | hnothing
        · exact ⟨unit, hrecord, htext⟩
        · simp [hnothing] at htext
  · rintro (⟨id, hid, unit, hunit, htext⟩ | ⟨unit, hrecord, htext⟩)
    · exact ⟨id, hid, unit, by rw [found?_withBatch hcovers hid, hunit, Option.some_or], htext⟩
    · have hunit := hcovers.unit?_record unit hrecord
      have hmissed : unit.id ∈ v.misses ids := by
        rw [← hcovers.isSome_unit?, hunit, Option.isSome_some]
      obtain ⟨hid, hnone⟩ := mem_misses_iff.mp hmissed
      exact ⟨unit.id, hid, unit, by rw [found?_withBatch hcovers hid, hnone, hunit]; rfl, htext⟩

end Cache.View

/-! ## Requests -/

section Requests

variable {δ : Type} {field : Field δ MemoryBackend} {during : Nat → Prop} {v : Cache.View}
  {w : World δ}

/-- Without calls left to fail, a call turns out as it is answered. -/
theorem MemoryBackend.outcome_eq_answer {m : MemoryBackend} (h : m.failures = 0) :
    m.outcome = m.answer := by
  funext serverPrefix function imports
  simp [outcome, answer, respond, h]

/-- A query of a backend that provides its function says something about each id, and what it says
is shown after it. -/
theorem BackendSource.query_covers {b : BackendSource δ}
    (hclient : b.client = MemoryBackend.client (World.sourcesField.comp field))
    (hhealthy : (field.get w.sources).Provides b.profile) {ids : List String} (hids : ids ≠ [])
    (hshows : w.cache.Shows during v) :
    (b.query ids).Achieves (World.Resting during) w fun units w' => ∃ batch : Batch,
      batch.Covers ids ∧ units = batch.records ∧
        (w'.cache.unitEvictions = v.evictions → w'.cache.Shows during (v.withBatch batch)) := by
  obtain ⟨hfailures, hsilent, hknows⟩ := hhealthy
  generalize hm : field.get w.sources = m at hfailures hsilent hknows
  have hanswers : b.client.Answers
      (fun s => (field.get s).failures = 0 ∧ (field.get s).answer = m.answer) m.answer := by
    rw [hclient]
    refine MemoryBackend.client_answers field (fun _ h => h) fun s calls last h => ?_
    rw [field.get_set]
    exact h
  have hcall : (b.call (.only ids)).Achieves (World.Resting during) w fun outcome w' =>
      outcome = b.reply m.answer (.only ids) ∧ w'.cache = w.cache := by
    refine call_replies m.answer (fun _ => rfl) fun profile _ => ?_
    exact ((hanswers _ _ _).resting ⟨by rw [hm, hfailures], by rw [hm]⟩).mono
      fun outcome w' h => ⟨h.1, h.2.1⟩
  have hreply : b.reply m.answer (.only ids) =
      .ok (m.response (BackendRequest.only ids).imports) := by
    rw [← MemoryBackend.outcome_eq_answer hfailures, reply_of_knows hknows,
      MemoryBackend.respond_eq_ok_iff.mpr ⟨hfailures, rfl⟩]
  unfold query
  rw [if_neg (by simpa using hids)]
  refine Activity.achieves_bind.mpr (hcall.mono ?_)
  rintro outcome w₁ ⟨rfl, hcache⟩
  rw [hreply]
  intro w₂ hw₂
  have hsame : w₂.cache = w.cache := hw₂.1.1.trans hcache
  refine ⟨_, Batch.covers_response hsilent ids, rfl, fun hkept => ?_⟩
  exact Cache.Shows.storeIn (hsame ▸ hshows) hw₂.2 _ hkept

/-- What a request for the org units of ids comes to: its values are those found in the cache and
those of a batch, which is shown after it if nothing is evicted.  If nothing was missed, the sources
are as before. -/
structure World.Composed (during : Nat → Prop) (v : Cache.View) (attributeName : String)
    (ids : List String) (batch : Batch) (w : World δ) (texts : List String) (w' : World δ) :
    Prop where
  covers : batch.Covers (v.misses ids)
  texts_eq : texts = v.values attributeName ids ++
    batch.records.flatMap fun unit => unit.supply attributeName
  shows : w'.cache.unitEvictions = v.evictions → w'.cache.Shows during (v.withBatch batch)
  unasked : v.misses ids = [] → w'.sources = w.sources

namespace Resolver

variable {r : Resolver δ}

/-- The null value stands for no values, and for nothing else. -/
theorem ofTexts?_eq_nullValue_iff {texts : List String} :
    (ofTexts? texts).getD r.settings.nullValue = r.settings.nullValue ↔ texts = [] := by
  have hmulti : AttributeValue.multi texts ≠ r.settings.nullValue := by
    unfold Settings.nullValue
    split <;> simp
  by_cases hnone : texts = [] <;> simp [ofTexts?, hnone, hmulti]

/-- The same values make the same texts, and the null value of none. -/
theorem sameTexts_of_mem_iff {texts texts' : List String}
    (h : ∀ text, text ∈ texts' ↔ text ∈ texts) :
    (∀ text, text ∈ ((ofTexts? texts').getD r.settings.nullValue).texts ↔
        text ∈ ((ofTexts? texts).getD r.settings.nullValue).texts) ∧
      ((ofTexts? texts').getD r.settings.nullValue = r.settings.nullValue ↔
        (ofTexts? texts).getD r.settings.nullValue = r.settings.nullValue) := by
  have hempty : texts' = [] ↔ texts = [] := by
    simp only [List.eq_nil_iff_forall_not_mem, h]
  refine ⟨?_, by rw [ofTexts?_eq_nullValue_iff, ofTexts?_eq_nullValue_iff, hempty]⟩
  by_cases hnone : texts = []
  · simp [ofTexts?, hnone, hempty.mpr hnone]
  · have hsome : texts' ≠ [] := mt hempty.mp hnone
    simp [ofTexts?, hnone, hsome, AttributeValue.texts, h]

/-- A principal that the cache shows is found there. -/
theorem findPrincipal_shows {key attributeName : String} {record : Record}
    (hprincipal : v.principal? key = some record) (hshows : w.cache.Shows during v) :
    (r.findPrincipal key attributeName).Achieves (World.Resting during) w fun found w' =>
      found = some record ∧ w'.cache.Shows during v ∧ w'.sources = w.sources := by
  refine Activity.achieves_bind.mpr (Activity.achieves_modifyGet.mpr fun w₁ hw₁ => ?_)
  have hshows₁ : w₁.cache.Shows during v := hw₁.1.1 ▸ hshows
  obtain ⟨hfound, hkept⟩ := hshows₁.findPrincipal hw₁.2 key
  have hlooked : (lookUp key w₁).1 = some record := hfound.trans hprincipal
  rw [hlooked]
  exact ⟨rfl, hkept, hw₁.1.2.1⟩

variable (hclient : r.backend.client = MemoryBackend.client (World.sourcesField.comp field))

include hclient

/-- Only ids that are missed are asked for. -/
theorem fetch_covers {misses : List String}
    (hhealthy : misses ≠ [] → (field.get w.sources).Provides r.backend.profile)
    (hshows : w.cache.Shows during v) :
    (r.fetch misses).Achieves (World.Resting during) w fun units w' => ∃ batch : Batch,
      batch.Covers misses ∧ units = batch.records ∧
        (w'.cache.unitEvictions = v.evictions → w'.cache.Shows during (v.withBatch batch)) ∧
        (misses = [] → w'.sources = w.sources) := by
  unfold fetch
  by_cases hempty : misses = []
  · subst hempty
    exact ⟨{}, Batch.covers_nil, rfl, fun _ => hshows, fun _ => rfl⟩
  · rw [if_neg (by simpa using hempty)]
    intro w₁ hw₁
    have hhealthy₁ : (field.get w₁.sources).Provides r.backend.profile := by
      rw [hw₁.1.2.1]
      exact hhealthy hempty
    refine (BackendSource.query_covers (w := w₁.onMetrics Metrics.recordBackendQuery) hclient
      hhealthy₁ hempty (hw₁.1.1 ▸ hshows)).mono fun units w' h => ?_
    obtain ⟨batch, hcovers, hunits, hshown⟩ := h
    exact ⟨batch, hcovers, hunits, hshown, fun h => absurd h hempty⟩

theorem compose_composes {ids : List String}
    (hhealthy : v.misses ids ≠ [] → (field.get w.sources).Provides r.backend.profile)
    (hshows : w.cache.Shows during v) (attributeName : String) :
    (r.compose ids attributeName).Achieves (World.Resting during) w fun value w' =>
      ∃ batch texts, World.Composed during v attributeName ids batch w texts w' ∧
        value = ofTexts? texts := by
  refine compose_achieves fun w₁ hw₁ => ?_
  have hshows₁ : w₁.cache.Shows during v := hw₁.1.1 ▸ hshows
  obtain ⟨hcollected, hkept⟩ := hshows₁.collect hw₁.2 attributeName ids
  have hread : (w₁.withCache (CachedValues.collect attributeName w₁.now ids)).1 =
      ⟨v.values attributeName ids, v.misses ids⟩ := hcollected
  have hsources : (w₁.withCache (CachedValues.collect attributeName w₁.now ids)).2.sources =
      w.sources := hw₁.1.2.1
  rw [← hsources] at hhealthy
  dsimp only
  rw [hread]
  refine (fetch_covers hclient hhealthy hkept).mono ?_
  rintro units w₂ ⟨batch, hcovers, rfl, hshown, hunasked⟩
  refine ⟨batch, _, ⟨hcovers, rfl, hshown, fun h => ?_⟩, rfl⟩
  exact (hunasked h).trans hsources

/-- The org units of a record, none if they are no list. -/
def unitsOf (r : Resolver δ) (record : Record) : List String :=
  (r.orgUnitIds record).getD []

theorem resolveFor_composes {record : Record} {attributeName : String}
    (hroute : r.routes.route record.domain record.kind attributeName = .backend)
    (hhealthy : v.misses (r.unitsOf record) ≠ [] →
      (field.get w.sources).Provides r.backend.profile)
    (hshows : w.cache.Shows during v) :
    (r.resolveFor record attributeName).Achieves (World.Resting during) w fun result w' =>
      ∃ batch texts,
        World.Composed during v attributeName (r.unitsOf record) batch w texts w' ∧
          result.2 = ofTexts? texts := by
  unfold unitsOf at hhealthy ⊢
  refine resolveFor_achieves
    (P := fun value w' => ∃ batch texts, World.Composed during v attributeName
      ((r.orgUnitIds record).getD []) batch w texts w' ∧ value = ofTexts? texts) hroute ?_ ?_
  · intro hids w₁ hcache hsources _
    rw [hids]
    exact ⟨{}, [], ⟨Batch.covers_nil, rfl, fun _ => hcache ▸ hshows, fun _ => hsources⟩, rfl⟩
  · intro ids hids w₁ hcache hsources
    rw [hids, ← hsources] at hhealthy
    refine (compose_composes hclient hhealthy (hcache ▸ hshows) attributeName).mono ?_
    rintro value w₂ ⟨batch, texts, ⟨hcovers, htexts, hshown, hunasked⟩, rfl⟩
    rw [hids]
    exact ⟨batch, texts, ⟨hcovers, htexts, hshown, fun h => (hunasked h).trans hsources⟩, rfl⟩

/-- **A request** for an attribute that comes from the backend, whatever the cache shows of the org
units. -/
theorem resolve_composes {subject : Subject} {key attributeName : String} {record : Record}
    (hkey : subject.get? r.settings.correlationKey = some key)
    (hprincipal : v.principal? key = some record)
    (hroute : r.routes.route record.domain record.kind attributeName = .backend)
    (hhealthy : v.misses (r.unitsOf record) ≠ [] →
      (field.get w.sources).Provides r.backend.profile)
    (hshows : w.cache.Shows during v) :
    (r.resolve subject attributeName).Achieves (World.Resting during) w fun value w' =>
      ∃ batch texts,
        World.Composed during v attributeName (r.unitsOf record) batch w texts w' ∧
          value = (ofTexts? texts).getD r.settings.nullValue := by
  intro w₁ hw₁
  have hshows₁ : w₁.cache.Shows during v := hw₁.1.1 ▸ hshows
  refine Activity.achieves_bind.mpr (Activity.achieves_bind.mpr ?_)
  unfold resolve?
  rw [hkey]
  refine Activity.achieves_bind.mpr ((findPrincipal_shows hprincipal hshows₁).mono ?_)
  rintro _ w₂ ⟨rfl, hshows₂, hsources⟩
  have hsources₂ : w₂.sources = w.sources := hsources.trans hw₁.1.2.1
  rw [← hsources₂] at hhealthy
  refine (resolveFor_composes hclient hroute hhealthy hshows₂).mono ?_
  rintro ⟨path, value⟩ w₃ ⟨batch, texts, ⟨hcovers, htexts, hshown, hunasked⟩, rfl⟩ w₄ hw₄
  refine ⟨batch, texts, ⟨hcovers, htexts, ?_, fun h => ?_⟩, rfl⟩
  · rw [← show w₄.cache = w₃.cache from hw₄.1.1] at hshown
    exact hshown
  · exact hw₄.1.2.1.trans ((hunasked h).trans hsources₂)

/-- **Asking again** for an attribute that comes from the backend, of a principal in the cache, over
a healthy backend in memory: if nothing is evicted or becomes too old meanwhile, the second request
makes no call of the backend, and has the same values as the first one.  It has the null value
exactly when the first one had it. -/
theorem resolve_again {subject : Subject} {key attributeName : String} {record : Record} {i : Nat}
    (hhealthy : (field.get w.sources).Provides r.backend.profile)
    (hkey : subject.get? r.settings.correlationKey = some key)
    (hunexpiring : w.cache.Unexpiring during) (hi : during i)
    (hrecord : (w.cache.findPrincipal i key).1 = some record)
    (hroute : r.routes.route record.domain record.kind attributeName = .backend) :
    (r.resolve subject attributeName).Achieves (World.Resting during) w fun first w₁ =>
      w₁.cache.unitEvictions = w.cache.unitEvictions →
      (r.resolve subject attributeName).Achieves (World.Resting during) w₁ fun second w₂ =>
        w₂.sources = w₁.sources ∧ (∀ text, text ∈ second.texts ↔ text ∈ first.texts) ∧
          (second = r.settings.nullValue ↔ first = r.settings.nullValue) := by
  have hshows := hunexpiring.shows hi
  have hprincipal : (w.cache.viewAt i).principal? key = some record :=
    (hshows.findPrincipal hi key).1.symm.trans hrecord
  refine (resolve_composes hclient hkey hprincipal hroute (fun _ => hhealthy) hshows).mono ?_
  rintro _ w₁ ⟨batch, texts, hfirst, rfl⟩ hkept
  have hmisses := Cache.View.misses_withBatch hfirst.covers
  have hprincipal₁ : ((w.cache.viewAt i).withBatch batch).principal? key = some record := hprincipal
  refine (resolve_composes hclient hkey hprincipal₁ hroute (fun h => absurd hmisses h)
    (hfirst.shows hkept)).mono ?_
  rintro _ w₂ ⟨batch', texts', hsecond, rfl⟩
  have hnothing : batch'.records = [] := (hmisses ▸ hsecond.covers).records_eq_nil
  have hsame : ∀ text, text ∈ texts' ↔ text ∈ texts := by
    intro text
    rw [hsecond.texts_eq, hfirst.texts_eq, hnothing, List.flatMap_nil, List.append_nil]
    exact Cache.View.mem_values_withBatch hfirst.covers
  exact ⟨hsecond.unasked hmisses, sameTexts_of_mem_iff hsame⟩

end Resolver

end Requests

namespace Branches

/-- Jake with more org units: one is listed twice, two in capitals, and one does not exist. -/
def jakeOfUnits : Normalized where
  record := Normalized.insertAll { domain := "NORTH", id := "NORTH#jake", kind := .principal }
    [("ammoarea", .multi ["U2", "u1", "U1", "u1", "u9"])]
  aliases := ["jake"]

/-- A cache without expiry that knows Jake and one of the org units. -/
def cacheOfJake : Cache :=
  (jakeOfUnits.storeIn .principal 0
      { principals := some (.empty { ttl := .infinite })
        orgUnits := some (.empty { ttl := .infinite }) }).putOrgUnit 0
    ((OrgUnit.blank "u2").push .storageLocation "L2")

def stateOfJake : World MemorySources where
  cache := cacheOfJake
  sources := sources []

end Branches

open Branches in
/-- At first one location is found in the cache, in lower case, and one comes from the backend; the
second time the latter is found twice. -/
theorem Resolver.resolve_again_for_jake :
    ∃ first w₁ time,
      (service.resolve subject "sloc").alone stateOfJake 0 = some (first, w₁, time) ∧
        (service.resolve subject "sloc").Achieves (World.Resting fun _ => True) w₁
          fun second w₂ => w₂.sources = w₁.sources ∧
            (∀ text, text ∈ second.texts ↔ text ∈ first.texts) ∧
            (second = service.settings.nullValue ↔ first = service.settings.nullValue) := by
  have hclient : service.backend.client =
      MemoryBackend.client (World.sourcesField.comp MemorySources.backendField) := rfl
  have hhealthy : (MemorySources.backendField.get stateOfJake.sources).Provides
      service.backend.profile := ⟨rfl, rfl, _, rfl, rfl, rfl⟩
  have hkey : subject.get? service.settings.correlationKey = some "jake" := by decide +kernel
  have hunexpiring : stateOfJake.cache.Unexpiring fun _ => True :=
    Cache.unexpiring_of_infinite (by decide +kernel) (by decide +kernel)
  have hrecord : (stateOfJake.cache.findPrincipal 0 "jake").1 = some jakeOfUnits.record := by
    decide +kernel
  have hroute : service.routes.route jakeOfUnits.record.domain jakeOfUnits.record.kind "sloc" =
      .backend := by decide +kernel
  have hagain := resolve_again hclient hhealthy hkey hunexpiring trivial hrecord hroute
  have hruns : ((service.resolve subject "sloc").alone stateOfJake 0).map
      (fun run => run.2.1.cache.unitEvictions) = some stateOfJake.cache.unitEvictions := by
    decide +kernel
  obtain ⟨⟨first, w₁, time⟩, hrun, hkept⟩ := Option.map_eq_some_iff.mp hruns
  exact ⟨first, w₁, time, hrun, hagain.of_alone (fun w => ⟨w.undisturbed_refl, trivial⟩) hrun hkept⟩

end AttrFederation
