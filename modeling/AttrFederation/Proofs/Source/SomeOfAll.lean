import AttrFederation.Proofs.Source.ScopedQuery

/-!
# Some org units among all

The backend is asked for all org units, or for those of some ids.  A backend in memory puts the
details into the response in the order in which they were added, whatever it is asked for, so the
records of some ids are those among the records of all that have these ids: with the same values and
in the same order (`MemoryBackend.records_only_eq_filter`).  What is left out are details of other
ids, and these count neither for the values of an id nor for its place
(`Batch.records_ofDetails_filter`).

Main result: `BackendSource.records_of_some`, about the calls of a source.
-/

namespace AttrFederation

variable {δ : Type}

/-! ## Details left out -/

/-- Taking out members of a kind and taking out repetitions do not depend on the order. -/
theorem eraseDups_filter {α : Type} [DecidableEq α] (p : α → Bool) (l : List α) :
    (l.filter p).eraseDups = l.eraseDups.filter p := by
  induction l using List.reverseRecOn with
  | nil => rfl
  | append_singleton l a ih =>
      rw [List.filter_append, eraseDups_concat]
      by_cases ha : p a <;> by_cases hmem : a ∈ l <;> simp [ha, hmem, ih, eraseDups_concat]

/-- **Records of some ids**: leaving out the details of the others leaves out their records. -/
theorem Batch.records_ofDetails_filter (p : String → Bool) (details : List Detail)
    (requested requested' : List String) :
    (ofDetails (details.filter fun d => p d.id) requested).records =
      (ofDetails details requested').records.filter fun unit => p unit.id := by
  have hids : (details.filter fun d => p d.id).map Detail.id = (details.map Detail.id).filter p := by
    rw [List.filter_map]
    rfl
  have hmade : ∀ id, (OrgUnit.ofDetails details id).id = id :=
    fun id => (OrgUnit.id_isNegative_ofDetails details id).1
  rw [records_ofDetails, records_ofDetails, hids, eraseDups_filter, List.filter_map]
  simp only [Function.comp_def, hmade]
  refine List.map_congr_left fun id hid => ?_
  exact OrgUnit.ofDetails_filter (List.mem_filter.mp hid).2 details

/-! ## Responses -/

namespace MemoryBackend

/-- Two backends in memory provide the same function and say the same, whatever they were asked
before. -/
structure SameContent (m m' : MemoryBackend) : Prop where
  serverPrefix : m'.serverPrefix = m.serverPrefix
  function : m'.function = m.function
  details : m'.details = m.details
  returnRows : m'.returnRows = m.returnRows
  silent : m'.silent = m.silent

/-- **The records of some ids** are those among the records of all. -/
theorem records_only_eq_filter {m m' : MemoryBackend} (h : m.SameContent m') (ids : List String) :
    (Batch.ofResponse (m.response (BackendRequest.only ids).imports) ids).records =
      (Batch.ofResponse (m'.response BackendRequest.all.imports) []).records.filter
        fun unit => ids.contains unit.id := by
  have hsome : wantsAll (BackendRequest.only ids).imports = false := rfl
  have hall : wantsAll BackendRequest.all.imports = true := rfl
  rw [ofResponse_response_eq, ofResponse_response_eq, h.details, h.returnRows, h.silent, hsome, hall,
    wanted_imports]
  simp only [Bool.false_or, Bool.true_or, List.filter_true]
  split
  · rfl
  split
  · exact Batch.records_ofDetails_filter ids.contains m.details ids []
  · rfl

theorem SameContent.knows_iff {m m' : MemoryBackend} (h : m.SameContent m')
    (profile : Option BackendProfile) : m'.Knows profile ↔ m.Knows profile := by
  rw [Knows, Knows, h.serverPrefix, h.function]

end MemoryBackend

/-! ## Calls -/

namespace BackendSource

variable {b : BackendSource δ} {field : Field δ MemoryBackend}

/-- A call of a backend in memory ends as the backend is. -/
theorem call_memory
    (hclient : b.client = MemoryBackend.client (World.sourcesField.comp field)) (w : World δ)
    (request : BackendRequest) :
    (b.call request).Achieves World.UnitsUndisturbed w fun outcome _ =>
      outcome = b.reply (field.get w.sources).outcome request := by
  have hends : (b.call request).Achieves World.UnitsUndisturbed w fun outcome _ =>
      outcome = b.reply (field.get w.sources).outcome request ∧ True := by
    refine call_replies _ (fun _ => trivial) fun profile _ => ?_
    rw [hclient]
    exact (MemoryBackend.client_outcome field w _ _ _).mono fun outcome _ h => ⟨h.1, trivial⟩
  exact hends.mono fun outcome _ h => h.1

/-- **A scoped call agrees with a full one.**  Two calls are made of backends in memory with the
same content, one for some ids and one for all.  Both have responses unless the backend still fails
calls, and when they have, the records of the scoped response are those of the full one with an id
asked for: the same units with the same values, in the same order. -/
theorem records_of_some
    (hclient : b.client = MemoryBackend.client (World.sourcesField.comp field)) {w w' : World δ}
    (hsame : (field.get w.sources).SameContent (field.get w'.sources)) (ids : List String) :
    (b.call (.only ids)).Achieves World.UnitsUndisturbed w fun few _ =>
      (b.call .all).Achieves World.UnitsUndisturbed w' fun all _ =>
        ((field.get w.sources).failures = 0 → (field.get w'.sources).failures = 0 →
          ∃ response response', few = .ok response ∧ all = .ok response') ∧
        ∀ response response', few = .ok response → all = .ok response' →
          (Batch.ofResponse response ids).records =
            (Batch.ofResponse response' []).records.filter fun unit => unit.id ∈ ids := by
  refine (call_memory hclient w (.only ids)).mono fun few _ hfew => ?_
  refine (call_memory hclient w' .all).mono fun all _ hall => ?_
  revert hfew hall hsame
  generalize field.get w.sources = m, field.get w'.sources = m'
  intro hsame hfew hall
  by_cases hknows : m.Knows b.profile
  · rw [reply_of_knows hknows] at hfew
    rw [reply_of_knows ((hsame.knows_iff _).mpr hknows)] at hall
    subst hfew hall
    have hrecords := MemoryBackend.records_only_eq_filter hsame ids
    simp only [List.contains_eq_mem] at hrecords
    simp only [MemoryBackend.respond_eq_ok_iff]
    constructor
    · exact fun h h' => ⟨_, _, ⟨h, rfl⟩, ⟨h', rfl⟩⟩
    · rintro _ _ ⟨-, rfl⟩ ⟨-, rfl⟩
      exact hrecords
  · rw [reply_of_not_knows hknows] at hfew
    rw [reply_of_not_knows (mt (hsame.knows_iff _).mp hknows)] at hall
    subst hfew hall
    constructor
    · exact fun _ _ => ⟨_, _, rfl, rfl⟩
    · rintro _ _ ⟨rfl⟩ ⟨rfl⟩
      rfl

end BackendSource

/-- The depot after one more call. -/
def Depot.called : World MemoryBackend where
  cache := Depot.state.cache
  sources := { Depot.backend with calls := 1 }

open Depot in
/-- One call is made at the start, and one after another call. -/
theorem BackendSource.records_of_some_of_depot :
    (source.call (.only ["C", "A", "B", "A"])).Achieves World.UnitsUndisturbed state fun few _ =>
      (source.call .all).Achieves World.UnitsUndisturbed called fun all _ =>
        ∃ response response', few = .ok response ∧ all = .ok response' ∧
          (Batch.ofResponse response ["C", "A", "B", "A"]).records =
            (Batch.ofResponse response' []).records.filter
              fun unit => unit.id ∈ ["C", "A", "B", "A"] := by
  have hclient : source.client = MemoryBackend.client (World.sourcesField.comp .whole) := rfl
  have hsame : (Field.whole.get state.sources).SameContent (Field.whole.get called.sources) :=
    ⟨rfl, rfl, rfl, rfl, rfl⟩
  refine (records_of_some hclient hsame _).mono fun few _ hfew => hfew.mono fun all _ hall => ?_
  obtain ⟨response, response', hresponse, hresponse'⟩ := hall.1 rfl rfl
  exact ⟨response, response', hresponse, hresponse', hall.2 _ _ hresponse hresponse'⟩

end AttrFederation
