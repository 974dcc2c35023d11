import AttrFederation.Proofs.Backend.Batch
import AttrFederation.Proofs.Resolution.OrgUnits

/-!
# Asking for some org units

A query for some ids makes one call.  If the backend in memory provides the function and has tables,
what it knows of the ids is returned and cached, and so is the fact that it knows nothing of the
others (`MemoryBackend.Answered`); a batch member never evicts another.  Otherwise nothing is
returned and the region stays as it was (`BackendSource.query_outcome`).

The call is followed by itself (`MemoryBackend.client_outcome`), then the source makes a reply of
its outcome (`BackendSource.call_replies`), and what is taken from the reply is returned and stored
(`BackendSource.query_stores`).
-/

namespace AttrFederation

variable {δ : Type}

/-- Whatever else happens, the org units and what the sources keep stay as they are. -/
def World.UnitsUndisturbed (w w' : World δ) : Prop :=
  w'.cache.orgUnits = w.cache.orgUnits ∧ w'.sources = w.sources

/-! ## Calls -/

/-- A call ends as the answer says and leaves the org units alone. -/
theorem BackendSource.call_replies {R : World δ → World δ → Prop} {b : BackendSource δ}
    (answer : BackendAnswer) {request : BackendRequest} {w : World δ} {P : World δ → Prop}
    (hnone : b.profile = none → P w)
    (hinvoke : ∀ profile, b.profile = some profile →
      (b.client.invoke profile.serverPrefix profile.handler request.imports).Achieves R w
        fun outcome w' =>
          outcome = answer profile.serverPrefix profile.handler request.imports ∧ P w') :
    (b.call request).Achieves R w fun outcome w' => outcome = b.reply answer request ∧ P w' := by
  unfold call reply
  cases hprofile : b.profile with
  | none => exact ⟨rfl, hnone hprofile⟩
  | some profile =>
      refine Activity.achieves_bind.mpr ((hinvoke profile hprofile).mono ?_)
      rintro outcome w' ⟨rfl, hw'⟩
      dsimp only
      cases answer profile.serverPrefix profile.handler request.imports with
      | ok response => exact ⟨rfl, hw'⟩
      | error e => cases hnames : e.namesUnknown <;> simp [hnames, Activity.Achieves, hw']

namespace MemoryBackend

/-- How a call turns out. -/
def outcome (m : MemoryBackend) : BackendAnswer := fun serverPrefix function imports =>
  if serverPrefix ≠ m.serverPrefix then .error (.unknownServer serverPrefix)
  else if function ≠ m.function then .error (.unknownFunction function)
  else (m.respond imports).1

/-- The outcome does not depend on the account of the calls. -/
theorem respond_noted (m : MemoryBackend) (calls : Nat) (last : Option BackendImports)
    (imports : BackendImports) :
    ({ m with calls := calls, lastImports := last }.respond imports).1 = (m.respond imports).1 := by
  unfold respond
  cases m.failures <;> rfl

/-- **A call** ends, after its latency, and leaves the org units alone. -/
theorem client_outcome (field : Field δ MemoryBackend) (w : World δ)
    (serverPrefix function : String) (imports : BackendImports) :
    ((client (World.sourcesField.comp field)).invoke serverPrefix function imports).Achieves
      World.UnitsUndisturbed w fun outcome w' =>
        outcome = (field.get w.sources).outcome serverPrefix function imports ∧
          w'.cache.orgUnits = w.cache.orgUnits := by
  refine Activity.achieves_bind.mpr (Activity.achieves_modifyGet.mpr fun w₁ hw₁ => ?_)
  rw [← hw₁.2]
  dsimp only
  split
  · next hserver => exact ⟨(if_pos hserver).symm, hw₁.1⟩
  split
  · next hserver hfunction =>
      exact ⟨((if_neg hserver).trans (if_pos hfunction)).symm, hw₁.1⟩
  next hserver hfunction =>
  -- It responds now or after its latency, from what the sources keep then.
  have hresponds : ∀ w₂ : World δ, w₂.cache.orgUnits = w.cache.orgUnits →
      w₂.sources = field.set { field.get w₁.sources with
        calls := (field.get w₁.sources).calls + 1, lastImports := some imports } w₁.sources →
      ((field.get w₂.sources).respond imports).1 =
          (field.get w₁.sources).outcome serverPrefix function imports ∧
        w₂.cache.orgUnits = w.cache.orgUnits := by
    intro w₂ hunits hsources
    rw [hsources, field.get_set, respond_noted]
    exact ⟨((if_neg hserver).trans (if_neg hfunction)).symm, hunits⟩
  split
  · exact fun w₂ hw₂ => hresponds w₂ (hw₂.1.trans hw₁.1) hw₂.2
  · exact fun w₂ hw₂ w₃ hw₃ =>
      hresponds w₃ (hw₃.1.trans (hw₂.1.trans hw₁.1)) (hw₃.2.trans hw₂.2)

/-- A response is all that a backend without calls left to fail answers. -/
theorem respond_eq_ok_iff {m : MemoryBackend} {imports : BackendImports}
    {response : BackendResponse} :
    (m.respond imports).1 = .ok response ↔ m.failures = 0 ∧ response = m.response imports := by
  unfold respond
  cases m.failures <;> simp [eq_comm]

/-- It has the function of a profile. -/
def Knows (m : MemoryBackend) (profile : Option BackendProfile) : Prop :=
  ∃ p, profile = some p ∧ p.serverPrefix = m.serverPrefix ∧ p.handler = m.function

/-- A call of the function of a profile succeeds, with tables. -/
def Provides (m : MemoryBackend) (profile : Option BackendProfile) : Prop :=
  m.failures = 0 ∧ m.silent = false ∧
    ∃ p, profile = some p ∧ p.serverPrefix = m.serverPrefix ∧ p.handler = m.function

end MemoryBackend

namespace BackendSource

variable {b : BackendSource δ} {m : MemoryBackend}

/-- A call of a known function ends as the backend responds. -/
theorem reply_of_knows (h : m.Knows b.profile) (request : BackendRequest) :
    b.reply m.outcome request = (m.respond request.imports).1 := by
  obtain ⟨p, hprofile, hserver, hfunction⟩ := h
  have houtcome : m.outcome p.serverPrefix p.handler request.imports =
      (m.respond request.imports).1 := by
    simp [MemoryBackend.outcome, hserver, hfunction]
  -- An error of the backend is never that it does not know the function.
  simp only [reply, hprofile, houtcome, MemoryBackend.respond]
  cases m.failures <;> rfl

/-- Any other call has no tables. -/
theorem reply_of_not_knows (h : ¬ m.Knows b.profile) (request : BackendRequest) :
    b.reply m.outcome request = .ok .empty := by
  unfold reply
  cases hprofile : b.profile with
  | none => rfl
  | some p =>
      have hother : p.serverPrefix ≠ m.serverPrefix ∨ p.handler ≠ m.function := by
        by_contra hboth
        simp only [not_or, not_not] at hboth
        exact h ⟨p, hprofile, hboth⟩
      by_cases hserver : p.serverPrefix = m.serverPrefix
      · have hfunction : p.handler ≠ m.function := by simpa [hserver] using hother
        simp [MemoryBackend.outcome, hserver, hfunction, SourceError.namesUnknown]
      · simp [MemoryBackend.outcome, hserver, SourceError.namesUnknown]

/-- From a call of the function of a profile the details of the ids are taken. -/
theorem ofReply_of_provides (h : m.Provides b.profile) (hreturn : m.returnRows = [])
    (ids : List String) :
    Batch.ofReply ids (b.reply m.outcome (.only ids)) = .ofDetails (m.detailsOf ids) ids := by
  obtain ⟨hfailures, hsilent, hknows⟩ := h
  rw [reply_of_knows hknows, MemoryBackend.respond_eq_ok_iff.mpr ⟨hfailures, rfl⟩]
  exact m.ofResponse_response hreturn hsilent ids

/-- Otherwise the call fails, or its response says nothing. -/
theorem ofReply_of_not_provides (h : ¬ m.Provides b.profile) (ids : List String) :
    Batch.ofReply ids (b.reply m.outcome (.only ids)) = {} := by
  by_cases hknows : m.Knows b.profile
  · rw [reply_of_knows hknows]
    cases houtcome : (m.respond (BackendRequest.only ids).imports).1 with
    | error e => rfl
    | ok response =>
        -- The backend responds, so it must be silent.
        obtain ⟨hfailures, rfl⟩ := MemoryBackend.respond_eq_ok_iff.mp houtcome
        refine m.ofResponse_response_of_silent ?_ _ _
        by_contra hsilent
        exact h ⟨hfailures, by simpa using hsilent, hknows⟩
  · rw [reply_of_not_knows hknows]
    rfl

end BackendSource

/-! ## Queries -/

/-- The backend's answer to a query for some ids: what is returned, and the region after it. -/
structure MemoryBackend.Answered (m : MemoryBackend) (ids : List String)
    (before : Region OrgUnit) (returned : List OrgUnit) (after : Region OrgUnit) : Prop where
  /-- There is a unit for each id asked for that has details, in the order of their first ones. -/
  ids_eq : returned.map OrgUnit.id =
    ((m.details.filter fun d => ids.contains d.id).map Detail.id).eraseDups
  /-- It is not negative, and made of the details of its id. -/
  made : ∀ unit ∈ returned, unit.isNegative = false ∧ unit = .ofDetails m.details unit.id
  /-- What is returned is cached. -/
  known : ∀ unit ∈ returned, after.value? unit.id = some unit
  /-- That there is nothing about an id is cached. -/
  unknown : ∀ id ∈ ids, id ∉ m.details.map Detail.id → after.value? id = some (.negative id)
  /-- Beside these the region has at most what it had. -/
  others : ∀ id, id ∉ ids → ∀ slot, after.slots.get? id = some slot →
    before.slots.get? id = some slot

/-- What the backend provides is returned and stored. -/
theorem MemoryBackend.answered_of_filled {m : MemoryBackend} {ids : List String}
    {before after : Region OrgUnit}
    (h : Region.Filled before (.ofList (Batch.ofDetails (m.detailsOf ids) ids).pairs) after) :
    m.Answered ids before (Batch.ofDetails (m.detailsOf ids) ids).records after := by
  have hvalue : ∀ id ∈ ids, after.value? id = some (m.unitOf id) := by
    intro id hid
    obtain ⟨slot, hslot, hvalue, -⟩ := h.filled id (m.unitOf id)
      (by rw [Batch.get?_ofList_pairs, unit?_batch, if_pos hid])
    rw [Region.value?, hslot, Option.map_some, hvalue]
  have hrecord : ∀ unit ∈ (Batch.ofDetails (m.detailsOf ids) ids).records,
      unit.id ∈ ids ∧ unit.id ∈ m.details.map Detail.id ∧
        unit = .ofDetails (m.detailsOf ids) unit.id := by
    intro unit hunit
    rw [Batch.records_ofDetails] at hunit
    obtain ⟨id, hid, rfl⟩ := List.mem_map.mp hunit
    rw [(OrgUnit.id_isNegative_ofDetails _ id).1]
    obtain ⟨hasked, hd⟩ := mem_detailsOf_iff.mp (List.mem_eraseDups.mp hid)
    exact ⟨hasked, hd, rfl⟩
  refine ⟨?_, fun unit hunit => ?_, fun unit hunit => ?_, fun id hid habsent => ?_,
    fun id hid slot hslot => ?_⟩
  · rw [Batch.records_ofDetails, List.map_map]
    exact (List.map_congr_left fun id _ => (OrgUnit.id_isNegative_ofDetails _ id).1).trans
      (List.map_id _)
  · obtain ⟨hasked, -, hunit⟩ := hrecord unit hunit
    rw [ofDetails_detailsOf hasked] at hunit
    refine ⟨?_, hunit⟩
    rw [hunit]
    exact (OrgUnit.id_isNegative_ofDetails _ _).2
  · obtain ⟨hasked, hd, hunit⟩ := hrecord unit hunit
    rw [ofDetails_detailsOf hasked] at hunit
    rw [hvalue _ hasked, unitOf, if_pos hd, ← hunit]
  · rw [hvalue id hid, unitOf, if_neg habsent]
  · refine h.others id slot ?_ hslot
    rw [Batch.get?_ofList_pairs, unit?_batch, if_neg hid]

/-- About no ids nothing is said. -/
theorem MemoryBackend.answered_nil (m : MemoryBackend) (before : Region OrgUnit) :
    m.Answered [] before [] before where
  ids_eq := by simp
  made unit hunit := by contradiction
  known unit hunit := by contradiction
  unknown id hid _ := by contradiction
  others id _ slot hslot := hslot

/-- **A query** returns and stores what it takes from the reply. -/
theorem BackendSource.query_stores {R : World δ → World δ → Prop} {b : BackendSource δ}
    {answer : BackendAnswer} {ids : List String} (hids : ids ≠ []) {w : World δ}
    {before : Region OrgUnit} (hunits : w.cache.orgUnits = some before)
    (hkept : ∀ w₁ w₂, R w₁ w₂ → w₂.cache.orgUnits = w₁.cache.orgUnits)
    (hcall : (b.call (.only ids)).Achieves R w fun outcome w' =>
      outcome = b.reply answer (.only ids) ∧ w'.cache.orgUnits = w.cache.orgUnits) :
    (b.query ids).Achieves R w fun returned w' => ∃ now,
      returned = (Batch.ofReply ids (b.reply answer (.only ids))).records ∧
        w'.cache.orgUnits = some (before.putAll
          ((Batch.ofReply ids (b.reply answer (.only ids))).pairs.map (now, ·))) := by
  unfold query
  rw [if_neg (by simpa using hids)]
  refine Activity.achieves_bind.mpr (hcall.mono ?_)
  rintro outcome w₁ ⟨rfl, hunits₁⟩
  cases b.reply answer (.only ids) with
  | error e => exact ⟨0, rfl, hunits₁.trans hunits⟩
  | ok response =>
      intro w₂ hw₂
      have hunits₂ := (hkept w₁ w₂ hw₂).trans (hunits₁.trans hunits)
      exact ⟨w₂.now, rfl, (Batch.orgUnits_storeIn ..).trans (congrArg _ hunits₂)⟩

/-- **A query for some ids** over a backend in memory without errors to report, whatever the region
had, as long as it can hold all at once what is known of the ids.

* If the backend provides the function, what it knows of the ids is returned in the order in which
  it came across them, each id asked for is cached as what is known of it, and no other entry is
  added or altered.
* Otherwise nothing is returned and the region is as before. -/
theorem BackendSource.query_outcome {field : Field δ MemoryBackend} {b : BackendSource δ}
    (hclient : b.client = MemoryBackend.client (World.sourcesField.comp field)) {w : World δ}
    {before : Region OrgUnit} {ids : List String}
    (hreturn : (field.get w.sources).returnRows = [])
    (hunits : w.cache.orgUnits = some before) (hregion : before.Consistent)
    (hroom : before.settings.Holds (.ofList
      (ids.map fun id => (id, (field.get w.sources).unitOf id)))) :
    (b.query ids).Achieves World.UnitsUndisturbed w fun returned w' =>
      ∃ after, w'.cache.orgUnits = some after ∧
        ((field.get w.sources).Provides b.profile →
          (field.get w.sources).Answered ids before returned after) ∧
        (¬ (field.get w.sources).Provides b.profile → returned = [] ∧ after = before) := by
  generalize hm : field.get w.sources = m at hreturn hroom ⊢
  by_cases hids : ids = []
  · subst hids
    exact ⟨before, hunits, fun _ => m.answered_nil before, fun _ => ⟨rfl, rfl⟩⟩
  · refine (query_stores hids hunits (fun w₁ w₂ h => h.1) (call_replies m.outcome (fun _ => rfl)
      fun profile _ => ?_)).mono ?_
    · rw [hclient, ← hm]
      exact MemoryBackend.client_outcome field w _ _ _
    · rintro returned w' ⟨now, rfl, hafter⟩
      refine ⟨_, hafter, fun hprovides => ?_, fun hnot => ?_⟩
      · rw [ofReply_of_provides hprovides hreturn]
        exact MemoryBackend.answered_of_filled
          (Batch.filled_putAll hregion (MemoryBackend.fits_batch hroom) now)
      · rw [ofReply_of_not_provides hnot]
        exact ⟨rfl, rfl⟩

namespace Depot

/-- A backend that knows two org units. -/
def backend : MemoryBackend where
  serverPrefix := "SERV1_"
  function := "Z_AOR"
  details := [⟨"B", "sloc", "L1"⟩, ⟨"A", "fe", "F1"⟩, ⟨"B", "sloc", "L2"⟩]

def source : BackendSource MemoryBackend where
  client := MemoryBackend.client (World.sourcesField.comp .whole)
  profile := some ⟨"SERV1_", "Z_AOR", .empty⟩
  retry := {}
  reloadEnabled := true

/-- A full region of three, in which nothing is known of one of the units. -/
def region : Region OrgUnit :=
  (Region.empty { maxObjects := 3 }).run
    [(0, .put "X" (.blank "X")), (0, .put "A" (.negative "A")), (0, .put "Y" (.blank "Y"))]

def state : World MemoryBackend where
  cache := { orgUnits := some region }
  sources := backend

end Depot

open Depot in
/-- Three ids, one of them twice, are asked for in a region that has room for just these. -/
theorem BackendSource.query_outcome_of_depot :
    backend.Provides source.profile ∧
      (source.query ["A", "C", "B", "A"]).Achieves World.UnitsUndisturbed state
        fun returned w' => ∃ after, w'.cache.orgUnits = some after ∧
          backend.Answered ["A", "C", "B", "A"] region returned after := by
  have hprovides : backend.Provides source.profile := ⟨rfl, rfl, _, rfl, rfl, rfl⟩
  have hclient : source.client = MemoryBackend.client (World.sourcesField.comp .whole) := rfl
  refine ⟨hprovides, (query_outcome hclient (w := state) rfl rfl
    (Region.consistent_run_empty _ _) (by decide)).mono ?_⟩
  rintro returned w' ⟨after, hafter, hanswered, -⟩
  exact ⟨after, hafter, hanswered hprovides⟩

end AttrFederation
