import AttrFederation.Proofs.Source.PurgeWindow
import AttrFederation.Proofs.Source.StoreLog

/-!
# How old stored units can be

Refreshes, queries and other activities run over a backend whose content changes.  A refresh empties
the org-unit region and stores what one call of its own has seen; a query stores what its call has
seen whenever the answer is delivered, and asks nobody.

`Ordered` is the invariant.  What refreshes store is serial, since they hold a lock; so a unit that
is older than what a refresh has stored must come from a query, which has stored it after the purge:
either before the refresh's batch, which has no unit for the id, or after it
(`stored_units_not_older`).  That there are such units is shown by a refresh that fails at first and
tries again (`not_nothingOlder`).
-/

namespace AttrFederation

variable {κ : Type}

/-! ## Tasks -/

/-- What runs over the backend. -/
inductive FetchCall (κ : Type) where
  | refreshAll
  /-- A query for some ids. -/
  | query (ids : List String)
  | other (x : Activity (World (Changing κ)) Unit)

/-- A refresh, a query, or whatever else runs beside them. -/
abbrev FetchTask (κ : Type) :=
  RefreshStage (Fetching BackendRefresh) BackendRefresh ⊕
    Fetching (List OrgUnit) ⊕ Activity (World (Changing κ)) Unit

/-- Flag and lock are as before, the backend's content has at most changed, and the org-unit region
has no entry that was not there. -/
structure Unrelated (w w' : World (Changing κ)) : Prop where
  untouched : backendGate.Untouched w w'
  grown : w.sources.Extends w'.sources
  kept : ∀ id slot, w'.cache.orgUnitSlot id = some slot → w.cache.orgUnitSlot id = some slot

theorem unrelated_refl (w : World (Changing κ)) : Unrelated w w :=
  ⟨backendGate.untouched_refl w, w.sources.extends_refl, fun _ _ h => h⟩

/-- The backend's content changes. -/
def changeContent (content : κ) : Activity (World (Changing κ)) Unit :=
  .modify (World.sourcesField.modify (Changing.change content))

theorem keeps_changeContent (content : κ) : (changeContent content).Keeps Unrelated :=
  Activity.keeps_modify fun w =>
    ⟨backendGate.untouched_refl w, w.sources.extends_change content, fun _ _ h => h⟩

/-- What a call asks of the backend. -/
def FetchCall.request? : FetchCall κ → Option BackendRequest
  | refreshAll => some .all
  | query ids => some (.only ids)
  | other _ => none

namespace ChangingBackend

variable {ρ : Type} (c : ChangingBackend κ)

/-- A call as a task at its first stage. -/
def task : FetchCall κ → FetchTask κ
  | .refreshAll => .inl (.called ⟨.reload, .asking c.retry.retries.toNat⟩)
  | .query ids => .inr (.inl ⟨.query ids, if ids = [] then .settled [] else .asking 0⟩)
  | .other x => .inr (.inr x)

/-- The stages of the tasks over a backend. -/
def poolTracking : Tracking (World (Changing κ)) FetchEvent
    (BackendRefresh ⊕ List OrgUnit ⊕ Unit) (FetchTask κ) :=
  (backendGate.tracking c.tracking .purged .lowered).sum (c.tracking.sum .plain)

/-- What a call does. -/
def activity : FetchCall κ →
    Activity (World (Changing κ)) (BackendRefresh ⊕ List OrgUnit ⊕ Unit)
  | .refreshAll => c.source.refreshAll.bind fun result => .done (.inl result)
  | .query ids => (c.source.query ids).bind fun result => .done (.inr (.inl result))
  | .other x => x.bind fun result => .done (.inr (.inr result))

/-- The task of a call does what the call does. -/
theorem rest_task (call : FetchCall κ) : c.poolTracking.rest (c.task call) = c.activity call := by
  cases call with
  | refreshAll =>
      rw [activity, BackendSource.refreshAll_eq_refresh, source_reload]
      rfl
  | query ids =>
      simp only [poolTracking, Tracking.sum, task, tracking, Activity.bind_assoc, activity]
      by_cases hids : ids = []
      · rw [hids]
        rfl
      · rw [if_neg hids, source_query c hids]
        rfl
  | other x =>
      simp only [poolTracking, Tracking.sum, task, Tracking.plain, Activity.bind_assoc]
      rfl

/-- A batch is what the backend answers to a request from the content of a version. -/
def Answers (h : Changing κ) (request : BackendRequest) (version : Nat) (batch : Batch) : Prop :=
  ∃ content response, h.contentOf version = some content ∧
    c.outcome request content = .ok response ∧ batch = Batch.ofResponse response request.requested

/-- What is on its way to a fetch was answered from the content of its version. -/
def Reflects (h : Changing κ) (f : Fetch ρ) : FetchStage ρ → Prop
  | .awaiting _ version outcome =>
    ∃ content, h.contentOf version = some content ∧ outcome = c.outcome f.request content
  | .storing version batch => c.Answers h f.request version batch
  | .asking _ | .looking _ | .pausing _ | .settled _ => True

variable {c} {h h' : Changing κ}

theorem Answers.grown (hext : h.Extends h') {request : BackendRequest} {version : Nat}
    {batch : Batch} (hanswers : c.Answers h request version batch) :
    c.Answers h' request version batch := by
  obtain ⟨content, response, hcontent, hrest⟩ := hanswers
  exact ⟨content, response, hext.contentOf hcontent, hrest⟩

theorem Reflects.grown (hext : h.Extends h') {f : Fetch ρ} {stage : FetchStage ρ}
    (hreflects : c.Reflects h f stage) : c.Reflects h' f stage := by
  cases stage with
  | awaiting left version outcome =>
      obtain ⟨content, hcontent, houtcome⟩ := hreflects
      exact ⟨content, hext.contentOf hcontent, houtcome⟩
  | storing version batch => exact Answers.grown hext hreflects
  | asking | looking | pausing | settled => trivial

/-- A turn of a fetch leaves the content alone, and it reflects it again. -/
theorem Steps.reflects {f : Fetch ρ} {w : World (Changing κ)} {stage : FetchStage ρ}
    {next : FetchStage ρ × World (Changing κ) × List FetchEvent} (hstep : c.Steps f w stage next)
    (hreflects : c.Reflects w.sources f stage) :
    next.2.1.sources = w.sources ∧ c.Reflects w.sources f next.1 := by
  cases hstep with
  | ask | store | again => exact ⟨rfl, trivial⟩
  | look left => exact ⟨rfl, w.sources.content, w.sources.contentOf_version, rfl⟩
  | deliver left version outcome =>
      refine ⟨rfl, ?_⟩
      obtain ⟨content, hcontent, houtcome⟩ := hreflects
      cases outcome with
      | ok response => exact ⟨content, response, hcontent, houtcome.symm, rfl⟩
      | error e =>
          cases left with
          | zero => trivial
          | succ left =>
              dsimp only [delivered]
              split <;> trivial

end ChangingBackend

/-! ## The invariant -/

/-- What the log has of a refresh at work. -/
structure AtWork (isRefresh : Nat → Prop) (log : List (Nat × FetchEvent)) (i : Nat)
    (stage : FetchStage BackendRefresh) : Prop where
  purged : (i, .purged) ∈ log
  notLowered : (i, .lowered) ∉ log
  /-- It stores at its end. -/
  notStored : (∃ result, stage = .settled result) ∨
    ∀ version batch, (i, .stored version batch) ∉ log
  /-- What it has seen is not older than what refreshes have stored. -/
  newer : ∀ seen, stage.seen? = some seen → ∀ j version batch, isRefresh j →
    (j, .stored version batch) ∈ log → version ≤ seen

/-- What the log has of a refresh at a stage. -/
def Progress (isRefresh : Nat → Prop) (log : List (Nat × FetchEvent)) (i : Nat) :
    RefreshStage (Fetching BackendRefresh) BackendRefresh → Prop
  | .called x | .queued x _ | .admitted x _ => (∀ event, (i, event) ∉ log) ∧ x.stage.seen? = none
  | .working x _ => AtWork isRefresh log i x.stage
  | .lowered _ _ | .finished _ => True

/-- What another task does is no matter, as long as no refresh stores while this one works. -/
theorem Progress.concat {isRefresh : Nat → Prop} {log : List (Nat × FetchEvent)} {i j : Nat}
    {stage : RefreshStage (Fetching BackendRefresh) BackendRefresh}
    (h : Progress isRefresh log i stage) (hij : i ≠ j) {event : FetchEvent}
    (hstore : stage.Working → isRefresh j → ∀ version batch, event ≠ .stored version batch) :
    Progress isRefresh (log ++ [(j, event)]) i stage := by
  have hmem : ∀ {event' : FetchEvent}, (i, event') ∈ log ++ [(j, event)] ↔ (i, event') ∈ log := by
    intro event'
    simp [hij]
  cases stage with
  | called | queued | admitted => exact ⟨fun event' => by rw [hmem]; exact h.1 event', h.2⟩
  | working x ticket =>
      refine ⟨hmem.mpr h.purged, fun hlowered => h.notLowered (hmem.mp hlowered), ?_, ?_⟩
      · exact h.notStored.imp_right fun hnone version batch => by
          rw [hmem]
          exact hnone version batch
      · intro seen hseen k version batch hk hstored
        rcases List.mem_append.mp hstored with hstored | hnew
        · exact h.newer seen hseen k version batch hk hstored
        · obtain ⟨rfl, rfl⟩ := Prod.mk.inj (List.mem_singleton.mp hnew)
          exact absurd rfl (hstore trivial hk version batch)
  | lowered | finished => trivial

namespace ChangingBackend

variable (c : ChangingBackend κ)

/-- The task is one of the call, and what is on its way to it was answered from the content of its
version. -/
def Suits (call : Option (FetchCall κ)) (h : Changing κ) : FetchTask κ → Prop
  | .inl stage => call = some .refreshAll ∧
    ∀ x, stage.work? = some x → x.fetch = .reload ∧ c.Reflects h x.fetch x.stage
  | .inr (.inl x) => (∃ ids, call = some (.query ids) ∧ x.fetch = .query ids) ∧
    c.Reflects h x.fetch x.stage
  | .inr (.inr x) => (∀ request, call.bind FetchCall.request? ≠ some request) ∧ x.Keeps Unrelated

variable {c}

theorem Suits.grown {call : Option (FetchCall κ)} {h h' : Changing κ} (hext : h.Extends h')
    {task : FetchTask κ} (hsuits : c.Suits call h task) : c.Suits call h' task := by
  rcases task with stage | x | x
  · exact ⟨hsuits.1, fun x hx => ⟨(hsuits.2 x hx).1, (hsuits.2 x hx).2.grown hext⟩⟩
  · exact ⟨hsuits.1, hsuits.2.grown hext⟩
  · exact hsuits

variable (c)

/-- What the tasks over a backend, the state and the log have in common. -/
structure Ordered (calls : Nat → Option (FetchCall κ))
    (p : Pool (World (Changing κ)) FetchEvent (FetchTask κ)) : Prop where
  suits : ∀ {i task}, p.tasks i = some task → c.Suits (calls i) p.state.sources task
  exclusive : backendGate.Exclusive (Pool.lefts p.tasks) p.state
  progress : ∀ {i stage}, Pool.lefts p.tasks i = some stage →
    Progress (fun j => calls j = some .refreshAll) p.log i stage
  /-- A refresh that has purged has come to its end or is at work. -/
  closed : ∀ {i}, (i, .purged) ∈ p.log → (i, .lowered) ∈ p.log ∨
    ∃ stage, Pool.lefts p.tasks i = some stage ∧ stage.Working
  answered : ∀ {i version batch}, (i, .stored version batch) ∈ p.log →
    ∃ request, (calls i).bind FetchCall.request? = some request ∧
      c.Answers p.state.sources request version batch
  serial : SerialStores (fun i => calls i = some .refreshAll) p.log
  origins : OriginsKnown p.log p.state.cache

namespace Ordered

variable {c} {calls : Nat → Option (FetchCall κ)}
  {p : Pool (World (Changing κ)) FetchEvent (FetchTask κ)}

theorem suits_update (h : c.Ordered calls p) {i : Nat} {next : Option (FetchTask κ)}
    {sources : Changing κ} (hext : p.state.sources.Extends sources)
    (hnext : ∀ task, next = some task → c.Suits (calls i) sources task) {j : Nat}
    {task : FetchTask κ} (hj : Function.update p.tasks i next j = some task) :
    c.Suits (calls j) sources task :=
  Pool.forall_update (P := fun i task => c.Suits (calls i) sources task)
    (fun _ _ _ hj => (h.suits hj).grown hext) hnext hj

theorem closed_update (h : c.Ordered calls p) {i : Nat} {next : Option (FetchTask κ)}
    {log : List (Nat × FetchEvent)}
    (hpurged : ∀ j, j ≠ i → (j, .purged) ∈ log → (j, .purged) ∈ p.log)
    (hlowered : ∀ j, (j, .lowered) ∈ p.log → (j, .lowered) ∈ log)
    (hself : (i, .purged) ∈ log →
      (i, .lowered) ∈ log ∨ ∃ stage, next = some (.inl stage) ∧ stage.Working) {j : Nat}
    (hj : (j, .purged) ∈ log) :
    (j, .lowered) ∈ log ∨
      ∃ stage, Pool.lefts (Function.update p.tasks i next) j = some stage ∧ stage.Working := by
  by_cases hji : j = i
  · subst hji
    refine (hself hj).imp_right fun ⟨stage, hnext, hworking⟩ => ⟨stage, ?_, hworking⟩
    rw [Pool.lefts_eq_some_iff, Function.update_self, hnext]
  · refine (h.closed (hpurged j hji hj)).imp (hlowered j) fun ⟨stage, hstage, hworking⟩ =>
      ⟨stage, ?_, hworking⟩
    rw [Pool.lefts_update, Function.update_of_ne hji]
    exact hstage

/-- A task goes on or is stopped, without an event. -/
theorem quiet (h : c.Ordered calls p) {i : Nat} {next : Option (FetchTask κ)}
    {w : World (Changing κ)} (hext : p.state.sources.Extends w.sources)
    (hkept : ∀ id slot, w.cache.orgUnitSlot id = some slot →
      p.state.cache.orgUnitSlot id = some slot)
    (hsuits : ∀ task, next = some task → c.Suits (calls i) w.sources task)
    (hexclusive : backendGate.Exclusive (Pool.lefts (Function.update p.tasks i next)) w)
    (hprogress : ∀ stage, next = some (.inl stage) →
      Progress (fun j => calls j = some .refreshAll) p.log i stage)
    (hclosed : (i, .purged) ∈ p.log → (i, .lowered) ∈ p.log ∨
      ∃ stage, next = some (.inl stage) ∧ stage.Working) :
    c.Ordered calls ⟨w, Function.update p.tasks i next, p.log⟩ where
  suits := h.suits_update hext hsuits
  exclusive := hexclusive
  progress hj := by
    rcases Pool.update_eq_some_iff.mp (Pool.lefts_eq_some_iff.mp hj) with ⟨rfl, heq⟩ | ⟨-, hj⟩
    · exact hprogress _ heq
    · exact h.progress (Pool.lefts_eq_some_iff.mpr hj)
  closed := h.closed_update (fun _ _ => id) (fun _ => id) hclosed
  answered hstored := by
    obtain ⟨request, hrequest, hanswers⟩ := h.answered hstored
    exact ⟨request, hrequest, hanswers.grown hext⟩
  serial := h.serial
  origins := h.origins.kept hkept

/-- A task goes on or is stopped, with an event. -/
theorem note (h : c.Ordered calls p) {i : Nat} {next : Option (FetchTask κ)}
    {w : World (Changing κ)} {event : FetchEvent} (hsources : w.sources = p.state.sources)
    (hsuits : ∀ task, next = some task → c.Suits (calls i) p.state.sources task)
    (hexclusive : backendGate.Exclusive (Pool.lefts (Function.update p.tasks i next)) w)
    (hprogress : ∀ stage, next = some (.inl stage) →
      Progress (fun j => calls j = some .refreshAll) (p.log ++ [(i, event)]) i stage)
    (hclosed : (i, .purged) ∈ p.log ++ [(i, event)] →
      (i, .lowered) ∈ p.log ++ [(i, event)] ∨ ∃ stage, next = some (.inl stage) ∧ stage.Working)
    (hanswered : ∀ version batch, event = .stored version batch →
      ∃ request, (calls i).bind FetchCall.request? = some request ∧
        c.Answers p.state.sources request version batch)
    (hserial : ∀ version batch, calls i = some .refreshAll → event = .stored version batch →
      (∀ j stage, Pool.lefts p.tasks j = some stage → stage.Working → j = i) ∧
        StoreInPlace (fun j => calls j = some .refreshAll) p.log i version)
    (horigins : OriginsKnown (p.log ++ [(i, event)]) w.cache) :
    c.Ordered calls ⟨w, Function.update p.tasks i next, p.log ++ [(i, event)]⟩ where
  suits := h.suits_update (hsources ▸ Changing.extends_refl _) (hsources ▸ hsuits)
  exclusive := hexclusive
  progress {j stage} hj := by
    rcases Pool.update_eq_some_iff.mp (Pool.lefts_eq_some_iff.mp hj) with ⟨rfl, heq⟩ | ⟨hji, hj⟩
    · exact hprogress _ heq
    · have hj := Pool.lefts_eq_some_iff.mpr hj
      refine (h.progress hj).concat hji fun hworking hi version batch heq => ?_
      exact hji ((hserial version batch hi heq).1 j stage hj hworking)
  closed := by
    refine h.closed_update (fun j hji hmem => ?_) (fun j => List.mem_append_left _) hclosed
    simpa [hji] using hmem
  answered {j version batch} hstored := by
    rw [hsources]
    rcases List.mem_append.mp hstored with hstored | hnew
    · exact h.answered hstored
    · obtain ⟨rfl, heq⟩ := Prod.mk.inj (List.mem_singleton.mp hnew)
      exact hanswered version batch heq.symm
  serial := h.serial.concat fun version batch hi heq => (hserial version batch hi heq).2
  origins := horigins

/-- A refresh that has not raised the flag has nothing in the log. -/
theorem closed_of_idle (h : c.Ordered calls p) {i : Nat}
    {stage : RefreshStage (Fetching BackendRefresh) BackendRefresh}
    (hi : Pool.lefts p.tasks i = some stage) (hidle : ¬ stage.Working)
    (hpurged : (i, .purged) ∈ p.log) : (i, .lowered) ∈ p.log := by
  rcases h.closed hpurged with hlowered | ⟨stage', hstage', hworking⟩
  · exact hlowered
  · rw [hi, Option.some.injEq] at hstage'
    exact absurd (hstage' ▸ hworking) hidle

/-- The store of a refresh at work is in its place. -/
theorem storeInPlace (h : c.Ordered calls p) {i version ticket : Nat} {batch : Batch}
    {f : Fetch BackendRefresh}
    (hi : Pool.lefts p.tasks i = some (.working ⟨f, .storing version batch⟩ ticket)) :
    StoreInPlace (fun j => calls j = some .refreshAll) p.log i version := by
  obtain ⟨hpurged, hlowered, hstored, hnewer⟩ := h.progress hi
  -- another refresh that has purged is no longer at work, since this one holds the lock
  refine ⟨hpurged, hlowered, ?_, fun j hji hpurged => ?_, hnewer version rfl⟩
  · rcases hstored with ⟨result, hover⟩ | hnone
    · cases hover
    · exact hnone
  · rcases h.closed hpurged with hlowered | ⟨stage, hstage, hworking⟩
    · exact hlowered
    · exact absurd (h.exclusive.holder_unique hstage hi hworking.holds trivial) hji

/-- What was stored is from a version up to the present one. -/
theorem le_version (h : c.Ordered calls p) {i version : Nat} {batch : Batch}
    (hstored : (i, .stored version batch) ∈ p.log) : version ≤ p.state.sources.version := by
  obtain ⟨-, -, content, -, hcontent, -⟩ := h.answered hstored
  exact Changing.le_version_of_contentOf hcontent

/-- What a refresh at work has seen stays no older than what was stored, until it stores. -/
theorem atWork_of_step (h : c.Ordered calls p) {i ticket : Nat} {f : Fetch BackendRefresh}
    {stage stage' : FetchStage BackendRefresh} {w : World (Changing κ)}
    (hi : Pool.lefts p.tasks i = some (.working ⟨f, stage⟩ ticket))
    (hstep : c.Steps f p.state stage (stage', w, [])) :
    AtWork (fun j => calls j = some .refreshAll) p.log i stage' := by
  obtain ⟨hpurged, hlowered, hstored, hnewer⟩ := h.progress hi
  have hnone : ∀ version batch, (i, .stored version batch) ∉ p.log := by
    rcases hstored with ⟨result, rfl⟩ | hnone
    · cases hstep
    · exact hnone
  refine ⟨hpurged, hlowered, .inr hnone, ?_⟩
  intro seen hseen j version batch hj hmem
  -- a look sees the present version, and a delivery passes on what was seen
  cases hstep with
  | ask | again => cases hseen
  | look left =>
      rw [← Option.some.inj hseen]
      exact h.le_version hmem
  | deliver left version' outcome =>
      refine hnewer seen ?_ j version batch hj hmem
      cases outcome with
      | ok response => exact hseen
      | error e =>
          cases left with
          | zero => cases hseen
          | succ left =>
              dsimp only [delivered] at hseen
              split at hseen <;> cases hseen

/-- A turn of the work of a refresh. -/
theorem go_work (h : c.Ordered calls p) {i ticket : Nat} {f : Fetch BackendRefresh}
    {stage stage' : FetchStage BackendRefresh} {w : World (Changing κ)} {events : List FetchEvent}
    (hi : p.tasks i = some (.inl (.working ⟨f, stage⟩ ticket)))
    (hstep : c.Steps f p.state stage (stage', w, events))
    (hexclusive : backendGate.Exclusive
      (Pool.lefts (Function.update p.tasks i (some (.inl (.working ⟨f, stage'⟩ ticket))))) w) :
    c.Ordered calls
      ⟨w, Function.update p.tasks i (some (.inl (.working ⟨f, stage'⟩ ticket))),
        p.log ++ events.map (i, ·)⟩ := by
  obtain ⟨hcall, hwork⟩ := h.suits hi
  obtain ⟨hfetch, hreflects⟩ := hwork ⟨f, stage⟩ rfl
  obtain ⟨hsources, hreflects'⟩ := hstep.reflects hreflects
  have hleft := Pool.lefts_eq_some_iff.mpr hi
  have hsuits : ∀ task, some (.inl (.working ⟨f, stage'⟩ ticket)) = some task →
      c.Suits (calls i) p.state.sources task := by
    intro task heq
    rw [← Option.some.inj heq]
    refine ⟨hcall, fun x hx => ?_⟩
    rw [← Option.some.inj hx]
    exact ⟨hfetch, hreflects'⟩
  have hquiet : events = [] → w.cache = p.state.cache → c.Ordered calls
      ⟨w, Function.update p.tasks i (some (.inl (.working ⟨f, stage'⟩ ticket))), p.log⟩ := by
    rintro rfl hcache
    refine h.quiet (hsources ▸ Changing.extends_refl _) (fun _ _ => by rw [hcache]; exact id)
      (hsources ▸ hsuits) hexclusive (fun next heq => ?_) fun _ => .inr ⟨_, rfl, trivial⟩
    rw [← Sum.inl.inj (Option.some.inj heq)]
    exact h.atWork_of_step hleft hstep
  -- only a store leaves an event
  cases hstep with
  | ask | look | deliver | again =>
      rw [List.map_nil, List.append_nil]
      exact hquiet rfl rfl
  | store version batch =>
      refine h.note rfl hsuits hexclusive (fun next heq => ?_) (fun _ => .inr ⟨_, rfl, trivial⟩)
        (fun version' batch' heq => ?_) (fun version' batch' _ heq => ?_)
        (h.origins.store i version batch p.state.now)
      · rw [← Sum.inl.inj (Option.some.inj heq)]
        obtain ⟨hpurged, hlowered, -, -⟩ := h.progress hleft
        refine ⟨List.mem_append_left _ hpurged, ?_, .inl ⟨_, rfl⟩, fun _ hseen => by cases hseen⟩
        simpa using hlowered
      · obtain ⟨rfl, rfl⟩ := FetchEvent.stored.inj heq
        subst hfetch
        exact ⟨.all, by rw [hcall]; rfl, hreflects⟩
      · obtain ⟨rfl, rfl⟩ := FetchEvent.stored.inj heq
        refine ⟨fun j stage hj hworking => ?_, h.storeInPlace hleft⟩
        exact h.exclusive.holder_unique hj hleft hworking.holds trivial

/-- A turn of a refresh. -/
theorem go_refresh (h : c.Ordered calls p) {i : Nat}
    {stage : RefreshStage (Fetching BackendRefresh) BackendRefresh}
    {next : RefreshStage (Fetching BackendRefresh) BackendRefresh × World (Changing κ) ×
      List FetchEvent}
    (hi : p.tasks i = some (.inl stage))
    (hmove : backendGate.Moves c.tracking .purged .lowered p.state stage next) :
    c.Ordered calls (p.gone i (.inl next.1, next.2)) := by
  have hleft := Pool.lefts_eq_some_iff.mpr hi
  have hexclusive : backendGate.Exclusive
      (Pool.lefts (Function.update p.tasks i (some (.inl next.1)))) next.2.1 := by
    rw [Pool.lefts_update]
    exact h.exclusive.go hleft (fun x _ => c.keeps_restAt backendGate.untouched_refl
      (fun _ w => backendGate.untouched_refl w) x.fetch x.stage) hmove
  obtain ⟨hcall, hwork⟩ := h.suits hi
  have hprogress := h.progress hleft
  -- a task with the same work suits its call
  have hsuits : ∀ next : RefreshStage (Fetching BackendRefresh) BackendRefresh,
      (∀ x, next.work? = some x → stage.work? = some x) → ∀ task, some (.inl next) = some task →
      c.Suits (calls i) p.state.sources task := by
    intro next hsame task heq
    rw [← Option.some.inj heq]
    exact ⟨hcall, fun x hx => hwork x (hsame x hx)⟩
  cases hmove with
  | join | enter =>
      simp only [Pool.gone, List.map_nil, List.append_nil]
      refine h.quiet (Changing.extends_refl _) (fun _ _ => id) (hsuits _ fun _ => id) hexclusive
        (fun next heq => ?_) fun hpurged => ?_
      · rw [← Sum.inl.inj (Option.some.inj heq)]
        exact hprogress
      · exact absurd hpurged (hprogress.1 _)
  | raise x ticket =>
      refine h.note rfl (hsuits _ fun _ => id) hexclusive (fun next heq => ?_)
        (fun _ => .inr ⟨_, rfl, trivial⟩) (fun _ _ heq => by cases heq)
        (fun _ _ _ heq => by cases heq) (.purge _ _)
      rw [← Sum.inl.inj (Option.some.inj heq)]
      -- before, it has no event in the log and has seen nothing
      obtain ⟨hnone, hseen⟩ := hprogress
      refine ⟨List.mem_append_right _ (List.mem_singleton.mpr rfl), ?_, .inr fun _ _ => ?_, ?_⟩
      · simpa using hnone .lowered
      · simpa using hnone _
      · intro seen heq
        rw [hseen] at heq
        cases heq
  | work x ticket w hturn => exact h.go_work hi (c.steps_of_turn? hturn) hexclusive
  | lower x ticket result hdone =>
      refine h.note rfl (hsuits _ fun _ heq => by cases heq) hexclusive (fun next heq => ?_)
        (fun _ => .inl (List.mem_append_right _ (List.mem_singleton.mpr rfl)))
        (fun _ _ heq => by cases heq) (fun _ _ _ heq => by cases heq) (h.origins.lower i)
      rw [← Sum.inl.inj (Option.some.inj heq)]
      trivial
  | leave result ticket =>
      simp only [Pool.gone, List.map_nil, List.append_nil]
      refine h.quiet (Changing.extends_refl _) (fun _ _ => id) (hsuits _ fun _ heq => by cases heq)
        hexclusive (fun next heq => ?_) fun hpurged => .inl (h.closed_of_idle hleft id hpurged)
      rw [← Sum.inl.inj (Option.some.inj heq)]
      trivial

/-- Stopping a refresh. -/
theorem stop_refresh (h : c.Ordered calls p) {i : Nat}
    {stage : RefreshStage (Fetching BackendRefresh) BackendRefresh}
    {rest : World (Changing κ) × List FetchEvent} (hi : p.tasks i = some (.inl stage))
    (hhalt : backendGate.Halts c.tracking .lowered p.state stage rest) :
    c.Ordered calls (p.stopped i rest) := by
  have hleft := Pool.lefts_eq_some_iff.mpr hi
  have hexclusive : backendGate.Exclusive
      (Pool.lefts (Function.update p.tasks i none)) rest.1 := by
    rw [Pool.lefts_update]
    exact h.exclusive.stop hleft (fun x _ => c.keeps_restAt backendGate.untouched_refl
      (fun _ w => backendGate.untouched_refl w) x.fetch x.stage) hhalt
  cases hhalt with
  | queued x ticket =>
      simp only [Pool.stopped, List.map_nil, List.append_nil]
      refine h.quiet (Changing.extends_refl _) (fun _ _ => id) (fun _ heq => by cases heq)
        hexclusive (fun _ heq => by cases heq) fun hpurged => ?_
      exact absurd hpurged ((h.progress hleft).1 _)
  | working x ticket w hstop =>
      obtain rfl := c.eq_of_stop? hstop
      exact h.note rfl (fun _ heq => by cases heq) hexclusive (fun _ heq => by cases heq)
        (fun _ => .inl (List.mem_append_right _ (List.mem_singleton.mpr rfl)))
        (fun _ _ heq => by cases heq) (fun _ _ _ heq => by cases heq) (h.origins.lower i)

/-- A task that is no refresh leaves the refreshes as they are. -/
theorem exclusive_beside (h : c.Ordered calls p) {i : Nat}
    {task : Fetching (List OrgUnit) ⊕ Activity (World (Changing κ)) Unit}
    (next : Option (Fetching (List OrgUnit) ⊕ Activity (World (Changing κ)) Unit))
    {w : World (Changing κ)} (hi : p.tasks i = some (.inr task))
    (hsame : backendGate.Untouched p.state w) :
    backendGate.Exclusive (Pool.lefts (Function.update p.tasks i (next.map .inr))) w := by
  rw [Pool.lefts_update_of_inr hi (by cases next <;> rfl)]
  exact h.exclusive.of_untouched hsame

/-- Nothing but a refresh purges. -/
theorem lowered_of_purged_beside (h : c.Ordered calls p) {i : Nat}
    {task : Fetching (List OrgUnit) ⊕ Activity (World (Changing κ)) Unit}
    (hi : p.tasks i = some (.inr task)) (hpurged : (i, .purged) ∈ p.log) :
    (i, .lowered) ∈ p.log := by
  rcases h.closed hpurged with hlowered | ⟨stage, hstage, -⟩
  · exact hlowered
  · rw [Pool.lefts_eq_some_iff, hi] at hstage
    cases hstage

/-- Another task goes on or is stopped. -/
theorem beside (h : c.Ordered calls p) {i : Nat}
    {task : Fetching (List OrgUnit) ⊕ Activity (World (Changing κ)) Unit}
    (next : Option (Fetching (List OrgUnit) ⊕ Activity (World (Changing κ)) Unit))
    {w : World (Changing κ)} (hi : p.tasks i = some (.inr task)) (hunrelated : Unrelated p.state w)
    (hsuits : ∀ task, next = some task → c.Suits (calls i) w.sources (.inr task)) :
    c.Ordered calls ⟨w, Function.update p.tasks i (next.map .inr), p.log⟩ := by
  refine h.quiet hunrelated.grown hunrelated.kept (fun task' heq => ?_)
    (h.exclusive_beside next hi hunrelated.untouched) (fun stage heq => ?_)
    fun hpurged => .inl (h.lowered_of_purged_beside hi hpurged)
  · obtain ⟨task, rfl, rfl⟩ := Option.map_eq_some_iff.mp heq
    exact hsuits task rfl
  · obtain ⟨task, -, heq⟩ := Option.map_eq_some_iff.mp heq
    cases heq

/-- A turn of a query. -/
theorem go_query (h : c.Ordered calls p) {i : Nat} {f : Fetch (List OrgUnit)}
    {stage stage' : FetchStage (List OrgUnit)} {w : World (Changing κ)} {events : List FetchEvent}
    (hi : p.tasks i = some (.inr (.inl ⟨f, stage⟩)))
    (hstep : c.Steps f p.state stage (stage', w, events)) :
    c.Ordered calls (p.gone i (.inr (.inl ⟨f, stage'⟩), w, events)) := by
  obtain ⟨⟨ids, hcall, hfetch⟩, hreflects⟩ := h.suits hi
  obtain ⟨hsources, hreflects'⟩ := hstep.reflects hreflects
  have hsuits : ∀ task, some (.inr (.inl ⟨f, stage'⟩)) = some task →
      c.Suits (calls i) p.state.sources task := by
    intro task heq
    rw [← Option.some.inj heq]
    exact ⟨⟨ids, hcall, hfetch⟩, hreflects'⟩
  have hlowered := h.lowered_of_purged_beside hi
  cases hstep with
  | ask | look | deliver | again =>
      simp only [Pool.gone, List.map_nil, List.append_nil]
      refine h.beside (some (.inl ⟨f, _⟩)) hi (unrelated_refl _) fun task heq => ?_
      exact hsuits _ (congrArg (Option.map Sum.inr) heq)
  | store version batch =>
      refine h.note rfl hsuits (h.exclusive_beside (some (.inl ⟨f, _⟩)) hi ?_)
        (fun _ heq => by cases heq) (fun hpurged => .inl ?_) (fun version' batch' heq => ?_)
        (fun _ _ hrefresh _ => ?_) (h.origins.store i version batch p.state.now)
      · exact backendGate.untouched_refl p.state
      · have hpurged : (i, .purged) ∈ p.log := by simpa using hpurged
        exact List.mem_append_left _ (hlowered hpurged)
      · obtain ⟨rfl, rfl⟩ := FetchEvent.stored.inj heq
        subst hfetch
        exact ⟨.only ids, by rw [hcall]; rfl, hreflects⟩
      · rw [hcall] at hrefresh
        cases hrefresh

/-- **A turn** of whatever task keeps the order. -/
theorem go (h : c.Ordered calls p) {i : Nat} {task : FetchTask κ}
    {next : FetchTask κ × World (Changing κ) × List FetchEvent} (hi : p.tasks i = some task)
    (hgo : c.poolTracking.conduct.go? task p.state = some next) :
    c.Ordered calls (p.gone i next) := by
  have hsuits := h.suits hi
  rcases task with stage | ⟨f, stage⟩ | x
  · obtain ⟨stage', rest, hrefresh, rfl⟩ := Tracking.go?_sum_inl hgo
    exact h.go_refresh hi (backendGate.moves_of_go? hrefresh)
  · obtain ⟨_, rest, hbeside, rfl⟩ := Tracking.go?_sum_inr hgo
    obtain ⟨x', ⟨w, events⟩, hquery, heq⟩ := Tracking.go?_sum_inl hbeside
    obtain ⟨rfl, rfl⟩ := Prod.mk.inj heq
    obtain ⟨hturn, rfl, rfl⟩ := Tracking.go?_eq_some_iff.mp hquery
    exact h.go_query hi (c.steps_of_turn? hturn)
  · obtain ⟨_, rest, hbeside, rfl⟩ := Tracking.go?_sum_inr hgo
    obtain ⟨y, ⟨w, events⟩, hplain, heq⟩ := Tracking.go?_sum_inr hbeside
    obtain ⟨rfl, rfl⟩ := Prod.mk.inj heq
    obtain ⟨hturn, rfl⟩ := Tracking.go?_plain hplain
    obtain ⟨hunrelated, hkeeps⟩ := Activity.Keeps.turn unrelated_refl hsuits.2 hturn
    simp only [Pool.gone, List.map_nil, List.append_nil]
    refine h.beside (some (.inr y)) hi hunrelated fun task heq => ?_
    rw [← Option.some.inj heq]
    exact ⟨hsuits.1, hkeeps⟩

/-- **Stopping a task** keeps the order. -/
theorem stop (h : c.Ordered calls p) {i : Nat} {task : FetchTask κ}
    {rest : World (Changing κ) × List FetchEvent} (hi : p.tasks i = some task)
    (hstop : c.poolTracking.conduct.stop? task p.state = some rest) :
    c.Ordered calls (p.stopped i rest) := by
  have hsuits := h.suits hi
  obtain ⟨w, events⟩ := rest
  rcases task with stage | x | x
  · rw [poolTracking, Tracking.stop?_sum_inl] at hstop
    exact h.stop_refresh hi (backendGate.halts_of_stop? hstop)
  · rw [poolTracking, Tracking.stop?_sum_inr, Tracking.stop?_sum_inl] at hstop
    obtain ⟨hstop, rfl⟩ := Tracking.stop?_eq_some_iff.mp hstop
    obtain rfl := c.eq_of_stop? hstop
    simp only [Pool.stopped, tracking, List.map_nil, List.append_nil]
    exact h.beside none hi (unrelated_refl _) fun _ heq => by cases heq
  · rw [poolTracking, Tracking.stop?_sum_inr, Tracking.stop?_sum_inr] at hstop
    obtain ⟨hstop, rfl⟩ := Tracking.stop?_eq_some_iff.mp hstop
    simp only [Pool.stopped, Tracking.plain, List.map_nil, List.append_nil]
    exact h.beside none hi (Activity.Keeps.stop hsuits.2 hstop) fun _ heq => by cases heq

/-- **Every schedule** keeps the order. -/
theorem run (h : c.Ordered calls p) (schedule : List Turn) :
    c.Ordered calls (p.run c.poolTracking.conduct schedule) :=
  Pool.run_induction schedule (fun _ _ _ _ h => h.go) (fun _ _ _ _ _ h => h.stop) h

end Ordered

/-- Calls over a backend, none of which has begun. -/
def callPool (calls : Nat → Option (FetchCall κ)) (w : World (Changing κ)) :
    Pool (World (Changing κ)) FetchEvent (FetchTask κ) where
  state := w
  tasks i := (calls i).map c.task

/-- What is followed through its stages is what the calls do. -/
theorem untrack_callPool (calls : Nat → Option (FetchCall κ)) (w : World (Changing κ)) :
    c.poolTracking.untrack (c.callPool calls w) =
      { state := w, tasks := fun i => (calls i).map c.activity } := by
  simp only [Tracking.untrack, callPool, Option.map_map, Function.comp_def, rest_task]

theorem Ordered.of_calls {calls : Nat → Option (FetchCall κ)}
    (hother : ∀ i x, calls i = some (.other x) → x.Keeps Unrelated) (w : World (Changing κ)) :
    c.Ordered calls (c.callPool calls w) := by
  have hcalled : ∀ i stage, Pool.lefts (c.callPool calls w).tasks i = some stage →
      stage = .called ⟨.reload, .asking c.retry.retries.toNat⟩ := by
    intro i stage hi
    obtain ⟨call, -, heq⟩ := Option.map_eq_some_iff.mp (Pool.lefts_eq_some_iff.mp hi)
    cases call with
    | refreshAll => exact (Sum.inl.inj heq).symm
    | query | other => cases heq
  constructor
  case suits =>
    intro i task hi
    obtain ⟨call, hcall, rfl⟩ := Option.map_eq_some_iff.mp hi
    cases call with
    | refreshAll =>
        refine ⟨hcall, fun x hx => ?_⟩
        rw [← Option.some.inj hx]
        exact ⟨rfl, trivial⟩
    | query ids =>
        refine ⟨⟨ids, hcall, rfl⟩, ?_⟩
        dsimp only
        split <;> trivial
    | other x =>
        refine ⟨fun request heq => ?_, hother i x hcall⟩
        rw [hcall] at heq
        cases heq
  case progress =>
    intro i stage hi
    rw [hcalled i stage hi]
    exact ⟨fun _ hmem => List.not_mem_nil hmem, rfl⟩
  case exclusive => exact .of_called (fun i stage hi => ⟨_, hcalled i stage hi⟩) w
  case closed => exact fun hmem => absurd hmem List.not_mem_nil
  case answered => exact fun hmem => absurd hmem List.not_mem_nil
  case serial => exact .nil
  case origins => exact .of_no_purge (fun _ => List.not_mem_nil) _

/-- **How old a stored unit can be**: under every schedule of refreshes, queries and other
activities over a backend whose content changes, once a refresh has stored what its call has seen,
every unit in the org-unit region was stored in a batch that the backend has answered from the
content of a version; and that version is not older than what the refresh has seen, or else a query
has stored the unit after the refresh's purge, and the refresh's batch was stored before it or has
no unit for the id. -/
theorem stored_units_not_older (calls : Nat → Option (FetchCall κ))
    (hother : ∀ i x, calls i = some (.other x) → x.Keeps Unrelated) (w : World (Changing κ))
    (schedule : List Turn) :
    let p := (c.callPool calls w).run c.poolTracking.conduct schedule
    ∀ i version batch, calls i = some .refreshAll → (i, .stored version batch) ∈ p.log →
      ∀ id slot, p.state.cache.orgUnitSlot id = some slot →
        ∃ before j version' batch', IsOrigin p.log id before j version' batch' ∧
          batch'.unit? id = some slot.value ∧
          (∃ request, (calls j).bind FetchCall.request? = some request ∧
            c.Answers p.state.sources request version' batch') ∧
          (version ≤ version' ∨
            (∃ ids, calls j = some (.query ids)) ∧ (i, .purged) ∈ before ∧
              ((i, .stored version batch) ∈ before ∨ batch.unit? id = none)) := by
  intro p i version batch hi hstored id slot hslot
  have h : c.Ordered calls p := (Ordered.of_calls c hother w).run schedule
  rcases h.origins id slot hslot with ⟨before, j, version', batch', horigin, hunit⟩ | hnone
  · obtain ⟨request, hrequest, hanswers⟩ := h.answered horigin.mem
    refine ⟨before, j, version', batch', horigin, hunit, ⟨request, hrequest, hanswers⟩, ?_⟩
    refine (h.serial.not_older hi hstored horigin).imp_right fun ⟨hj, hrest⟩ => ⟨?_, hrest⟩
    -- what stores and is no refresh is a query
    cases hcall : calls j with
    | none =>
        rw [hcall] at hrequest
        cases hrequest
    | some call =>
        cases call with
        | refreshAll => exact absurd hcall hj
        | query ids => exact ⟨ids, rfl⟩
        | other x =>
            rw [hcall] at hrequest
            cases hrequest
  · -- the refresh has purged before it has stored
    obtain ⟨start, rest, hlog⟩ := List.append_of_mem hstored
    have hplace := h.serial start i version batch rest hi hlog
    exact absurd (hlog ▸ List.mem_append_left _ hplace.purged) (hnone i)

/-- When a refresh that has stored what its call has seen is finished, no unit in the org-unit
region is from an older version. -/
def NothingOlder (p : Pool (World (Changing κ)) FetchEvent (FetchTask κ)) : Prop :=
  ∀ i result version batch, p.tasks i = some (.inl (.finished result)) →
    (i, .stored version batch) ∈ p.log → ∀ id slot before j version' batch',
      p.state.cache.orgUnitSlot id = some slot → IsOrigin p.log id before j version' batch' →
      version ≤ version'

end ChangingBackend

/-! ## An older unit -/

/-- A backend in memory whose details, or failures, change. -/
def changingMemory : ChangingBackend MemoryBackend where
  answer content _ _ imports := (content.respond imports).1
  there := 0
  back := 0
  profile := ⟨"SERV1_", "Z_AOR", .empty⟩
  retry := {}

/-- The backend with some details and so many failures. -/
def memoryContent (details : List Detail) (failures : Nat) : MemoryBackend where
  serverPrefix := "SERV1_"
  function := "Z_AOR"
  details := details
  failures := failures

/-- A refresh, a query, and a backend that comes up with an org unit and then has another one in its
place. -/
def refreshAndQuery : Nat → Option (FetchCall MemoryBackend)
  | 0 => some .refreshAll
  | 1 => some (.query ["A"])
  | 2 => some (.other (changeContent (memoryContent [⟨"A", "sloc", "L1"⟩] 0)))
  | 3 => some (.other (changeContent (memoryContent [⟨"B", "sloc", "L2"⟩] 0)))
  | _ => none

/-- The first attempt of the refresh fails; while it pauses, the query stores the unit; the second
attempt does not find it any more. -/
def queryWhilePausing : Pool (World (Changing MemoryBackend)) FetchEvent
    (FetchTask MemoryBackend) :=
  (changingMemory.callPool refreshAndQuery
      { cache := .ofSettings {}, sources := ⟨[], memoryContent [] 1⟩ }).run
    changingMemory.poolTracking.conduct
    ([0, 0, 0, 0, 0, 0, 2, 1, 1, 1, 1, 3, 0, 0, 0, 0, 0, 0, 0].map .go)

theorem log_queryWhilePausing :
    queryWhilePausing.log =
      [(0, .purged), (1, .stored 1 (.ofDetails [⟨"A", "sloc", "L1"⟩] ["A"])),
        (0, .stored 2 (.ofDetails [⟨"B", "sloc", "L2"⟩] [])), (0, .lowered)] := by
  decide +kernel

/-- The unit that the query has stored is still there. -/
theorem isSome_orgUnitSlot_queryWhilePausing :
    (queryWhilePausing.state.cache.orgUnitSlot "A").isSome = true := by
  decide +kernel

/-- The refresh is finished and has seen the second version, and what the query has seen of the
first is in the region. -/
theorem not_nothingOlder : ¬ ChangingBackend.NothingOlder queryWhilePausing := by
  intro h
  obtain ⟨slot, hslot⟩ := Option.isSome_iff_exists.mp isSome_orgUnitSlot_queryWhilePausing
  have hfinished : queryWhilePausing.tasks 0 = some (.inl (.finished ⟨1, true⟩)) := rfl
  have hstored : (0, .stored 2 (.ofDetails [⟨"B", "sloc", "L2"⟩] [])) ∈ queryWhilePausing.log := by
    rw [log_queryWhilePausing]
    decide
  have horigin : IsOrigin queryWhilePausing.log "A" [(0, .purged)] 1 1
      (.ofDetails [⟨"A", "sloc", "L1"⟩] ["A"]) :=
    ⟨by decide, _, log_queryWhilePausing, by decide⟩
  have hle : 2 ≤ 1 := h 0 _ 2 _ hfinished hstored "A" slot _ 1 1 _ hslot horigin
  omega

/-- There, the unit is one that the query has stored after the purge, before the refresh stored a
batch without it. -/
theorem stored_units_not_older_while_pausing :
    (∀ i x, refreshAndQuery i = some (.other x) → x.Keeps Unrelated) ∧
      ∃ slot, queryWhilePausing.state.cache.orgUnitSlot "A" = some slot ∧
        ∃ before j version' batch', IsOrigin queryWhilePausing.log "A" before j version' batch' ∧
          batch'.unit? "A" = some slot.value ∧
          (∃ request, (refreshAndQuery j).bind FetchCall.request? = some request ∧
            changingMemory.Answers queryWhilePausing.state.sources request version' batch') ∧
          (2 ≤ version' ∨
            (∃ ids, refreshAndQuery j = some (.query ids)) ∧ (0, .purged) ∈ before ∧
              ((0, .stored 2 (.ofDetails [⟨"B", "sloc", "L2"⟩] [])) ∈ before ∨
                (Batch.ofDetails [⟨"B", "sloc", "L2"⟩] []).unit? "A" = none)) := by
  have hother : ∀ i x, refreshAndQuery i = some (.other x) → x.Keeps Unrelated := by
    intro i x hi
    match i, hi with
    | 2, rfl => exact keeps_changeContent _
    | 3, rfl => exact keeps_changeContent _
  have hstored : (0, .stored 2 (.ofDetails [⟨"B", "sloc", "L2"⟩] [])) ∈ queryWhilePausing.log := by
    rw [log_queryWhilePausing]
    decide
  obtain ⟨slot, hslot⟩ := Option.isSome_iff_exists.mp isSome_orgUnitSlot_queryWhilePausing
  exact ⟨hother, slot, hslot, changingMemory.stored_units_not_older refreshAndQuery hother _ _ 0 2 _
    rfl hstored "A" slot hslot⟩

end AttrFederation
