import AttrFederation.Proofs.Activity.Pool
import AttrFederation.Source.Backend

/-!
# Fetching from a backend whose content changes

A backend's content changes with time.  Each content it has had has a number, its version.  A call
takes its time: the content is looked at some time after the call, and what was found is delivered
some time after that (`ChangingBackend.ask`).

A query and a reload are one kind of thing, a fetch: it asks, stores what it was answered, and asks
again after a pause if the failure may pass and attempts are left.  `source_query` and
`source_reload` say so of the pipeline.  A fetch is followed through its stages by a tracking that
notes the version with each batch that is stored.
-/

namespace AttrFederation

/-! ## Contents -/

/-- The content that a backend has, and those it had before. -/
structure Changing (κ : Type) where
  /-- The contents before, the earliest first. -/
  past : List κ := []
  content : κ

namespace Changing

variable {κ : Type}

/-- The number of the present content. -/
def version (h : Changing κ) : Nat :=
  h.past.length

def contents (h : Changing κ) : List κ :=
  h.past ++ [h.content]

/-- The content of a version. -/
def contentOf (h : Changing κ) (version : Nat) : Option κ :=
  h.contents[version]?

/-- The history with one more content. -/
def change (next : κ) (h : Changing κ) : Changing κ :=
  ⟨h.contents, next⟩

/-- The second history goes on where the first one ends. -/
def Extends (h h' : Changing κ) : Prop :=
  ∃ more, h'.contents = h.contents ++ more

theorem extends_refl (h : Changing κ) : h.Extends h :=
  ⟨[], (List.append_nil _).symm⟩

theorem extends_change (h : Changing κ) (next : κ) : h.Extends (h.change next) :=
  ⟨[next], rfl⟩

variable {h h' : Changing κ}

theorem contentOf_version (h : Changing κ) : h.contentOf h.version = some h.content := by
  rw [contentOf, contents, version, List.getElem?_concat_length]

theorem Extends.contentOf (hext : h.Extends h') {version : Nat} {content : κ}
    (hcontent : h.contentOf version = some content) : h'.contentOf version = some content := by
  obtain ⟨more, hmore⟩ := hext
  obtain ⟨hlt, -⟩ := List.getElem?_eq_some_iff.mp hcontent
  rw [Changing.contentOf, hmore, List.getElem?_append_left hlt]
  exact hcontent

theorem le_version_of_contentOf {version : Nat} {content : κ}
    (h' : h.contentOf version = some content) : version ≤ h.version := by
  obtain ⟨hlt, -⟩ := List.getElem?_eq_some_iff.mp h'
  rw [contents, List.length_append] at hlt
  exact Nat.le_of_lt_succ hlt

end Changing

/-! ## The backend -/

/-- A backend whose answers depend on its content, and how it is called. -/
structure ChangingBackend (κ : Type) where
  answer : κ → (serverPrefix function : String) → BackendImports →
    Except SourceError BackendResponse
  /-- Milliseconds from a call to the look at the content. -/
  there : Nat
  /-- Milliseconds from the look at the content to the delivery. -/
  back : Nat
  profile : BackendProfile
  retry : RetryPolicy

namespace ChangingBackend

variable {κ ρ : Type} (c : ChangingBackend κ)

/-- A call is answered from the content at one instant between the call and the delivery. -/
def client : BackendClient (World (Changing κ)) where
  invoke serverPrefix function imports :=
    .sleep c.there id <| .step id fun w => .sleep c.back id <|
      .done (c.answer w.sources.content serverPrefix function imports)

/-- The pipeline over the backend. -/
def source : BackendSource (Changing κ) where
  client := c.client
  profile := some c.profile
  retry := c.retry
  reloadEnabled := true

/-- What the pipeline makes of the answer to a request. -/
def outcome (request : BackendRequest) (content : κ) : Except SourceError BackendResponse :=
  match c.answer content c.profile.serverPrefix c.profile.handler request.imports with
  | .ok response => .ok response
  | .error e => if e.namesUnknown then .ok .empty else .error e

/-- Asks, and goes on with the outcome when it is delivered. -/
def ask (request : BackendRequest)
    (next : Except SourceError BackendResponse → Activity (World (Changing κ)) ρ) :
    Activity (World (Changing κ)) ρ :=
  .sleep c.there id <| .step id fun w => .sleep c.back id <|
    next (c.outcome request w.sources.content)

theorem ask_congr (request : BackendRequest)
    {next next' : Except SourceError BackendResponse → Activity (World (Changing κ)) ρ}
    (h : ∀ outcome, next outcome = next' outcome) : c.ask request next = c.ask request next' :=
  congrArg (c.ask request) (funext h)

theorem ask_bind {α : Type} (request : BackendRequest)
    (next : Except SourceError BackendResponse → Activity (World (Changing κ)) α)
    (f : α → Activity (World (Changing κ)) ρ) :
    (c.ask request next).bind f = c.ask request fun outcome => (next outcome).bind f := rfl

theorem call_source (request : BackendRequest) : c.source.call request = c.ask request .done := by
  refine congrArg (Activity.sleep _ _) (congrArg (Activity.step _) (funext fun w => ?_))
  refine congrArg (Activity.sleep _ _) ?_
  dsimp only [Activity.done_bind, outcome, source]
  cases c.answer w.sources.content c.profile.serverPrefix c.profile.handler request.imports with
  | ok response => rfl
  | error e =>
      dsimp only
      split <;> rfl

end ChangingBackend

/-! ## Fetches -/

/-- What is asked for, and what is made of the batch, if there is one in the end. -/
structure Fetch (ρ : Type) where
  request : BackendRequest
  finish : Option Batch → ρ

namespace Fetch

/-- A query asks for the units of some ids and returns those that are known. -/
def query (ids : List String) : Fetch (List OrgUnit) where
  request := .only ids
  finish batch := (batch.map Batch.records).getD []

/-- A reload asks for all units and counts them. -/
def reload : Fetch BackendRefresh where
  request := .all
  finish batch := { loaded := (batch.map fun b => b.records.length).getD 0, reloaded := true }

end Fetch

namespace ChangingBackend

variable {κ ρ : Type} (c : ChangingBackend κ)

/-- Stores what a response says and ends. -/
def conclude (f : Fetch ρ) (response : BackendResponse) : Activity (World (Changing κ)) ρ :=
  (BackendSource.store (Batch.ofResponse response f.request.requested)).bind fun _ =>
    .done (f.finish (some (Batch.ofResponse response f.request.requested)))

/-- A fetch with so many further attempts. -/
def fetch (f : Fetch ρ) : (left : Nat) → Activity (World (Changing κ)) ρ
  | 0 =>
    c.ask f.request fun outcome =>
      match outcome with
      | .ok response => conclude f response
      | .error _ => .done (f.finish none)
  | left + 1 =>
    c.ask f.request fun outcome =>
      match outcome with
      | .ok response => conclude f response
      | .error e =>
        if e.retryable then .sleep c.retry.intervalMillis id (fetch f left)
        else .done (f.finish none)

theorem source_query {ids : List String} (h : ids ≠ []) :
    c.source.query ids = c.fetch (.query ids) 0 := by
  rw [BackendSource.query, if_neg (by simpa using h), call_source, ask_bind]
  refine c.ask_congr _ fun outcome => ?_
  cases outcome <;> rfl

theorem loadAll_source_bind (f : Except SourceError Nat → Activity (World (Changing κ)) ρ) :
    c.source.loadAll.bind f = c.ask .all fun outcome =>
      match outcome with
      | .ok response =>
        (BackendSource.store (Batch.ofResponse response [])).bind fun _ =>
          f (.ok (Batch.ofResponse response []).records.length)
      | .error e => f (.error e) := by
  rw [BackendSource.loadAll, if_neg (by exact Bool.false_ne_true), call_source, Activity.bindOk,
    ask_bind, ask_bind]
  refine c.ask_congr _ fun outcome => ?_
  cases outcome <;> rfl

/-- What a load comes to, after so many further attempts, is what a fetch does. -/
theorem attempts_source_bind {f : Except SourceError Nat → Activity (World (Changing κ)) BackendRefresh}
    (hok : ∀ loaded, f (.ok loaded) = .done { loaded, reloaded := true })
    (herror : ∀ e, f (.error e) = .done { loaded := 0, reloaded := true }) (left : Nat) :
    (RetryPolicy.attempts c.retry.intervalMillis c.source.loadAll left).bind f =
      c.fetch .reload left := by
  induction left with
  | zero =>
      rw [RetryPolicy.attempts, loadAll_source_bind]
      refine c.ask_congr _ fun outcome => ?_
      cases outcome with
      | ok response =>
          simp only [hok]
          rfl
      | error e => exact herror e
  | succ left ih =>
      rw [RetryPolicy.attempts, Activity.bind_assoc, loadAll_source_bind]
      refine c.ask_congr _ fun outcome => ?_
      cases outcome with
      | ok response =>
          simp only [Activity.done_bind, hok]
          rfl
      | error e =>
          dsimp only
          split
          · exact congrArg (Activity.sleep _ _) ih
          · exact herror e

theorem source_reload : c.source.reload = c.fetch .reload c.retry.retries.toNat :=
  c.attempts_source_bind (fun _ => rfl) (fun _ => rfl) _

end ChangingBackend

/-! ## Stages -/

/-- What a fetch does that others see. -/
inductive FetchEvent where
  /-- A refresh has raised the flag and emptied the region. -/
  | purged
  /-- A refresh has lowered the flag. -/
  | lowered
  /-- A batch was stored, taken from the content of a version. -/
  | stored (version : Nat) (batch : Batch)
deriving DecidableEq, Repr

/-- How far a fetch has come. -/
inductive FetchStage (ρ : Type) where
  /-- It asks, with so many further attempts left. -/
  | asking (left : Nat)
  /-- The backend is about to look at its content. -/
  | looking (left : Nat)
  /-- The answer is on its way, taken from the content of a version. -/
  | awaiting (left version : Nat) (outcome : Except SourceError BackendResponse)
  /-- It is about to store a batch. -/
  | storing (version : Nat) (batch : Batch)
  /-- It pauses before it asks again. -/
  | pausing (left : Nat)
  | settled (result : ρ)

/-- A fetch at a stage. -/
structure Fetching (ρ : Type) where
  fetch : Fetch ρ
  stage : FetchStage ρ

namespace FetchStage

variable {ρ : Type}

/-- The version that was looked at for what is not stored yet. -/
def seen? : FetchStage ρ → Option Nat
  | awaiting _ version _ | storing version _ => some version
  | asking _ | looking _ | pausing _ | settled _ => none

end FetchStage

namespace ChangingBackend

variable {κ ρ : Type} (c : ChangingBackend κ)

/-- The stage of a fetch to which an outcome is delivered. -/
def delivered (f : Fetch ρ) (left version : Nat) : Except SourceError BackendResponse → FetchStage ρ
  | .ok response => .storing version (Batch.ofResponse response f.request.requested)
  | .error e =>
    match left with
    | 0 => .settled (f.finish none)
    | left + 1 => if e.retryable then .pausing left else .settled (f.finish none)

/-- What is left of a fetch when an outcome is delivered. -/
def afterOutcome (f : Fetch ρ) (left : Nat) :
    Except SourceError BackendResponse → Activity (World (Changing κ)) ρ
  | .ok response => conclude f response
  | .error e =>
    match left with
    | 0 => .done (f.finish none)
    | left + 1 =>
      if e.retryable then .sleep c.retry.intervalMillis id (c.fetch f left)
      else .done (f.finish none)

theorem fetch_eq_ask (f : Fetch ρ) (left : Nat) :
    c.fetch f left = c.ask f.request (c.afterOutcome f left) := by
  cases left with
  | zero => exact c.ask_congr _ fun outcome => by cases outcome <;> rfl
  | succ left => exact c.ask_congr _ fun outcome => by cases outcome <;> rfl

/-- What is left of a fetch at a stage. -/
def restAt (f : Fetch ρ) : FetchStage ρ → Activity (World (Changing κ)) ρ
  | .asking left => c.fetch f left
  | .looking left =>
    .step id fun w =>
      .sleep c.back id (c.afterOutcome f left (c.outcome f.request w.sources.content))
  | .awaiting left _ outcome => .sleep c.back id (c.afterOutcome f left outcome)
  | .storing _ batch => (BackendSource.store batch).bind fun _ => .done (f.finish (some batch))
  | .pausing left => .sleep c.retry.intervalMillis id (c.fetch f left)
  | .settled result => .done result

theorem restAt_delivered (f : Fetch ρ) (left version : Nat)
    (outcome : Except SourceError BackendResponse) :
    c.restAt f (delivered f left version outcome) = c.afterOutcome f left outcome := by
  cases outcome with
  | ok response => rfl
  | error e =>
      cases left with
      | zero => rfl
      | succ left =>
          dsimp only [delivered, afterOutcome]
          split <;> rfl

/-- The stage after a turn. -/
def nextStage (f : Fetch ρ) (stage : FetchStage ρ) (w : World (Changing κ)) : FetchStage ρ :=
  match stage with
  | .asking left => .looking left
  | .looking left => .awaiting left w.sources.version (c.outcome f.request w.sources.content)
  | .awaiting left version outcome => delivered f left version outcome
  | .storing _ batch => .settled (f.finish (some batch))
  | .pausing left => .asking left
  | .settled result => .settled result

theorem restAt_nextStage {f : Fetch ρ} {stage : FetchStage ρ} {w w' : World (Changing κ)}
    {x : Activity (World (Changing κ)) ρ} (h : (c.restAt f stage).turn? w = some (x, w')) :
    x = c.restAt f (c.nextStage f stage w) := by
  cases stage with
  | asking left =>
      rw [restAt, fetch_eq_ask] at h
      obtain ⟨rfl, -⟩ := Prod.mk.inj (Option.some.inj h)
      rfl
  | awaiting left version outcome =>
      obtain ⟨rfl, -⟩ := Prod.mk.inj (Option.some.inj h)
      exact (c.restAt_delivered f left version outcome).symm
  | looking | storing | pausing =>
      obtain ⟨rfl, -⟩ := Prod.mk.inj (Option.some.inj h)
      rfl
  | settled result => contradiction

/-- The stages of a fetch. -/
def tracking : Tracking (World (Changing κ)) FetchEvent ρ (Fetching ρ) where
  rest x := c.restAt x.fetch x.stage
  next x w := { x with stage := c.nextStage x.fetch x.stage w }
  events x _ :=
    match x.stage with
    | .storing version batch => [.stored version batch]
    | _ => []
  stopEvents _ := []
  rest_next h := c.restAt_nextStage h

/-- What a turn of a fetch can be. -/
inductive Steps (f : Fetch ρ) (w : World (Changing κ)) :
    FetchStage ρ → FetchStage ρ × World (Changing κ) × List FetchEvent → Prop where
  | ask (left : Nat) : Steps f w (.asking left) (.looking left, w, [])
  | look (left : Nat) :
    Steps f w (.looking left)
      (.awaiting left w.sources.version (c.outcome f.request w.sources.content), w, [])
  | deliver (left version : Nat) (outcome : Except SourceError BackendResponse) :
    Steps f w (.awaiting left version outcome) (delivered f left version outcome, w, [])
  | store (version : Nat) (batch : Batch) :
    Steps f w (.storing version batch)
      (.settled (f.finish (some batch)), w.onCache (batch.storeIn w.now), [.stored version batch])
  | again (left : Nat) : Steps f w (.pausing left) (.asking left, w, [])

/-- A fetch that goes on does one of these. -/
theorem steps_of_turn? {f : Fetch ρ} {stage : FetchStage ρ} {w w' : World (Changing κ)}
    {x : Activity (World (Changing κ)) ρ} (h : (c.restAt f stage).turn? w = some (x, w')) :
    c.Steps f w stage (c.nextStage f stage w, w', c.tracking.events ⟨f, stage⟩ w) := by
  cases stage with
  | asking left =>
      rw [restAt, fetch_eq_ask] at h
      obtain ⟨-, rfl⟩ := Prod.mk.inj (Option.some.inj h)
      exact .ask left
  | looking left =>
      obtain ⟨-, rfl⟩ := Prod.mk.inj (Option.some.inj h)
      exact .look left
  | awaiting left version outcome =>
      obtain ⟨-, rfl⟩ := Prod.mk.inj (Option.some.inj h)
      exact .deliver left version outcome
  | storing version batch =>
      obtain ⟨-, rfl⟩ := Prod.mk.inj (Option.some.inj h)
      exact .store version batch
  | pausing left =>
      obtain ⟨-, rfl⟩ := Prod.mk.inj (Option.some.inj h)
      exact .again left
  | settled result => contradiction

/-- Stopping a fetch changes nothing. -/
theorem eq_of_stop? {x : Fetching ρ} {w w' : World (Changing κ)}
    (h : (c.tracking.rest x).stop? w = some w') : w' = w := by
  obtain ⟨f, stage⟩ := x
  cases stage with
  | asking left =>
      change (c.fetch f left).stop? w = some w' at h
      rw [fetch_eq_ask] at h
      exact (Option.some.inj h).symm
  | awaiting | pausing => exact (Option.some.inj h).symm
  | looking | storing | settled => contradiction

/-- Whatever a fetch does, it waits or stores a batch. -/
theorem keeps_restAt {R : World (Changing κ) → World (Changing κ) → Prop} (hrefl : ∀ w, R w w)
    (hstore : ∀ (batch : Batch) w, R w (w.onCache (batch.storeIn w.now))) (f : Fetch ρ)
    (stage : FetchStage ρ) : (c.restAt f stage).Keeps R := by
  have hstored : ∀ batch : Batch,
      ((BackendSource.store batch).bind fun _ =>
        (.done (f.finish (some batch)) : Activity (World (Changing κ)) ρ)).Keeps R :=
    fun batch => Activity.Keeps.bind (Activity.keeps_modify (hstore batch)) fun _ => trivial
  have hask : ∀ next : Except SourceError BackendResponse → Activity (World (Changing κ)) ρ,
      (∀ outcome, (next outcome).Keeps R) → (c.ask f.request next).Keeps R :=
    fun next hnext => ⟨hrefl, fun w => ⟨hrefl w, hrefl, hnext _⟩⟩
  have hfetch : ∀ left, (c.fetch f left).Keeps R := by
    intro left
    induction left with
    | zero => exact hask _ fun outcome => by cases outcome; exacts [trivial, hstored _]
    | succ left ih =>
        refine hask _ fun outcome => ?_
        cases outcome with
        | ok response => exact hstored _
        | error e =>
            dsimp only
            split
            · exact ⟨hrefl, ih⟩
            · trivial
  have hafter : ∀ left outcome, (c.afterOutcome f left outcome).Keeps R := by
    intro left outcome
    rcases outcome with e | response
    · cases left with
      | zero => trivial
      | succ left =>
          dsimp only [afterOutcome]
          split
          · exact ⟨hrefl, hfetch left⟩
          · trivial
    · exact hstored _
  cases stage with
  | asking left => exact hfetch left
  | looking left => exact fun w => ⟨hrefl w, hrefl, hafter _ _⟩
  | awaiting left version outcome => exact ⟨hrefl, hafter _ _⟩
  | storing version batch => exact hstored batch
  | pausing left => exact ⟨hrefl, hfetch left⟩
  | settled result => trivial

end ChangingBackend

end AttrFederation
