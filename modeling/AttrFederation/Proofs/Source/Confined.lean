import AttrFederation.Proofs.Activity.Turn
import AttrFederation.Source.Backend
import AttrFederation.Source.Memory
import AttrFederation.Source.Replay

/-!
# What the backend pipeline changes

The client of a backend is confined if it changes nothing but what the sources keep for themselves;
the backends in memory are.  All else that reading the backend changes is then in the pipeline: a
query and a load store a batch, and a refresh also moves the lock and the flag and empties the
region.
-/

namespace AttrFederation

variable {δ : Type}

/-- The states differ at most in what the sources keep. -/
def World.SameButSources (w w' : World δ) : Prop :=
  w' = { w with sources := w'.sources }

/-- A client that changes nothing but what the sources keep. -/
def BackendClient.Confined (client : BackendClient (World δ)) : Prop :=
  ∀ serverPrefix function imports,
    (client.invoke serverPrefix function imports).Keeps World.SameButSources

theorem MemoryBackend.confined_client (field : Field δ MemoryBackend) :
    (client (World.sourcesField.comp field)).Confined := by
  intro serverPrefix function imports
  refine Activity.Keeps.bind (Activity.keeps_modifyGet fun _ => rfl) fun m => ?_
  dsimp only
  split
  · trivial
  · split
    · trivial
    · split
      · exact Activity.keeps_modifyGet fun _ => rfl
      · exact ⟨fun _ => rfl, Activity.keeps_modifyGet fun _ => rfl⟩

theorem ReplayBackend.confined_client (field : Field δ ReplayBackend) :
    (client (World.sourcesField.comp field)).Confined :=
  fun _ _ _ => Activity.keeps_modifyGet fun _ => rfl

namespace BackendSource

variable {R : World δ → World δ → Prop} {b : BackendSource δ}

section Reading

variable (hclient : b.client.Confined) (hsources : ∀ w w' : World δ, w.SameButSources w' → R w w')

include hclient hsources

theorem keeps_call (request : BackendRequest) : (b.call request).Keeps R := by
  unfold call
  split
  · trivial
  · refine ((hclient ..).mono hsources).bind fun outcome => ?_
    cases outcome with
    | ok response => trivial
    | error e =>
        dsimp only
        split <;> trivial

variable (hstore : ∀ (batch : Batch) (w : World δ), R w (w.onCache (batch.storeIn w.now)))

include hstore

theorem keeps_query (ids : List String) : (b.query ids).Keeps R := by
  unfold query
  split
  · trivial
  · refine (keeps_call hclient hsources _).bind fun outcome => ?_
    cases outcome with
    | ok response => exact Activity.Keeps.bind (Activity.keeps_modify (hstore _)) fun _ => trivial
    | error e => trivial

theorem keeps_loadAll : b.loadAll.Keeps R := by
  unfold loadAll
  split
  · trivial
  · refine (keeps_call hclient hsources _).bind fun outcome => ?_
    cases outcome with
    | ok response => exact Activity.Keeps.bind (Activity.keeps_modify (hstore _)) fun _ => trivial
    | error e => trivial

theorem keeps_reload : b.reload.Keeps R := by
  unfold reload
  split
  · refine (b.retry.keeps_execute (fun w => hsources w w rfl)
      (keeps_loadAll hclient hsources hstore)).bind fun outcome => ?_
    cases outcome <;> trivial
  · trivial

theorem keeps_refreshAll (htrans : ∀ a b c, R a b → R b c → R a c)
    (hlock : ∀ f w, R w (World.backendLockField.modify f w))
    (hraise : ∀ w, R w (Gate.raise World.backendFlag purge w))
    (hlower : ∀ w, R w (World.backendFlag.set false w)) : b.refreshAll.Keeps R :=
  Lock.keeps_holding htrans hlock fun w =>
    ⟨hraise w, (keeps_reload hclient hsources hstore).guarded htrans hlower⟩

end Reading

end BackendSource

end AttrFederation
