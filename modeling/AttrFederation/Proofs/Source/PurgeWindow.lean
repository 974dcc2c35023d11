import AttrFederation.Proofs.Activity.LateReads
import AttrFederation.Proofs.Source.Confined

/-!
# Purges of the org units

A refresh of the backend empties the org-unit region first and fills it again over many turns.
Refreshes, readers and other activities run in any order, and any of them may be stopped while it
waits; still

* the flag is up from the turn in which a refresh empties the region to the turn in which it lowers
  the flag, whatever other refreshes do;
* no reader reads meanwhile, unless its time was up;
* the time of a reader is up when its pauses have taken its time-out.
-/

namespace AttrFederation

variable {δ β : Type}

/-- The gate of the backend with its lock. -/
def backendGate : SerialGate (World δ) where
  lock := World.backendLockField
  flag := World.backendFlag
  purge := BackendSource.purge

theorem BackendSource.refreshAll_eq_refresh (b : BackendSource δ) :
    b.refreshAll = backendGate.refresh b.reload := rfl

/-- What runs at the gate of the backend. -/
inductive BackendGateCall (δ β : Type) where
  /-- A full refresh. -/
  | refreshAll (source : BackendSource δ)
  /-- A read that does not wait. -/
  | tryRead (read : World δ → β × World δ)
  /-- A read that waits for the flag to be down, but not longer than the time-out. -/
  | readWhenIdle (poll timeout : Nat) (read : World δ → β × World δ)
  | other (x : Activity (World δ) Unit)

namespace BackendGateCall

/-- What a call does. -/
def activity : BackendGateCall δ β → Activity (World δ) (BackendRefresh ⊕ Option β ⊕ Unit)
  | refreshAll source => source.refreshAll.bind fun result => .done (.inl result)
  | tryRead read =>
    (Activity.modifyGet (Gate.tryRead World.backendFlag read)).bind fun result =>
      .done (.inr (.inl result))
  | readWhenIdle poll timeout read =>
    (Gate.readWhenIdle World.backendFlag poll timeout read).bind fun result =>
      .done (.inr (.inl (some result)))
  | other x => x.bind fun result => .done (.inr (.inr result))

/-- A call as a task at its first stage. -/
def task : BackendGateCall δ β → GateTask (World δ) BackendRefresh β
  | refreshAll source => .inl (.called source.reload)
  | tryRead read => .inr (.inl (.trying read))
  | readWhenIdle poll timeout read =>
    let interval := Gate.lookInterval poll
    .inr (.inl (.looking ⟨interval, timeout, read⟩ (Gate.pollsWithin interval timeout) 0))
  | other x => .inr (.inr x)

/-- The reader of a call that may wait. -/
def reader? : BackendGateCall δ β → Option (PollingReader (World δ) β)
  | readWhenIdle poll timeout read => some ⟨Gate.lookInterval poll, timeout, read⟩
  | refreshAll _ | tryRead _ | other _ => none

/-- The task of a call does what the call does. -/
theorem rest_task (call : BackendGateCall δ β) :
    backendGate.gateTracking.rest call.task = call.activity := by
  cases call with
  | refreshAll source | tryRead read => rfl
  | readWhenIdle poll timeout read =>
      simp only [SerialGate.gateTracking, Tracking.sum, task, ReaderStage.tracking,
        ReaderStage.rest, Activity.bind_assoc]
      rfl
  | other x =>
      simp only [SerialGate.gateTracking, Tracking.sum, task, Tracking.plain, Activity.bind_assoc]
      rfl

/-- The client of a refresh changes only what the sources keep; what a reader reads with and other
activities leave the flag and the lock alone. -/
def Confined : BackendGateCall δ β → Prop
  | refreshAll source => source.client.Confined
  | tryRead read | readWhenIdle _ _ read => ∀ w, backendGate.Untouched w (read w).2
  | other x => x.Keeps backendGate.Untouched

theorem Confined.task {call : BackendGateCall δ β} (h : call.Confined) :
    backendGate.Confined call.task := by
  cases call with
  | refreshAll source =>
      intro work hwork
      rw [← Option.some.inj hwork]
      exact BackendSource.keeps_reload h
        (fun w w' hsame => by rw [hsame]; exact backendGate.untouched_refl w)
        fun _ w => backendGate.untouched_refl w
  | tryRead read | readWhenIdle poll timeout read | other x => exact h

/-- A reader has not paused yet, and its looks are enough to reach the time-out. -/
theorem inTime_of_task {call : BackendGateCall δ β} {stage : ReaderStage (World δ) β}
    (h : call.task = .inr (.inl stage)) : stage.InTime call.reader? 0 := by
  cases call with
  | tryRead read =>
      obtain rfl := Sum.inl.inj (Sum.inr.inj h)
      trivial
  | readWhenIdle poll timeout read =>
      obtain rfl := Sum.inl.inj (Sum.inr.inj h)
      refine ⟨rfl, (Nat.zero_mul _).symm, ?_⟩
      rw [Nat.zero_add]
      exact Gate.le_pollsWithin_mul timeout (Gate.lookInterval_pos poll)
  | refreshAll source => contradiction
  | other x => cases h

end BackendGateCall

/-- Calls at the gate of the backend, none of which has begun. -/
def backendGatePool (calls : Nat → Option (BackendGateCall δ β)) (w : World δ) :
    Pool (World δ) GateEvent (GateTask (World δ) BackendRefresh β) where
  state := w
  tasks i := (calls i).map BackendGateCall.task

/-- What is followed through its stages is what the calls do. -/
theorem untrack_backendGatePool (calls : Nat → Option (BackendGateCall δ β)) (w : World δ) :
    backendGate.gateTracking.untrack (backendGatePool calls w) =
      { state := w, tasks := fun i => (calls i).map BackendGateCall.activity } := by
  simp only [Tracking.untrack, backendGatePool, Option.map_map, Function.comp_def,
    BackendGateCall.rest_task]

/-- **A purge is never seen without the flag**: under every schedule of any refreshes, readers and
other activities, the flag is up while the window of a refresh is open, and no reader has read in a
window, those whose time was up aside, which have paused for their time-out.  A turn of a reader
that is not in the log changes nothing. -/
theorem purge_never_observed (calls : Nat → Option (BackendGateCall δ β))
    (hcalls : ∀ i call, calls i = some call → call.Confined) (w : World δ)
    (schedule : List Turn) :
    let p := (backendGatePool calls w).run backendGate.gateTracking.conduct schedule
    (∀ i, inWindow p.log i = true → p.state.backendRefreshing = true) ∧ NoReadInWindow p.log ∧
      LateReadsTimedOut (fun i => (calls i).bind BackendGateCall.reader?) p.log ∧
      ∀ (stage : ReaderStage (World δ) β) (v : World δ) next,
        (ReaderStage.tracking World.backendFlag).conduct.go? stage v = some next →
        next.2.2 = [] → next.2.1 = v := by
  have hguarded : backendGate.Guarded (backendGatePool calls w) := by
    refine .of_called (fun htask => ?_) (fun i stage htask => ?_) w
    · obtain ⟨call, hcall, rfl⟩ := Option.map_eq_some_iff.mp htask
      exact (hcalls _ call hcall).task
    · obtain ⟨call, -, heq⟩ := Option.map_eq_some_iff.mp htask
      cases call with
      | refreshAll source => exact ⟨source.reload, (Sum.inl.inj heq).symm⟩
      | tryRead | readWhenIdle | other => contradiction
  have hpunctual : Punctual (fun i => (calls i).bind BackendGateCall.reader?)
      (backendGatePool calls w) := by
    refine ⟨fun htask => ?_, fun before i after hlog => by simp [backendGatePool] at hlog⟩
    obtain ⟨call, hcall, heq⟩ := Option.map_eq_some_iff.mp htask
    rw [hcall]
    exact BackendGateCall.inTime_of_task heq
  have hrun := hguarded.run schedule
  exact ⟨fun i => hrun.flag_up, hrun.noRead, (hpunctual.run schedule).late,
    fun _ _ _ hgo => (ReaderStage.moves_of_go? hgo).eq_of_nothing⟩

/-- Two refreshes of a backend in memory, a reader that waits for them, and one that waits two
milliseconds and looks in each. -/
def refreshesAndReaders : Nat → Option (BackendGateCall MemoryBackend Nat)
  | 0 | 1 =>
    some <| .refreshAll
      { client := MemoryBackend.client (World.sourcesField.comp .whole)
        profile := some ⟨"SERV1_", "Z_AOR", .empty⟩
        retry := {}
        reloadEnabled := true }
  | 2 => some (.readWhenIdle 20 60000 fun w => (w.cache.size .orgUnit, w))
  | 3 => some (.readWhenIdle 0 2 fun w => (w.cache.size .orgUnit, w))
  | _ => none

/-- The first reader looks twice, once while the first refresh works and once while the second one
does.  The time of the other one is up while the second refresh works. -/
def readersAmidRefreshes : Pool (World MemoryBackend) GateEvent
    (GateTask (World MemoryBackend) BackendRefresh Nat) :=
  (backendGatePool refreshesAndReaders
      { cache := {}, sources := { serverPrefix := "SERV1_", function := "Z_AOR" } }).run
    backendGate.gateTracking.conduct
    ([0, 1, 0, 0, 0, 2, 0, 0, 0, 0, 1, 1, 2, 2, 3, 3, 3, 3, 3, 3].map .go)

theorem purge_never_observed_amid_refreshes :
    (∀ i call, refreshesAndReaders i = some call → call.Confined) ∧
      inWindow readersAmidRefreshes.log 1 = true ∧
      readersAmidRefreshes.state.backendRefreshing = true ∧
      NoReadInWindow readersAmidRefreshes.log ∧
      (3, .lateRead) ∈ readersAmidRefreshes.log ∧
      LateReadsTimedOut (fun i => (refreshesAndReaders i).bind BackendGateCall.reader?)
        readersAmidRefreshes.log := by
  have hcalls : ∀ i call, refreshesAndReaders i = some call → call.Confined := by
    intro i call hcall
    match i with
    | 0 | 1 =>
        rw [← Option.some.inj hcall]
        exact MemoryBackend.confined_client .whole
    | 2 | 3 =>
        rw [← Option.some.inj hcall]
        exact backendGate.untouched_refl
  have hopen : inWindow readersAmidRefreshes.log 1 = true := by decide +kernel
  have hlate : (3, .lateRead) ∈ readersAmidRefreshes.log := by decide +kernel
  obtain ⟨hflag, hread, htimes, -⟩ := purge_never_observed refreshesAndReaders hcalls _ _
  exact ⟨hcalls, hopen, hflag 1 hopen, hread, hlate, htimes⟩

end AttrFederation
