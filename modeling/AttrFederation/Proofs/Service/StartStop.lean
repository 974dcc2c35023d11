import AttrFederation.Proofs.Activity.Pool
import AttrFederation.Proofs.Scheduler
import AttrFederation.Proofs.Source.Confined
import AttrFederation.Service

/-!
# Starting and stopping a service

A start claims the service, loads the org units, asks for jobs and installs them; a shutdown may
come at any point, and then another start.  So several starts can be on their way at once, each with
jobs of its own.  `Orderly` is what their stages and the state have in common:

1. a scheduler is installed only while the service is started;
2. when the service is started and no scheduler is installed, a start is on its way;
3. no two starts have a job in common;
4. the jobs of a start that has still to install them are active, and so are the installed ones,
   which are those of a start that has ended;
5. the jobs of every other start that has ended are told to stop.

Every turn of a start and every shutdown keeps it, and so does whatever else runs beside them.
-/

namespace AttrFederation

variable {δ : Type}

/-! ## Starts -/

/-- How far a start has come. -/
inductive StartStage (δ : Type) where
  | called
  /-- It has claimed the service and loads the org units. -/
  | loading (rest : Activity (World δ) Unit)
  /-- It has asked for jobs and not installed them. -/
  | spawned (handle : SchedulerHandle)
  /-- It has ended, with the jobs it has asked for. -/
  | finished (handle : Option SchedulerHandle)

namespace StartStage

/-- The start has claimed the service and not ended. -/
def InFlight : StartStage δ → Prop
  | loading _ | spawned _ => True
  | called | finished _ => False

/-- The jobs that the start has asked for. -/
def handle? : StartStage δ → Option SchedulerHandle
  | spawned handle => some handle
  | finished handle => handle
  | called | loading _ => none

end StartStage

namespace Service

/-- Flag, scheduler and jobs are as before. -/
def Beside (w w' : World δ) : Prop :=
  w'.started = w.started ∧ w'.scheduler = w.scheduler ∧ w'.jobs = w.jobs

theorem beside_refl (w : World δ) : Beside w w := ⟨rfl, rfl, rfl⟩

theorem beside_trans (a b c : World δ) (hab : Beside a b) (hbc : Beside b c) : Beside a c :=
  ⟨hbc.1.trans hab.1, hbc.2.1.trans hab.2.1, hbc.2.2.trans hab.2.2⟩

/-- Loading the org units leaves flag, scheduler and jobs alone. -/
theorem keeps_initialLoad (s : Service δ) (hclient : s.backend.client.Confined) :
    s.initialLoad.Keeps Beside := by
  unfold initialLoad
  split
  · refine Activity.Keeps.bind (BackendSource.keeps_refreshAll hclient (fun w w' hsame => ?_)
      (fun _ w => beside_refl w) beside_trans (fun _ w => beside_refl w) beside_refl beside_refl)
      fun _ => trivial
    rw [hsame]
    exact beside_refl w
  · trivial

variable (s : Service δ)

/-- What is left of a start at a stage. -/
def startRest : StartStage δ → Activity (World δ) (Except ServiceError Unit)
  | .called => s.start true
  | .loading rest =>
    rest.bind fun _ =>
    (Activity.modifyGet (Scheduler.start s.settings)).bind fun handle =>
    (Activity.modify (install handle)).bind fun _ => .done (.ok ())
  | .spawned handle => (Activity.modify (install handle)).bind fun _ => .done (.ok ())
  | .finished _ => .done (.ok ())

/-- The stages of a start where jobs can be run. -/
def startTracking :
    Tracking (World δ) Empty (Except ServiceError Unit) (StartStage δ) where
  rest := s.startRest
  next stage w :=
    match stage with
    | .called => if w.started then .finished none else .loading s.initialLoad
    | .loading rest =>
      match rest.result? with
      | some () => .spawned (Scheduler.start s.settings w).1
      | none => .loading (rest.afterTurn w)
    | .spawned handle => .finished (some handle)
    | .finished handle => .finished handle
  events _ _ := []
  stopEvents _ := []
  rest_next {stage w x w'} h := by
    cases stage with
    | called =>
        obtain ⟨rfl, -⟩ := Prod.mk.inj (Option.some.inj h)
        simp only [claim]
        cases w.started <;> rfl
    | loading rest =>
        cases hresult : rest.result? with
        | some result =>
            rw [Activity.eq_done_of_result? hresult] at h ⊢
            obtain ⟨rfl, -⟩ := Prod.mk.inj (Option.some.inj h)
            rfl
        | none =>
            rw [startRest, Activity.turn?_bind hresult, Option.map_eq_some_iff] at h
            obtain ⟨⟨y, w''⟩, hturn, heq⟩ := h
            obtain ⟨rfl, -⟩ := Prod.mk.inj heq
            simp only [hresult, Activity.afterTurn_eq hturn, startRest]
    | spawned handle =>
        obtain ⟨rfl, -⟩ := Prod.mk.inj (Option.some.inj h)
        rfl
    | finished handle => contradiction

/-- What a turn of a start can be. -/
inductive StartMoves (w : World δ) : StartStage δ → StartStage δ × World δ → Prop where
  /-- The service is claimed already. -/
  | refuse (hstarted : w.started = true) : StartMoves w .called (.finished none, w)
  | claim (hstarted : w.started = false) :
    StartMoves w .called (.loading s.initialLoad, { w with started := true })
  | load (rest next : Activity (World δ) Unit) (w' : World δ)
    (hturn : rest.turn? w = some (next, w')) : StartMoves w (.loading rest) (.loading next, w')
  | spawn (rest : Activity (World δ) Unit) :
    StartMoves w (.loading rest)
      (.spawned (Scheduler.start s.settings w).1, (Scheduler.start s.settings w).2)
  | install (handle : SchedulerHandle) :
    StartMoves w (.spawned handle) (.finished (some handle), install handle w)

/-- A start that goes on does one of these. -/
theorem startMoves_of_go? {stage : StartStage δ} {w : World δ}
    {next : StartStage δ × World δ × List Empty}
    (h : s.startTracking.conduct.go? stage w = some next) :
    s.StartMoves w stage (next.1, next.2.1) := by
  obtain ⟨⟨x, w'⟩, hturn, rfl⟩ := Option.map_eq_some_iff.mp h
  cases stage with
  | called =>
      obtain ⟨-, rfl⟩ := Prod.mk.inj (Option.some.inj hturn)
      simp only [startTracking, claim]
      cases hstarted : w.started with
      | true => exact .refuse hstarted
      | false => exact .claim hstarted
  | loading rest =>
      simp only [startTracking, startRest] at hturn ⊢
      cases hresult : rest.result? with
      | some result =>
          rw [Activity.eq_done_of_result? hresult] at hturn
          obtain ⟨-, rfl⟩ := Prod.mk.inj (Option.some.inj hturn)
          exact .spawn rest
      | none =>
          rw [Activity.turn?_bind hresult, Option.map_eq_some_iff] at hturn
          obtain ⟨⟨y, w''⟩, hrest, heq⟩ := hturn
          obtain ⟨-, rfl⟩ := Prod.mk.inj heq
          simp only [Activity.afterTurn_eq hrest]
          exact .load rest y w'' hrest
  | spawned handle =>
      obtain ⟨-, rfl⟩ := Prod.mk.inj (Option.some.inj hturn)
      exact .install handle
  | finished handle => contradiction

end Service

/-- What a start loads leaves the service alone. -/
def StartStage.Confined : StartStage δ → Prop
  | .loading rest => rest.Keeps Service.Beside
  | .called | .spawned _ | .finished _ => True

theorem Service.StartMoves.confined {s : Service δ} (hclient : s.backend.client.Confined)
    {w w' : World δ} {stage next : StartStage δ} (h : s.StartMoves w stage (next, w'))
    (hstage : stage.Confined) : next.Confined := by
  cases h with
  | refuse | spawn | install => trivial
  | claim => exact s.keeps_initialLoad hclient
  | load rest next w' hturn => exact (Activity.Keeps.turn Service.beside_refl hstage hturn).2

/-! ## Calls -/

/-- What a caller may ask of a service. -/
inductive ServiceCall (δ : Type) where
  | start
  | shutdown
  | other (x : Activity (World δ) Unit)

/-- A start, or whatever else runs beside it. -/
abbrev ServiceTask (δ : Type) := StartStage δ ⊕ Activity (World δ) Unit

namespace Service

variable (s : Service δ)

/-- A turn that is not of a start shuts the service down or leaves it alone. -/
def ShutdownOrBeside (w w' : World δ) : Prop :=
  w' = shutdown w ∨ Beside w w'

/-- A call as a task at its first stage. -/
def callTask : ServiceCall δ → ServiceTask δ
  | .start => .inl .called
  | .shutdown => .inr (.modify shutdown)
  | .other x => .inr x

def tracking : Tracking (World δ) Empty (Except ServiceError Unit ⊕ Unit) (ServiceTask δ) :=
  s.startTracking.sum .plain

/-- What a call does, where jobs can be run. -/
def activity : ServiceCall δ → Activity (World δ) (Except ServiceError Unit ⊕ Unit)
  | .start => (s.start true).bind fun result => .done (.inl result)
  | .shutdown => (Activity.modify shutdown).bind fun result => .done (.inr result)
  | .other x => x.bind fun result => .done (.inr result)

/-- The task of a call does what the call does. -/
theorem rest_callTask (call : ServiceCall δ) :
    s.tracking.rest (callTask call) = s.activity call := by
  cases call <;> rfl

/-- What a start loads leaves the service alone; another task at most shuts it down. -/
def Confined : ServiceTask δ → Prop
  | .inl stage => stage.Confined
  | .inr x => x.Keeps ShutdownOrBeside

/-! ## The invariant -/

/-- What the stages of all starts and the state have in common. -/
structure Orderly (starts : Nat → Option (StartStage δ)) (w : World δ) : Prop where
  started : ∀ {handle}, w.scheduler = some handle → w.started = true
  /-- Who has claimed the service has installed its jobs or is on the way. -/
  inFlight : w.started = true → w.scheduler = none →
    ∃ i stage, starts i = some stage ∧ stage.InFlight
  disjoint : ∀ {i j stage stage' handle handle'}, i ≠ j → starts i = some stage →
    starts j = some stage' → stage.handle? = some handle → stage'.handle? = some handle' →
    handle.Disjoint handle'
  spawned : ∀ {i handle}, starts i = some (.spawned handle) → handle.AllHave .active w
  installed : ∀ {handle}, w.scheduler = some handle →
    handle.AllHave .active w ∧ ∃ i, starts i = some (.finished (some handle))
  /-- The jobs of a start that has ended are installed or told to stop. -/
  finished : ∀ {i handle}, starts i = some (.finished (some handle)) →
    w.scheduler = some handle ∨ handle.AllHave .aborted w

/-- The state with the installed jobs told to stop. -/
def retired (w : World δ) : World δ :=
  (w.scheduler.map fun handle => w.abort handle).getD w

theorem started_retired (w : World δ) : (retired w).started = w.started := by
  unfold retired
  cases w.scheduler <;> rfl

namespace Orderly

variable {s} {starts : Nat → Option (StartStage δ)} {w w' : World δ}

theorem of_called (h : ∀ i stage, starts i = some stage → stage = .called)
    (hstarted : w.started = false) (hscheduler : w.scheduler = none) : Orderly starts w where
  started hinstalled := by
    rw [hscheduler] at hinstalled
    contradiction
  inFlight hclaimed := by
    rw [hstarted] at hclaimed
    contradiction
  disjoint _ hi _ hhandle _ := by
    rw [h _ _ hi] at hhandle
    contradiction
  spawned hi := by
    have := h _ _ hi
    contradiction
  installed hinstalled := by
    rw [hscheduler] at hinstalled
    contradiction
  finished hi := by
    have := h _ _ hi
    contradiction

/-- All jobs that a start has asked for have one status. -/
theorem allHave (h : Orderly starts w) {i : Nat} {stage : StartStage δ} {handle : SchedulerHandle}
    (hi : starts i = some stage) (hhandle : stage.handle? = some handle) :
    ∃ status, handle.AllHave status w := by
  cases stage with
  | called | loading => contradiction
  | spawned other =>
      rw [← Option.some.inj hhandle]
      exact ⟨.active, h.spawned hi⟩
  | finished other =>
      obtain rfl : other = some handle := hhandle
      rcases h.finished hi with hinstalled | haborted
      · exact ⟨.active, (h.installed hinstalled).1⟩
      · exact ⟨.aborted, haborted⟩

theorem of_beside (h : Orderly starts w) (hbeside : Beside w w') : Orderly starts w' := by
  obtain ⟨hstarted, hscheduler, hjobs⟩ := hbeside
  refine ⟨?_, ?_, h.disjoint, fun hi => (h.spawned hi).congr hjobs, ?_, ?_⟩
  · rw [hstarted, hscheduler]
    exact h.started
  · rw [hstarted, hscheduler]
    exact h.inFlight
  · rw [hscheduler]
    exact fun hinstalled => ⟨(h.installed hinstalled).1.congr hjobs, (h.installed hinstalled).2⟩
  · rw [hscheduler]
    exact fun hi => (h.finished hi).imp_right fun haborted => haborted.congr hjobs

/-- Telling the installed jobs to stop leaves those alone that are still to be installed. -/
theorem spawned_retired (h : Orderly starts w) {i : Nat} {handle : SchedulerHandle}
    (hi : starts i = some (.spawned handle)) : handle.AllHave .active (retired w) := by
  unfold retired
  cases hscheduler : w.scheduler with
  | none => exact h.spawned hi
  | some installed =>
      obtain ⟨-, owner, howner⟩ := h.installed hscheduler
      refine (h.spawned hi).abort_of_disjoint (h.disjoint ?_ hi howner rfl rfl)
      rintro rfl
      rw [hi] at howner
      cases howner

/-- When the installed jobs have been told to stop, those of all starts that have ended have. -/
theorem finished_retired (h : Orderly starts w) {i : Nat} {handle : SchedulerHandle}
    (hi : starts i = some (.finished (some handle))) : handle.AllHave .aborted (retired w) := by
  unfold retired
  rcases h.finished hi with hinstalled | haborted
  · rw [hinstalled]
    exact (h.installed hinstalled).1.abort_self
  · cases w.scheduler with
    | none => exact haborted
    | some installed => exact haborted.aborted_abort

theorem shutdown (h : Orderly starts w) : Orderly starts (shutdown w) where
  started heq := by contradiction
  inFlight heq := by contradiction
  disjoint := h.disjoint
  spawned hi := (h.spawned_retired hi).congr rfl
  installed heq := by contradiction
  finished hi := .inr ((h.finished_retired hi).congr rfl)

/-- A start goes on and has not asked for jobs yet. -/
theorem quiet (h : Orderly starts w) {i : Nat} {stage next : StartStage δ}
    (hi : starts i = some stage) (hstage : stage.handle? = none) (hnext : next.handle? = none)
    (hscheduler : w'.scheduler = w.scheduler) (hjobs : w'.jobs = w.jobs)
    (hstarted : w.started = true → w'.started = true)
    (hflight : w'.started = true → next.InFlight ∨ (w.started = true ∧ ¬ stage.InFlight)) :
    Orderly (Function.update starts i (some next)) w' := by
  -- the starts that have asked for jobs are others, and are where they were
  have hother : ∀ {j stage' handle}, Function.update starts i (some next) j = some stage' →
      stage'.handle? = some handle → j ≠ i ∧ starts j = some stage' := by
    intro j stage' handle hj hhandle
    rcases Pool.update_eq_some_iff.mp hj with ⟨-, heq⟩ | hj
    · rw [← Option.some.inj heq, hnext] at hhandle
      contradiction
    · exact hj
  refine ⟨fun hinstalled => hstarted (h.started (hscheduler ▸ hinstalled)), ?_, ?_, ?_, ?_, ?_⟩
  · intro hclaimed hnone
    rcases hflight hclaimed with hin | ⟨hbefore, hout⟩
    · exact ⟨i, next, Function.update_self .., hin⟩
    · obtain ⟨j, stage', hj, hin⟩ := h.inFlight hbefore (hscheduler ▸ hnone)
      refine ⟨j, stage', Pool.update_eq_some_iff.mpr (.inr ⟨?_, hj⟩), hin⟩
      rintro rfl
      rw [hi, Option.some.injEq] at hj
      exact hout (hj ▸ hin)
  · intro j k stage₁ stage₂ handle₁ handle₂ hjk hj hk hhandle₁ hhandle₂
    exact h.disjoint hjk (hother hj hhandle₁).2 (hother hk hhandle₂).2 hhandle₁ hhandle₂
  · exact fun hj => (h.spawned (hother hj rfl).2).congr hjobs
  · intro handle hinstalled
    obtain ⟨hactive, owner, howner⟩ := h.installed (hscheduler ▸ hinstalled)
    refine ⟨hactive.congr hjobs, owner, Pool.update_eq_some_iff.mpr (.inr ⟨?_, howner⟩)⟩
    rintro rfl
    rw [hi, Option.some.injEq] at howner
    rw [howner] at hstage
    contradiction
  · intro j handle hj
    rw [hscheduler]
    exact (h.finished (hother hj rfl).2).imp_right fun haborted => haborted.congr hjobs

/-- A start asks for jobs: they are new. -/
theorem spawn (h : Orderly starts w) {i : Nat} {rest : Activity (World δ) Unit}
    (hi : starts i = some (.loading rest)) (settings : Settings) :
    Orderly (Function.update starts i (some (.spawned (Scheduler.start settings w).1)))
      (Scheduler.start settings w).2 := by
  have hnew : ∀ {j stage handle}, starts j = some stage → stage.handle? = some handle →
      handle.Disjoint (Scheduler.start settings w).1 := by
    intro j stage handle hj hhandle
    obtain ⟨status, hall⟩ := h.allHave hj hhandle
    exact Scheduler.disjoint_start settings w hall
  refine ⟨h.started, fun _ _ => ⟨i, _, Function.update_self .., trivial⟩, ?_, ?_, ?_, ?_⟩
  · intro j k stage₁ stage₂ handle₁ handle₂ hjk hj hk hhandle₁ hhandle₂
    rcases Pool.update_eq_some_iff.mp hj with ⟨rfl, heq₁⟩ | ⟨hji, hj'⟩ <;>
      rcases Pool.update_eq_some_iff.mp hk with ⟨rfl, heq₂⟩ | ⟨hki, hk'⟩
    · contradiction
    · rw [← Option.some.inj heq₁] at hhandle₁
      rw [← Option.some.inj hhandle₁]
      exact (hnew hk' hhandle₂).symm
    · rw [← Option.some.inj heq₂] at hhandle₂
      rw [← Option.some.inj hhandle₂]
      exact hnew hj' hhandle₁
    · exact h.disjoint hjk hj' hk' hhandle₁ hhandle₂
  · intro j handle hj
    rcases Pool.update_eq_some_iff.mp hj with ⟨rfl, heq⟩ | ⟨-, hj⟩
    · obtain rfl := StartStage.spawned.inj (Option.some.inj heq)
      exact Scheduler.active_start settings w
    · exact Scheduler.allHave_start settings w (h.spawned hj)
  · intro handle hinstalled
    obtain ⟨hactive, owner, howner⟩ := h.installed hinstalled
    refine ⟨Scheduler.allHave_start settings w hactive, owner,
      Pool.update_eq_some_iff.mpr (.inr ⟨?_, howner⟩)⟩
    rintro rfl
    rw [hi] at howner
    cases howner
  · intro j handle hj
    rcases Pool.update_eq_some_iff.mp hj with ⟨-, heq⟩ | ⟨-, hj⟩
    · cases heq
    · exact (h.finished hj).imp_right fun haborted => Scheduler.allHave_start settings w haborted

/-- A start installs its jobs in place of earlier ones, or tells them to stop. -/
theorem install (h : Orderly starts w) {i : Nat} {handle : SchedulerHandle}
    (hi : starts i = some (.spawned handle)) :
    Orderly (Function.update starts i (some (.finished (some handle)))) (install handle w) := by
  -- every start has the jobs it had
  have hdisjoint : ∀ {j k stage stage' handle₁ handle₂}, j ≠ k →
      Function.update starts i (some (.finished (some handle))) j = some stage →
      Function.update starts i (some (.finished (some handle))) k = some stage' →
      stage.handle? = some handle₁ → stage'.handle? = some handle₂ → handle₁.Disjoint handle₂ := by
    have hbefore : ∀ {j stage},
        Function.update starts i (some (.finished (some handle))) j = some stage →
        ∃ before, starts j = some before ∧ before.handle? = stage.handle? := by
      intro j stage hj
      rcases Pool.update_eq_some_iff.mp hj with ⟨rfl, heq⟩ | ⟨-, hj⟩
      · exact ⟨_, hi, by rw [← Option.some.inj heq]; rfl⟩
      · exact ⟨stage, hj, rfl⟩
    intro j k stage stage' handle₁ handle₂ hjk hj hk hhandle₁ hhandle₂
    obtain ⟨before, hj, heq⟩ := hbefore hj
    obtain ⟨before', hk, heq'⟩ := hbefore hk
    exact h.disjoint hjk hj hk (heq.trans hhandle₁) (heq'.trans hhandle₂)
  have hspawned : ∀ {j other},
      Function.update starts i (some (.finished (some handle))) j = some (.spawned other) →
      j ≠ i ∧ starts j = some (.spawned other) := by
    intro j other hj
    rcases Pool.update_eq_some_iff.mp hj with ⟨-, heq⟩ | hj
    · cases heq
    · exact hj
  unfold Service.install
  cases hstarted : w.started with
  | true =>
      refine ⟨fun _ => ?_, fun _ heq => by contradiction, hdisjoint,
        fun hj => (h.spawned_retired (hspawned hj).2).congr rfl, fun hinstalled => ?_, fun hj => ?_⟩
      · exact (started_retired w).trans hstarted
      · rw [← Option.some.inj hinstalled]
        exact ⟨(h.spawned_retired hi).congr rfl, i, Function.update_self ..⟩
      · rcases Pool.update_eq_some_iff.mp hj with ⟨-, heq⟩ | ⟨-, hj⟩
        · exact .inl (StartStage.finished.inj (Option.some.inj heq))
        · exact .inr ((h.finished_retired hj).congr rfl)
  | false =>
      -- no scheduler is installed while the service is not started
      have hnone : w.scheduler = none := by
        cases hscheduler : w.scheduler with
        | none => rfl
        | some installed =>
            rw [h.started hscheduler] at hstarted
            contradiction
      refine ⟨fun heq => ?_, fun heq => ?_, hdisjoint, fun hj => ?_, fun heq => ?_, fun hj => ?_⟩
      · cases hnone.symm.trans heq
      · cases hstarted.symm.trans heq
      · obtain ⟨hji, hj⟩ := hspawned hj
        exact (h.spawned hj).abort_of_disjoint (h.disjoint hji hj hi rfl rfl)
      · cases hnone.symm.trans heq
      · refine .inr ?_
        rcases Pool.update_eq_some_iff.mp hj with ⟨-, heq⟩ | ⟨-, hj⟩
        · obtain rfl := Option.some.inj (StartStage.finished.inj (Option.some.inj heq))
          exact (h.spawned hi).abort_self
        · rcases h.finished hj with heq | haborted
          · cases hnone.symm.trans heq
          · exact haborted.aborted_abort

/-- **A turn of a start** keeps the order. -/
theorem go (h : Orderly starts w) {i : Nat} {stage next : StartStage δ}
    (hi : starts i = some stage) (hload : stage.Confined)
    (hmove : s.StartMoves w stage (next, w')) :
    Orderly (Function.update starts i (some next)) w' := by
  cases hmove with
  | refuse hstarted => exact h.quiet hi rfl rfl rfl rfl id fun _ => .inr ⟨hstarted, id⟩
  | claim hstarted => exact h.quiet hi rfl rfl rfl rfl (fun _ => rfl) fun _ => .inl trivial
  | load rest rest' w' hturn =>
      obtain ⟨⟨hstarted, hscheduler, hjobs⟩, -⟩ :=
        Activity.Keeps.turn beside_refl hload hturn
      exact h.quiet hi rfl rfl hscheduler hjobs (fun hw => hstarted.trans hw) fun _ => .inl trivial
  | spawn rest => exact h.spawn hi s.settings
  | install handle => exact h.install hi

/-- The jobs of a start that has ended are told to stop if those of another one are installed. -/
theorem aborted_of_installed (h : Orderly starts w) {i j : Nat} {installed handle : SchedulerHandle}
    (hij : i ≠ j) (hinstalled : w.scheduler = some installed)
    (hi : starts i = some (.finished (some installed)))
    (hj : starts j = some (.finished (some handle))) : handle.AllHave .aborted w := by
  rcases h.finished hj with hinstalled' | haborted
  · -- the two have no job in common, so if they are equal they have none
    obtain rfl := Option.some.inj (hinstalled.symm.trans hinstalled')
    exact fun index hindex => (h.disjoint hij hi hj rfl rfl hindex hindex).elim
  · exact haborted

/-- Of two starts that have ended, one has had its jobs told to stop. -/
theorem aborted_of_ne (h : Orderly starts w) {i j : Nat} {handle handle' : SchedulerHandle}
    (hij : i ≠ j) (hi : starts i = some (.finished (some handle)))
    (hj : starts j = some (.finished (some handle'))) :
    handle.AllHave .aborted w ∨ handle'.AllHave .aborted w := by
  rcases h.finished hi with hinstalled | haborted
  · exact .inr (h.aborted_of_installed hij hinstalled hi hj)
  · exact .inl haborted

theorem of_shutdownOrBeside (h : Orderly starts w) (hstate : ShutdownOrBeside w w') :
    Orderly starts w' := by
  rcases hstate with rfl | hbeside
  · exact h.shutdown
  · exact h.of_beside hbeside

end Orderly

/-! ## Runs -/

/-- Calls of a new service, none of which has begun. -/
def callPool (calls : Nat → Option (ServiceCall δ)) (sources : δ) :
    Pool (World δ) Empty (ServiceTask δ) where
  state := initial s.settings sources
  tasks i := (calls i).map callTask

/-- What is followed through its stages is what the calls do. -/
theorem untrack_callPool (calls : Nat → Option (ServiceCall δ)) (sources : δ) :
    s.tracking.untrack (s.callPool calls sources) =
      { state := initial s.settings sources, tasks := fun i => (calls i).map s.activity } := by
  simp only [Tracking.untrack, callPool, Option.map_map, Function.comp_def, rest_callTask]

/-- What holds of a pool in which no start has been stopped. -/
structure Sound (calls : Nat → Option (ServiceCall δ))
    (p : Pool (World δ) Empty (ServiceTask δ)) : Prop where
  confined : ∀ {i task}, p.tasks i = some task → Confined task
  started : ∀ {i stage}, p.tasks i = some (.inl stage) → calls i = some .start
  orderly : Orderly (Pool.lefts p.tasks) p.state

namespace Sound

variable {s} {calls : Nat → Option (ServiceCall δ)} {p : Pool (World δ) Empty (ServiceTask δ)}

theorem of_calls (hother : ∀ i x, calls i = some (.other x) → x.Keeps Beside) (sources : δ) :
    Sound calls (s.callPool calls sources) where
  confined {i task} hi := by
    obtain ⟨call, hcall, rfl⟩ := Option.map_eq_some_iff.mp hi
    cases call with
    | start => trivial
    | shutdown => exact Activity.keeps_modify fun _ => .inl rfl
    | other x => exact (hother i x hcall).mono fun _ _ => .inr
  started {i stage} hi := by
    obtain ⟨call, hcall, heq⟩ := Option.map_eq_some_iff.mp hi
    cases call with
    | start => exact hcall
    | shutdown | other => cases heq
  orderly := by
    refine .of_called (fun i stage hi => ?_) rfl rfl
    obtain ⟨call, -, heq⟩ := Option.map_eq_some_iff.mp (Pool.lefts_eq_some_iff.mp hi)
    cases call with
    | start => exact (Sum.inl.inj heq).symm
    | shutdown | other => cases heq

/-- A task goes on or is stopped. -/
theorem update (h : Sound calls p) {i : Nat} {next : Option (ServiceTask δ)} {w : World δ}
    {log : List (Nat × Empty)} (hconfined : ∀ task, next = some task → Confined task)
    (hstarted : ∀ stage, next = some (.inl stage) → calls i = some .start)
    (horderly : Orderly (Pool.lefts (Function.update p.tasks i next)) w) :
    Sound calls ⟨w, Function.update p.tasks i next, log⟩ where
  confined hj := Pool.forall_update (fun _ _ _ hj => h.confined hj) hconfined hj
  started hj := by
    rcases Pool.update_eq_some_iff.mp hj with ⟨rfl, heq⟩ | ⟨-, hj⟩
    · exact hstarted _ heq
    · exact h.started hj
  orderly := horderly

theorem go (h : Sound calls p) (hclient : s.backend.client.Confined) {i : Nat}
    {task : ServiceTask δ} {next : ServiceTask δ × World δ × List Empty}
    (hi : p.tasks i = some task) (hgo : s.tracking.conduct.go? task p.state = some next) :
    Sound calls (p.gone i next) := by
  have hconfined := h.confined hi
  rcases task with stage | x
  · obtain ⟨stage', rest, hstage, rfl⟩ := Tracking.go?_sum_inl hgo
    have hmove := s.startMoves_of_go? hstage
    refine h.update (fun task heq => ?_) (fun stage heq => h.started hi) ?_
    · rw [← Option.some.inj heq]
      exact hmove.confined hclient hconfined
    · rw [Pool.lefts_update]
      exact h.orderly.go (Pool.lefts_eq_some_iff.mpr hi) hconfined hmove
  · obtain ⟨y, rest, hplain, rfl⟩ := Tracking.go?_sum_inr hgo
    obtain ⟨hturn, -⟩ := Tracking.go?_plain hplain
    obtain ⟨hstate, hkeeps⟩ := Activity.Keeps.turn (fun w => .inr (beside_refl w)) hconfined hturn
    refine h.update (fun task heq => ?_) (fun stage heq => by cases heq) ?_
    · rw [← Option.some.inj heq]
      exact hkeeps
    · rw [Pool.lefts_update_of_inr hi rfl]
      exact h.orderly.of_shutdownOrBeside hstate

theorem stop (h : Sound calls p) {i : Nat} {task : ServiceTask δ} {rest : World δ × List Empty}
    (hstart : calls i ≠ some .start) (hi : p.tasks i = some task)
    (hstop : s.tracking.conduct.stop? task p.state = some rest) :
    Sound calls (p.stopped i rest) := by
  have hconfined := h.confined hi
  rcases task with stage | x
  · exact absurd (h.started hi) hstart
  · rw [tracking, Tracking.stop?_sum_inr] at hstop
    obtain ⟨hstop, -⟩ := Tracking.stop?_eq_some_iff.mp hstop
    refine h.update (fun task heq => by cases heq) (fun stage heq => by cases heq) ?_
    rw [Pool.lefts_update_of_inr hi rfl]
    exact h.orderly.of_shutdownOrBeside (Activity.Keeps.stop hconfined hstop)

theorem run (h : Sound calls p) (hclient : s.backend.client.Confined) (schedule : List Turn)
    (hschedule : ∀ i, calls i = some .start → .stop i ∉ schedule) :
    Sound calls (p.run s.tracking.conduct schedule) :=
  Pool.run_induction schedule (fun _ _ _ _ h => h.go hclient)
    (fun _ i _ _ hmem h => h.stop fun hstart => hschedule i hstart hmem) h

end Sound

/-- The jobs that a start has asked for. -/
def handleOf (p : Pool (World δ) Empty (ServiceTask δ)) (i : Nat) : Option SchedulerHandle :=
  (Pool.lefts p.tasks i).bind StartStage.handle?

/-- No start is on its way. -/
def Settled (p : Pool (World δ) Empty (ServiceTask δ)) : Prop :=
  ∀ i stage, p.tasks i = some (.inl stage) → ¬ stage.InFlight

/-- The jobs of a start are active and installed, and those of every other start have been told to
stop. -/
def RunsOnly (p : Pool (World δ) Empty (ServiceTask δ)) (owner : Nat) : Prop :=
  ∃ installed, p.state.scheduler = some installed ∧ handleOf p owner = some installed ∧
    installed.AllHave .active p.state ∧
    ∀ i handle, i ≠ owner → handleOf p i = some handle → handle.AllHave .aborted p.state

/-- No scheduler is installed, and the jobs of every start have been told to stop. -/
def RunsNothing (p : Pool (World δ) Empty (ServiceTask δ)) : Prop :=
  p.state.scheduler = none ∧
    ∀ i handle, handleOf p i = some handle → handle.AllHave .aborted p.state

/-- **Starting and stopping**: whatever the order in which starts and shutdowns take their turns,
an installed scheduler is that of a started service; of two starts that have ended, one has had its
jobs told to stop; and when no start is on its way, the service is started if and only if one
scheduler is installed, and the jobs of every other one are told to stop. -/
theorem start_shutdown_run (hclient : s.backend.client.Confined)
    (calls : Nat → Option (ServiceCall δ))
    (hother : ∀ i x, calls i = some (.other x) → x.Keeps Beside) (schedule : List Turn)
    (hschedule : ∀ i, calls i = some .start → .stop i ∉ schedule) (sources : δ) :
    let p := (s.callPool calls sources).run s.tracking.conduct schedule
    (p.state.scheduler.isSome → p.state.started = true) ∧
      (∀ i j handle handle', i ≠ j → p.tasks i = some (.inl (.finished (some handle))) →
        p.tasks j = some (.inl (.finished (some handle'))) →
        handle.AllHave .aborted p.state ∨ handle'.AllHave .aborted p.state) ∧
      (Settled p → p.state.started = true ∧ (∃ owner, RunsOnly p owner) ∨
        p.state.started = false ∧ RunsNothing p) := by
  intro p
  have h : Orderly (Pool.lefts p.tasks) p.state :=
    ((Sound.of_calls hother sources).run hclient schedule hschedule).orderly
  refine ⟨fun hsome => ?_, fun i j handle handle' hij hi hj => ?_, fun hsettled => ?_⟩
  · obtain ⟨handle, hinstalled⟩ := Option.isSome_iff_exists.mp hsome
    exact h.started hinstalled
  · exact h.aborted_of_ne hij (Pool.lefts_eq_some_iff.mpr hi) (Pool.lefts_eq_some_iff.mpr hj)
  · -- a start that has asked for jobs has ended
    have hended : ∀ {i handle}, handleOf p i = some handle →
        Pool.lefts p.tasks i = some (.finished (some handle)) := by
      intro i handle hhandle
      obtain ⟨stage, hi, hhandle⟩ := Option.bind_eq_some_iff.mp hhandle
      have hout := hsettled i stage (Pool.lefts_eq_some_iff.mp hi)
      cases stage with
      | called => contradiction
      | loading | spawned => exact absurd trivial hout
      | finished other =>
          obtain rfl : other = some handle := hhandle
          exact hi
    cases hscheduler : p.state.scheduler with
    | some installed =>
        obtain ⟨hactive, owner, howner⟩ := h.installed hscheduler
        refine .inl ⟨h.started hscheduler, owner, installed, hscheduler, ?_, hactive, ?_⟩
        · rw [handleOf, howner]
          rfl
        · exact fun i handle hne hhandle =>
            h.aborted_of_installed hne.symm hscheduler howner (hended hhandle)
    | none =>
        refine .inr ⟨?_, hscheduler, fun i handle hhandle => ?_⟩
        · by_contra hstarted
          obtain ⟨i, stage, hi, hin⟩ := h.inFlight (Bool.of_not_eq_false hstarted) hscheduler
          exact hsettled i stage (Pool.lefts_eq_some_iff.mp hi) hin
        · rcases h.finished (hended hhandle) with hinstalled | haborted
          · cases hscheduler.symm.trans hinstalled
          · exact haborted

/-- A service in purge mode whose backend has no profile. -/
def withoutProfile : Service MemoryBackend where
  settings := {}
  directory :=
    { client := ⟨fun settings => .done (.error (.transient settings.url))⟩
      catalog := ⟨[], false⟩
      pageSize := 1000
      retry := {}
      refreshEnabled := false }
  backend :=
    { client := MemoryBackend.client (World.sourcesField.comp .whole)
      profile := none
      retry := {}
      reloadEnabled := true }

/-- A start, a shutdown, and another start. -/
def startAndRestart : Nat → Option (ServiceCall MemoryBackend)
  | 0 | 2 => some .start
  | 1 => some .shutdown
  | _ => none

/-- The service is shut down and started again while the first start loads; the first start installs
its jobs all the same, and then the second one. -/
def restartSchedule : List Turn :=
  [0, 0, 1, 2, 0, 0, 0, 0, 0, 0, 2, 2, 2, 2, 2, 2, 2].map .go

def restartedWhileLoading : Pool (World MemoryBackend) Empty (ServiceTask MemoryBackend) :=
  (withoutProfile.callPool startAndRestart { serverPrefix := "SERV1_", function := "Z_AOR" }).run
    withoutProfile.tracking.conduct restartSchedule

theorem start_shutdown_run_of_restart :
    withoutProfile.backend.client.Confined ∧
      (∀ i x, startAndRestart i = some (.other x) → x.Keeps Beside) ∧
      (∀ i, startAndRestart i = some .start → .stop i ∉ restartSchedule) ∧
      Settled restartedWhileLoading ∧ restartedWhileLoading.state.started = true ∧
      ∃ owner, RunsOnly restartedWhileLoading owner := by
  have hclient : withoutProfile.backend.client.Confined := MemoryBackend.confined_client .whole
  have hother : ∀ i x, startAndRestart i = some (.other x) → x.Keeps Beside := by
    intro i x hcall
    match i with
    | 0 | 1 | 2 => cases hcall
  have hschedule : ∀ i, startAndRestart i = some .start → .stop i ∉ restartSchedule := by
    intro i _
    simp [restartSchedule]
  have hsettled : Settled restartedWhileLoading := by
    intro i stage hi
    match i with
    | 0 =>
        obtain rfl : .finished (some ⟨[0]⟩) = stage := Sum.inl.inj (Option.some.inj hi)
        exact id
    | 1 => cases hi
    | 2 =>
        obtain rfl : .finished (some ⟨[1]⟩) = stage := Sum.inl.inj (Option.some.inj hi)
        exact id
    | i + 3 => cases hi
  have hstarted : restartedWhileLoading.state.started = true := by decide +kernel
  obtain ⟨-, -, hruns⟩ :=
    start_shutdown_run withoutProfile hclient startAndRestart hother restartSchedule hschedule
      { serverPrefix := "SERV1_", function := "Z_AOR" }
  rcases hruns hsettled with ⟨-, howner⟩ | ⟨hfalse, -⟩
  · exact ⟨hclient, hother, hschedule, hsettled, hstarted, howner⟩
  · cases hstarted.symm.trans hfalse

end Service

end AttrFederation
