import AttrFederation.Activity.Basic
import AttrFederation.Activity.Field
import AttrFederation.Activity.Job

/-!
# Timelines

A timeline runs activities together on a clock of its own, one at a time: an activity runs until it
waits for something that is not there yet, and when all wait, the clock jumps to the earliest time
that one of them waits for.

There is one leading activity, which goes first whenever it can; the threads it has started and the
jobs that the state asks for run while it waits.  A job that was told to stop leaves the timeline,
through its clean-up, the next time the leading activity waits.
-/

namespace AttrFederation

/-! ## Activities under way -/

/-- How far an activity has come. -/
inductive Phase (σ α : Type) : Type where
  | runnable (next : Activity σ α)
  /-- It waits for a time. -/
  | sleeping (wake : Nat) (abandon : σ → σ) (next : Activity σ α)
  /-- It waits for the state. -/
  | waiting (ready : σ → Bool) (abandon : σ → σ) (next : Activity σ α)
  /-- It has ended at a time. -/
  | finished (result : α) (time : Nat)

namespace Phase

variable {σ α : Type}

/-- Runs an activity at a time until it waits or ends. -/
def advance : Activity σ α → σ → Nat → Phase σ α × σ
  | .done a, s, clock => (finished a clock, s)
  | .step change next, s, clock => advance (next s) (change s) clock
  | .sleep millis abandon next, s, clock =>
    if millis = 0 then advance next s clock
    else (sleeping (clock + Activity.waitTime millis) abandon next, s)
  | .await ready abandon next, s, clock =>
    if ready s then advance next s clock else (waiting ready abandon next, s)

/-- Runs an activity on, if what it waits for is there. -/
def resume? (phase : Phase σ α) (s : σ) (clock : Nat) : Option (Phase σ α × σ) :=
  match phase with
  | runnable next => some (advance next s clock)
  | sleeping wake _ next => if wake ≤ clock then some (advance next s clock) else none
  | waiting ready _ next => if ready s then some (advance next s clock) else none
  | finished _ _ => none

/-- The state after an activity was stopped. -/
def stop (phase : Phase σ α) (s : σ) : σ :=
  match phase with
  | sleeping _ abandon _ | waiting _ abandon _ => abandon s
  | runnable _ | finished _ _ => s

/-- The time that an activity waits for. -/
def wake? : Phase σ α → Option Nat
  | sleeping wake _ _ => some wake
  | _ => none

/-- The result of an activity that has ended, and the time of its end. -/
def ended? : Phase σ α → Option (α × Nat)
  | finished a time => some (a, time)
  | _ => none

end Phase

/-! ## The timeline -/

/-- The jobs a state asks for and the work each does. -/
structure Background (σ κ : Type) where
  /-- The jobs ever asked for, in order. -/
  jobs : Field σ (List (Job κ))
  work : κ → Activity σ Unit

/-- A job under way: its place among the jobs, its next due time and, while it works, how far it has
come. -/
structure JobRun (σ : Type) where
  index : Nat
  /-- The next due time. -/
  due : Nat
  /-- The work under way. -/
  working : Option (Phase σ Unit)

/-- A clock, a state and all that runs beside the leading activity. -/
structure Timeline (σ ρ : Type) where
  /-- The time in milliseconds. -/
  clock : Nat := 0
  state : σ
  /-- The threads ever started. -/
  threads : List (Phase σ ρ) := []
  runs : List (JobRun σ) := []

namespace Timeline

variable {σ ρ κ α : Type}

/-! ### Jobs -/

/-- One turn of a job that waits for its due time or works; nothing if it cannot go on. -/
def turnOfRun? (bg : Background σ κ) (job : Job κ) (run : JobRun σ) (s : σ) (clock : Nat) :
    Option (JobRun σ × σ) :=
  match run.working with
  | none =>
    if run.due ≤ clock then
      let (phase, s) := Phase.advance (bg.work job.kind) s clock
      some ({ run with due := job.schedule.nextDue run.due clock, working := some phase }, s)
    else none
  | some (.finished _ _) => some ({ run with working := none }, s)
  | some phase =>
    (phase.resume? s clock).map fun (phase, s) => ({ run with working := some phase }, s)

def run? (t : Timeline σ ρ) (index : Nat) : Option (JobRun σ) :=
  t.runs.find? fun run => run.index = index

/-- The timeline with another state of a run. -/
def setRun (t : Timeline σ ρ) (run : JobRun σ) : Timeline σ ρ :=
  { t with runs := t.runs.map fun other => if other.index = run.index then run else other }

/-- One turn of a job: it is taken up, goes on, or leaves; nothing if it cannot go on. -/
def turnOfJob? (bg : Background σ κ) (t : Timeline σ ρ) (index : Nat) (job : Job κ) :
    Option (Timeline σ ρ) :=
  match job.status, t.run? index with
  | .active, none =>
    if job.schedule.period = 0 then
      some { t with state := bg.jobs.modify (Job.setStatus .ended index) t.state }
    else some { t with runs := t.runs ++ [⟨index, t.clock + job.schedule.delay, none⟩] }
  | .active, some run =>
    (turnOfRun? bg job run t.state t.clock).map fun (run, s) => { t.setRun run with state := s }
  | _, some run =>
    some { t with
      state := (run.working.map fun phase => phase.stop t.state).getD t.state
      runs := t.runs.filter fun other => other.index ≠ index }
  | _, none => none

/-- How many turns of a job, rounds of turns, or jumps of the clock a run may take. -/
def patience : Nat := 1000000000

/-- Gives a job its turns until it cannot go on, within a number of them, and tells whether it went
on. -/
def driveJobWithin (bg : Background σ κ) (index : Nat) :
    Nat → Bool × Timeline σ ρ → Bool × Timeline σ ρ
  | 0, r => r
  | turns + 1, (moved, t) =>
    match ((bg.jobs.get t.state)[index]?).bind (turnOfJob? bg t index) with
    | none => (moved, t)
    | some t => driveJobWithin bg index turns (true, t)

/-- Lets every job go on until it waits, in order, and tells whether one went on. -/
def turnOfJobs (bg : Background σ κ) (t : Timeline σ ρ) : Bool × Timeline σ ρ :=
  (List.range (bg.jobs.get t.state).length).foldl
    (fun r index => driveJobWithin bg index patience r) (false, t)

/-! ### Threads -/

/-- One turn of every thread, in order, and whether one went on. -/
def turnOfThreads (t : Timeline σ ρ) : Bool × Timeline σ ρ :=
  (List.range t.threads.length).foldl
    (fun (moved, t) index =>
      match (t.threads[index]?).bind fun phase => phase.resume? t.state t.clock with
      | none => (moved, t)
      | some (phase, s) => (true, { t with state := s, threads := t.threads.set index phase }))
    (false, t)

/-! ### Time -/

/-- The earlier of two times. -/
def earlier : Option Nat → Option Nat → Option Nat
  | some a, some b => some (min a b)
  | some a, none => some a
  | none, b => b

/-- The earliest time that something beside the leading activity waits for. -/
def nextWake (t : Timeline σ ρ) : Option Nat :=
  let ofRuns := t.runs.map fun run =>
    match run.working with
    | none => some run.due
    | some phase => phase.wake?
  (t.threads.map Phase.wake? ++ ofRuns).foldl earlier none

/-- Gives every job and thread its turn until none can go on, within a number of rounds. -/
def settleWithin (bg : Background σ κ) : Nat → Timeline σ ρ → Timeline σ ρ
  | 0, t => t
  | rounds + 1, t =>
    let (jobsMoved, t) := turnOfJobs bg t
    let (threadsMoved, t) := turnOfThreads t
    if jobsMoved || threadsMoved then settleWithin bg rounds t else t

/-- Gives every job and thread its turn until none can go on. -/
def settle (bg : Background σ κ) (t : Timeline σ ρ) : Timeline σ ρ :=
  settleWithin bg patience t

/-- Lets time pass until a condition holds, within a number of jumps of the clock; nothing if all
wait for ever.  A deadline is a further time to stop at. -/
def passWithin (bg : Background σ κ) (holds : Timeline σ ρ → Bool) (deadline : Option Nat) :
    Nat → Timeline σ ρ → Option (Timeline σ ρ)
  | 0, _ => none
  | jumps + 1, t =>
    if holds t then some t
    else
      let t := settle bg t
      if holds t then some t
      else
        match earlier (nextWake t) deadline with
        | none => none
        | some wake => passWithin bg holds deadline jumps { t with clock := max t.clock wake }

/-- Lets time pass until a condition holds. -/
def passUntil (bg : Background σ κ) (holds : Timeline σ ρ → Bool) (deadline : Option Nat)
    (t : Timeline σ ρ) : Option (Timeline σ ρ) :=
  passWithin bg holds deadline patience t

/-! ### Running -/

/-- Runs the leading activity to its end; nothing if it waits for ever. -/
def lead (bg : Background σ κ) : Activity σ α → Timeline σ ρ → Option (α × Timeline σ ρ)
  | .done a, t => some (a, t)
  | .step change next, t => lead bg (next t.state) { t with state := change t.state }
  | .sleep millis _ next, t =>
    let wake := t.clock + Activity.waitTime millis
    (passUntil bg (fun t => wake ≤ t.clock) (some wake) t).bind (lead bg next)
  | .await ready _ next, t =>
    (passUntil bg (fun t => ready t.state) none t).bind (lead bg next)

/-- Starts a thread and lets everything beside the leading activity run to its next wait. -/
def spawn (bg : Background σ κ) (activity : Activity σ ρ) (t : Timeline σ ρ) : Timeline σ ρ :=
  settle bg { t with threads := t.threads ++ [.runnable activity] }

/-- The result of a thread that has ended. -/
def result? (t : Timeline σ ρ) (thread : Nat) : Option ρ :=
  ((t.threads[thread]?).bind Phase.ended?).map Prod.fst

/-- Lets time pass until a thread has ended; nothing if it never does. -/
def join (bg : Background σ κ) (thread : Nat) (t : Timeline σ ρ) : Option (ρ × Timeline σ ρ) :=
  (passUntil bg (fun t => (t.result? thread).isSome) none t).bind fun t =>
    (t.result? thread).map fun result => (result, t)

/-- Lets time pass until all threads have ended. -/
def joinAll (bg : Background σ κ) (t : Timeline σ ρ) : Option (Timeline σ ρ) :=
  passUntil bg (fun t => t.threads.all fun phase => phase.ended?.isSome) none t

end Timeline

end AttrFederation
