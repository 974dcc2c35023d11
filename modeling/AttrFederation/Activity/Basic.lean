/-!
# Activities

An activity is a program over a shared state that runs beside other activities.  It takes steps,
each of which is atomic, and it waits: for a time, or until the state is as it needs it.  Other
activities can run only while it waits, unless one chooses to interleave them at every step.  A wait
for a time has a bound, `longestWait`: one that asks for more ends there.

An activity that is stopped while it waits leaves the state through the clean-up of that wait.
`guarded` gives a clean-up to a whole activity, to run when it ends or is stopped.
-/

namespace AttrFederation

/-- A program of atomic steps and waits over a state. -/
inductive Activity (σ α : Type) : Type where
  | done (result : α)
  /-- An atomic change of the state; what follows sees the state before it. -/
  | step (change : σ → σ) (next : σ → Activity σ α)
  /-- A wait of so many milliseconds; stopped meanwhile, it changes the state by `abandon`. -/
  | sleep (millis : Nat) (abandon : σ → σ) (next : Activity σ α)
  /-- A wait until the state is ready; stopped meanwhile, it changes the state by `abandon`. -/
  | await (ready : σ → Bool) (abandon : σ → σ) (next : Activity σ α)

namespace Activity

variable {σ α β : Type}

/-! ## Composition -/

/-- One activity after another. -/
def bind : Activity σ α → (α → Activity σ β) → Activity σ β
  | done a, f => f a
  | step change next, f => step change fun s => (next s).bind f
  | sleep millis abandon next, f => sleep millis abandon (next.bind f)
  | await ready abandon next, f => await ready abandon (next.bind f)

instance : Monad (Activity σ) where
  pure := done
  bind := bind

@[simp] theorem done_bind (a : α) (f : α → Activity σ β) : (done a).bind f = f a := rfl

@[simp] theorem bind_done (x : Activity σ α) : x.bind done = x := by
  induction x with
  | done => rfl
  | step change next ih => exact congrArg _ (funext ih)
  | sleep millis abandon next ih => exact congrArg _ ih
  | await ready abandon next ih => exact congrArg _ ih

theorem bind_assoc {γ : Type} (x : Activity σ α) (f : α → Activity σ β) (g : β → Activity σ γ) :
    (x.bind f).bind g = x.bind fun a => (f a).bind g := by
  induction x with
  | done => rfl
  | step change next ih => exact congrArg _ (funext ih)
  | sleep millis abandon next ih => exact congrArg _ ih
  | await ready abandon next ih => exact congrArg _ ih

/-! ## Single steps -/

/-- An atomic change with a result. -/
def modifyGet (f : σ → β × σ) : Activity σ β :=
  step (fun s => (f s).2) fun s => done (f s).1

def modify (f : σ → σ) : Activity σ Unit :=
  step f fun _ => done ()

def read (f : σ → β) : Activity σ β :=
  step id fun s => done (f s)

/-- A wait of so many milliseconds with nothing to clean up. -/
def pause (millis : Nat) : Activity σ Unit :=
  sleep millis id (done ())

/-- An activity with a clean-up that runs when it ends, and when it is stopped. -/
def guarded (cleanUp : σ → σ) : Activity σ α → Activity σ α
  | done a => step cleanUp fun _ => done a
  | step change next => step change fun s => (next s).guarded cleanUp
  | sleep millis abandon next => sleep millis (cleanUp ∘ abandon) (next.guarded cleanUp)
  | await ready abandon next => await ready (cleanUp ∘ abandon) (next.guarded cleanUp)

/-! ## Waiting -/

/-- No wait lasts longer than this many milliseconds, which are thirty years of 365 days. -/
def longestWait : Nat := 30 * 365 * 24 * 60 * 60 * 1000

/-- How long a wait of so many milliseconds lasts. -/
def waitTime (millis : Nat) : Nat :=
  min millis longestWait

theorem waitTime_of_le {millis : Nat} (h : millis ≤ longestWait) : waitTime millis = millis :=
  Nat.min_eq_left h

/-! ## Running alone -/

/-- The result, the state and the time after an activity that runs without others, from a state and
a time; nothing if it waits for what only another one could do. -/
def alone : Activity σ α → σ → Nat → Option (α × σ × Nat)
  | done a, s, time => some (a, s, time)
  | step change next, s, time => (next s).alone (change s) time
  | sleep millis _ next, s, time => next.alone s (time + waitTime millis)
  | await ready _ next, s, time => if ready s then next.alone s time else none

@[simp] theorem alone_done (a : α) (s : σ) (time : Nat) :
    (done a).alone s time = some (a, s, time) := rfl

theorem alone_bind (x : Activity σ α) (f : α → Activity σ β) (s : σ) (time : Nat) :
    (x.bind f).alone s time
      = (x.alone s time).bind fun (a, s, time) => (f a).alone s time := by
  induction x generalizing s time with
  | done => rfl
  | step change next ih => exact ih s _ _
  | sleep millis abandon next ih => exact ih _ _
  | await ready abandon next ih =>
    simp only [bind, alone]
    split
    · exact ih _ _
    · rfl

end Activity

end AttrFederation
