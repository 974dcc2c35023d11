import AttrFederation.Activity.Lock
import AttrFederation.Activity.Retry

/-!
# Turns of an activity

The smallest thing that an activity can do while others run is a turn: it takes one step, or a wait
of its is over.  How long a wait for a time lasts is left open, so that what holds of all sequences
of turns holds of all timings.  An activity that waits can also be stopped.

* `turn?_bind`, `turn?_guarded`, `stop?_guarded` — turns of composed activities;
* `Keeps` — everything that an activity does to the state, also when it is stopped, is of one kind;
  it holds of a composed activity if it holds of the parts.
-/

namespace AttrFederation

namespace Activity

variable {σ α β : Type}

/-! ## Turns -/

/-- The result of an activity that has ended. -/
def result? : Activity σ α → Option α
  | done a => some a
  | _ => none

/-- What is left of an activity after a turn, and the state then; nothing if it has ended or waits
for a state that is not there. -/
def turn? : Activity σ α → σ → Option (Activity σ α × σ)
  | done _, _ => none
  | step change next, s => some (next s, change s)
  | sleep _ _ next, s => some (next, s)
  | await ready _ next, s => if ready s then some (next, s) else none

/-- The state after an activity was stopped; nothing if it does not wait. -/
def stop? : Activity σ α → σ → Option σ
  | sleep _ abandon _, s | await _ abandon _, s => some (abandon s)
  | done _, _ | step _ _, _ => none

theorem eq_done_of_result? {x : Activity σ α} {a : α} (h : x.result? = some a) : x = done a := by
  cases x with
  | done b => rw [Option.some.inj h]
  | step | sleep | await => contradiction

/-- What is left of an activity after a turn; all of it if it cannot take one. -/
def afterTurn (x : Activity σ α) (s : σ) : Activity σ α :=
  ((x.turn? s).map Prod.fst).getD x

theorem afterTurn_eq {x y : Activity σ α} {s s' : σ} (h : x.turn? s = some (y, s')) :
    x.afterTurn s = y := by
  rw [afterTurn, h, Option.map_some, Option.getD_some]

/-- Before the first of two activities has ended, a turn of both is a turn of it. -/
theorem turn?_bind {x : Activity σ α} (h : x.result? = none) (f : α → Activity σ β) (s : σ) :
    (x.bind f).turn? s = (x.turn? s).map fun (y, s) => (y.bind f, s) := by
  cases x with
  | done a => contradiction
  | step | sleep => rfl
  | await ready abandon next =>
      simp only [bind, turn?]
      split <;> rfl

/-- What is made of the result does not matter to the turns. -/
theorem turn?_bind_done (x : Activity σ α) (f : α → β) (s : σ) :
    (x.bind fun a => done (f a)).turn? s =
      (x.turn? s).map fun (y, s) => (y.bind fun a => done (f a), s) := by
  cases x with
  | done a => rfl
  | step | sleep | await => exact turn?_bind rfl ..

theorem stop?_bind_done (x : Activity σ α) (f : α → β) (s : σ) :
    (x.bind fun a => done (f a)).stop? s = x.stop? s := by
  cases x <;> rfl

/-- Before an activity has ended, its clean-up does not matter to its turns. -/
theorem turn?_guarded {x : Activity σ α} (h : x.result? = none) (cleanUp : σ → σ) (s : σ) :
    (x.guarded cleanUp).turn? s = (x.turn? s).map fun (y, s) => (y.guarded cleanUp, s) := by
  cases x with
  | done a => contradiction
  | step | sleep => rfl
  | await ready abandon next =>
      simp only [guarded, turn?]
      split <;> rfl

/-- Stopping an activity with a clean-up cleans up. -/
theorem stop?_guarded (x : Activity σ α) (cleanUp : σ → σ) (s : σ) :
    (x.guarded cleanUp).stop? s = (x.stop? s).map cleanUp := by
  cases x <;> rfl

theorem result?_guarded (x : Activity σ α) (cleanUp : σ → σ) :
    (x.guarded cleanUp).result? = none := by
  cases x <;> rfl

/-! ## What an activity does to the state -/

/-- Whatever the activity does, also when it is stopped, takes a state to a related one. -/
def Keeps (R : σ → σ → Prop) : Activity σ α → Prop
  | done _ => True
  | step change next => ∀ s, R s (change s) ∧ (next s).Keeps R
  | sleep _ abandon next | await _ abandon next => (∀ s, R s (abandon s)) ∧ next.Keeps R

variable {R : σ → σ → Prop}

/-- A turn takes the state to a related one and leaves an activity that does so. -/
theorem Keeps.turn (hrefl : ∀ s, R s s) {x y : Activity σ α} {s s' : σ} (hx : x.Keeps R)
    (h : x.turn? s = some (y, s')) : R s s' ∧ y.Keeps R := by
  cases x with
  | done a => contradiction
  | step change next =>
      obtain ⟨rfl, rfl⟩ := Prod.mk.inj (Option.some.inj h)
      exact hx s
  | sleep millis abandon next =>
      obtain ⟨rfl, rfl⟩ := Prod.mk.inj (Option.some.inj h)
      exact ⟨hrefl s, hx.2⟩
  | await ready abandon next =>
      simp only [turn?] at h
      split at h
      · obtain ⟨rfl, rfl⟩ := Prod.mk.inj (Option.some.inj h)
        exact ⟨hrefl s, hx.2⟩
      · contradiction

theorem Keeps.stop {x : Activity σ α} {s s' : σ} (hx : x.Keeps R) (h : x.stop? s = some s') :
    R s s' := by
  cases x with
  | done | step => contradiction
  | sleep | await => exact Option.some.inj h ▸ hx.1 s

theorem Keeps.mono {R' : σ → σ → Prop} (hle : ∀ s s', R s s' → R' s s') {x : Activity σ α}
    (hx : x.Keeps R) : x.Keeps R' := by
  induction x with
  | done a => trivial
  | step change next ih => exact fun s => ⟨hle _ _ (hx s).1, ih s (hx s).2⟩
  | sleep _ _ _ ih | await _ _ _ ih => exact ⟨fun s => hle _ _ (hx.1 s), ih hx.2⟩

theorem Keeps.bind {x : Activity σ α} {f : α → Activity σ β} (hx : x.Keeps R)
    (hf : ∀ a, (f a).Keeps R) : (x.bind f).Keeps R := by
  induction x with
  | done a => exact hf a
  | step change next ih => exact fun s => ⟨(hx s).1, ih s (hx s).2⟩
  | sleep _ _ _ ih | await _ _ _ ih => exact ⟨hx.1, ih hx.2⟩

theorem Keeps.guarded (htrans : ∀ a b c, R a b → R b c → R a c) {x : Activity σ α}
    {cleanUp : σ → σ} (hx : x.Keeps R) (hclean : ∀ s, R s (cleanUp s)) :
    (x.guarded cleanUp).Keeps R := by
  induction x with
  | done a => exact fun s => ⟨hclean s, trivial⟩
  | step change next ih => exact fun s => ⟨(hx s).1, ih s (hx s).2⟩
  | sleep _ _ _ ih | await _ _ _ ih =>
      exact ⟨fun s => htrans _ _ _ (hx.1 s) (hclean _), ih hx.2⟩

theorem keeps_modifyGet {f : σ → β × σ} (h : ∀ s, R s (f s).2) : (modifyGet f).Keeps R :=
  fun s => ⟨h s, trivial⟩

theorem keeps_modify {f : σ → σ} (h : ∀ s, R s (f s)) : (modify f).Keeps R :=
  fun s => ⟨h s, trivial⟩

end Activity

/-- Retrying does what the operation does. -/
theorem RetryPolicy.keeps_execute {σ α : Type} {R : σ → σ → Prop} (hrefl : ∀ s, R s s)
    (policy : RetryPolicy) {operation : Activity σ (Except SourceError α)}
    (h : operation.Keeps R) : (policy.execute operation).Keeps R := by
  unfold execute
  induction policy.retries.toNat with
  | zero => exact h
  | succ retries ih =>
      refine h.bind fun outcome => ?_
      cases outcome with
      | ok a => trivial
      | error e =>
          dsimp only
          split
          · exact ⟨hrefl, ih⟩
          · trivial

/-- An activity that holds a lock does what it does without, beside joining and leaving the
queue. -/
theorem Lock.keeps_holding {σ α : Type} {R : σ → σ → Prop}
    (htrans : ∀ a b c, R a b → R b c → R a c) {field : Field σ Lock} {body : Activity σ α}
    (hfield : ∀ f s, R s (field.modify f s)) (hbody : body.Keeps R) :
    (Lock.holding field body).Keeps R :=
  fun s => ⟨hfield _ s, hfield _, hbody.guarded htrans (hfield _)⟩

end AttrFederation
