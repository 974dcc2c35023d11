import Mathlib.Logic.Function.Basic
import AttrFederation.Proofs.Activity.Turn

/-!
# Pools of tasks

A pool is a state with tasks over it that take turns in any order: a schedule is a list of turns,
and every list of turns is one.  A turn that a task cannot take changes nothing.

How a task goes on is told by an activity, but an observer wants to know more than what is left of
it.  A `Tracking` follows an activity through named points: each point has the activity that is left
there, and a turn at a point leads to the point that has what is left after the turn (`rest_next`).
With each turn comes a list of events, which the pool writes into a log; they have no influence on
what happens.

* `Pool.run_induction` — what every turn keeps, every schedule keeps;
* `Tracking.untrack_run` — a pool with a tracking runs as its activities do;
* `Tracking.sum` — tasks of two kinds in one pool.
-/

namespace AttrFederation

/-! ## Pools -/

/-- Whose turn it is. -/
inductive Turn where
  /-- A task goes on. -/
  | go (task : Nat)
  /-- A task is stopped, if it waits. -/
  | stop (task : Nat)
deriving DecidableEq, Repr

/-- How tasks of a type go on over a state, and the events that come with it. -/
structure Conduct (σ ε τ : Type) where
  go? : τ → σ → Option (τ × σ × List ε)
  stop? : τ → σ → Option (σ × List ε)

/-- Tasks over a state. -/
structure Pool (σ ε τ : Type) where
  state : σ
  /-- The tasks by number; a task that was stopped is none any more. -/
  tasks : Nat → Option τ
  /-- The events so far with the tasks they are of, the latest last. -/
  log : List (Nat × ε) := []

namespace Pool

variable {σ ε τ : Type}

/-- The pool after a task has gone on. -/
def gone (p : Pool σ ε τ) (i : Nat) (next : τ × σ × List ε) : Pool σ ε τ where
  state := next.2.1
  tasks := Function.update p.tasks i (some next.1)
  log := p.log ++ next.2.2.map (i, ·)

/-- The pool after a task was stopped. -/
def stopped (p : Pool σ ε τ) (i : Nat) (rest : σ × List ε) : Pool σ ε τ where
  state := rest.1
  tasks := Function.update p.tasks i none
  log := p.log ++ rest.2.map (i, ·)

def turn (c : Conduct σ ε τ) (p : Pool σ ε τ) : Turn → Pool σ ε τ
  | .go i =>
    match (p.tasks i).bind fun task => c.go? task p.state with
    | some next => p.gone i next
    | none => p
  | .stop i =>
    match (p.tasks i).bind fun task => c.stop? task p.state with
    | some rest => p.stopped i rest
    | none => p

def run (c : Conduct σ ε τ) (p : Pool σ ε τ) (schedule : List Turn) : Pool σ ε τ :=
  schedule.foldl (turn c) p

variable {c : Conduct σ ε τ} {p : Pool σ ε τ}

/-- The tasks after one of them has gone on or was stopped. -/
theorem update_eq_some_iff {tasks : Nat → Option τ} {i j : Nat} {next : Option τ} {task : τ} :
    Function.update tasks i next j = some task ↔
      j = i ∧ next = some task ∨ j ≠ i ∧ tasks j = some task := by
  by_cases hji : j = i
  · subst hji
    simp
  · simp [hji]

/-- What holds of all tasks holds of them after one of them has gone on or was stopped, if it holds
of what has become of that one. -/
theorem forall_update {P : Nat → τ → Prop} {tasks : Nat → Option τ} {i : Nat} {next : Option τ}
    (h : ∀ j task, j ≠ i → tasks j = some task → P j task)
    (hnext : ∀ task, next = some task → P i task) {j : Nat} {task : τ}
    (hj : Function.update tasks i next j = some task) : P j task := by
  rcases update_eq_some_iff.mp hj with ⟨rfl, heq⟩ | ⟨hji, hj⟩
  · exact hnext task heq
  · exact h j task hji hj

@[simp] theorem run_nil : p.run c [] = p := rfl

@[simp] theorem run_cons (turn : Turn) (schedule : List Turn) :
    p.run c (turn :: schedule) = (p.turn c turn).run c schedule := rfl

/-- What the first pool has and every turn of a schedule keeps, the schedule keeps. -/
theorem run_induction {P : Pool σ ε τ → Prop} (schedule : List Turn)
    (hgo : ∀ p i task next, P p → p.tasks i = some task → c.go? task p.state = some next →
      P (p.gone i next))
    (hstop : ∀ p i task rest, .stop i ∈ schedule → P p → p.tasks i = some task →
      c.stop? task p.state = some rest → P (p.stopped i rest))
    (h : P p) : P (p.run c schedule) := by
  induction schedule generalizing p with
  | nil => exact h
  | cons turn schedule ih =>
      refine ih (fun p i task rest hmem => hstop p i task rest (List.mem_cons_of_mem _ hmem)) ?_
      cases turn with
      | go i =>
          simp only [Pool.turn]
          split
          · next next heq =>
              obtain ⟨task, htask, hnext⟩ := Option.bind_eq_some_iff.mp heq
              exact hgo p i task next h htask hnext
          · exact h
      | stop i =>
          simp only [Pool.turn]
          split
          · next rest heq =>
              obtain ⟨task, htask, hrest⟩ := Option.bind_eq_some_iff.mp heq
              exact hstop p i task rest List.mem_cons_self h htask hrest
          · exact h

end Pool

/-- An event of a log with one more is the new one or was there before. -/
theorem split_concat {α : Type} {log before after : List α} {event last : α}
    (h : log ++ [last] = before ++ event :: after) :
    (event = last ∧ before = log) ∨ ∃ after', log = before ++ event :: after' := by
  obtain rfl | ⟨after', last', rfl⟩ := List.eq_nil_or_concat after
  · obtain ⟨hlog, hlast⟩ := List.append_inj' h rfl
    exact .inl ⟨(List.cons.inj hlast).1.symm, hlog.symm⟩
  · rw [List.concat_eq_append, ← List.cons_append, ← List.append_assoc] at h
    exact .inr ⟨after', (List.append_inj' h rfl).1⟩

/-! ## Trackings -/

/-- A way to follow an activity. -/
structure Tracking (σ ε α ρ : Type) where
  /-- What is left at a point. -/
  rest : ρ → Activity σ α
  /-- The point after a turn in a state. -/
  next : ρ → σ → ρ
  /-- The events that come with a turn in a state. -/
  events : ρ → σ → List ε
  /-- The events that come with being stopped. -/
  stopEvents : ρ → List ε
  rest_next : ∀ {point s x s'}, (rest point).turn? s = some (x, s') → x = rest (next point s)

namespace Tracking

variable {σ ε α ρ : Type}

/-- An activity followed as it is, without events. -/
def plain : Tracking σ ε α (Activity σ α) where
  rest x := x
  next := Activity.afterTurn
  events _ _ := []
  stopEvents _ := []
  rest_next h := (Activity.afterTurn_eq h).symm

/-- Tasks are at points and do what is left there. -/
def conduct (t : Tracking σ ε α ρ) : Conduct σ ε ρ where
  go? point s := ((t.rest point).turn? s).map fun (_, s') => (t.next point s, s', t.events point s)
  stop? point s := ((t.rest point).stop? s).map fun s' => (s', t.stopEvents point)

/-- A turn at a point is a turn of what is left there. -/
theorem go?_eq_some_iff {t : Tracking σ ε α ρ} {point : ρ} {s : σ} {next : ρ × σ × List ε} :
    t.conduct.go? point s = some next ↔
      (t.rest point).turn? s = some (t.rest (t.next point s), next.2.1) ∧
        next.1 = t.next point s ∧ next.2.2 = t.events point s := by
  constructor
  · intro h
    obtain ⟨⟨x, s'⟩, hturn, rfl⟩ := Option.map_eq_some_iff.mp h
    exact ⟨t.rest_next hturn ▸ hturn, rfl, rfl⟩
  · rintro ⟨hturn, hpoint, hevents⟩
    obtain ⟨point', s', events⟩ := next
    simp only at hpoint hevents
    subst hpoint hevents
    simp only [conduct, hturn, Option.map_some]

theorem stop?_eq_some_iff {t : Tracking σ ε α ρ} {point : ρ} {s : σ} {rest : σ × List ε} :
    t.conduct.stop? point s = some rest ↔
      (t.rest point).stop? s = some rest.1 ∧ rest.2 = t.stopEvents point := by
  constructor
  · intro h
    obtain ⟨s', hstop, rfl⟩ := Option.map_eq_some_iff.mp h
    exact ⟨hstop, rfl⟩
  · rintro ⟨hstop, hevents⟩
    obtain ⟨s', events⟩ := rest
    simp only at hstop hevents
    subst hevents
    simp only [conduct, hstop, Option.map_some]

/-- An activity that is followed as it is takes its turns, without events. -/
theorem go?_plain {x : Activity σ α} {s : σ} {next : Activity σ α × σ × List ε}
    (h : plain.conduct.go? x s = some next) :
    x.turn? s = some (next.1, next.2.1) ∧ next.2.2 = [] := by
  obtain ⟨hturn, hpoint, hevents⟩ := go?_eq_some_iff.mp h
  exact ⟨hpoint ▸ hturn, hevents⟩

/-- The activities that are left of tasks at points. -/
def untrack (t : Tracking σ ε α ρ) (p : Pool σ ε ρ) : Pool σ ε (Activity σ α) where
  state := p.state
  tasks i := (p.tasks i).map t.rest

/-- A turn of a pool is a turn of its activities. -/
theorem untrack_turn (t : Tracking σ ε α ρ) (p : Pool σ ε ρ) (turn : Turn) :
    t.untrack (p.turn t.conduct turn) = (t.untrack p).turn plain.conduct turn := by
  have hupdate : ∀ (i : Nat) (point : Option ρ),
      (fun j => (Function.update p.tasks i point j).map t.rest) =
        Function.update (fun j => (p.tasks j).map t.rest) i (point.map t.rest) := by
    intro i point
    funext j
    by_cases h : j = i
    · subst h
      simp
    · simp [h]
  cases turn with
  | go i =>
      cases htask : p.tasks i with
      | none => simp [Pool.turn, untrack, htask]
      | some point =>
          cases hturn : (t.rest point).turn? p.state with
          | none => simp [Pool.turn, untrack, htask, conduct, hturn, plain]
          | some next =>
              obtain ⟨x, s⟩ := next
              have hrest := t.rest_next hturn
              simp [Pool.turn, untrack, htask, conduct, hturn, plain, Pool.gone, hupdate, hrest,
                Activity.afterTurn_eq hturn]
  | stop i =>
      cases htask : p.tasks i with
      | none => simp [Pool.turn, untrack, htask]
      | some point =>
          cases hstop : (t.rest point).stop? p.state with
          | none => simp [Pool.turn, untrack, htask, conduct, hstop, plain]
          | some s =>
              simp [Pool.turn, untrack, htask, conduct, hstop, plain, Pool.stopped, hupdate]

/-- **Trackings only look on**: under every schedule a pool of points runs as the pool of the
activities that are left at them. -/
theorem untrack_run (t : Tracking σ ε α ρ) (p : Pool σ ε ρ) (schedule : List Turn) :
    t.untrack (p.run t.conduct schedule) = (t.untrack p).run plain.conduct schedule := by
  induction schedule generalizing p with
  | nil => rfl
  | cons turn schedule ih => rw [Pool.run_cons, Pool.run_cons, ih, untrack_turn]

/-! ### Tasks of two kinds -/

variable {β υ : Type}

/-- Tasks of two kinds, each followed in its own way. -/
def sum (t : Tracking σ ε α ρ) (u : Tracking σ ε β υ) : Tracking σ ε (α ⊕ β) (ρ ⊕ υ) where
  rest
    | .inl point => (t.rest point).bind fun a => .done (.inl a)
    | .inr point => (u.rest point).bind fun b => .done (.inr b)
  next
    | .inl point, s => .inl (t.next point s)
    | .inr point, s => .inr (u.next point s)
  events
    | .inl point, s => t.events point s
    | .inr point, s => u.events point s
  stopEvents
    | .inl point => t.stopEvents point
    | .inr point => u.stopEvents point
  rest_next {point s x s'} h := by
    cases point with
    | inl point =>
        rw [Activity.turn?_bind_done, Option.map_eq_some_iff] at h
        obtain ⟨⟨y, s''⟩, hturn, heq⟩ := h
        obtain ⟨rfl, -⟩ := Prod.mk.inj heq
        rw [t.rest_next hturn]
    | inr point =>
        rw [Activity.turn?_bind_done, Option.map_eq_some_iff] at h
        obtain ⟨⟨y, s''⟩, hturn, heq⟩ := h
        obtain ⟨rfl, -⟩ := Prod.mk.inj heq
        rw [u.rest_next hturn]

variable {t : Tracking σ ε α ρ} {u : Tracking σ ε β υ}

/-- A task of the first kind goes on in its own way. -/
theorem go?_sum_inl {point : ρ} {s : σ} {next : (ρ ⊕ υ) × σ × List ε}
    (h : (t.sum u).conduct.go? (.inl point) s = some next) :
    ∃ point' rest, t.conduct.go? point s = some (point', rest) ∧ next = (.inl point', rest) := by
  obtain ⟨⟨x, s'⟩, hturn, rfl⟩ := Option.map_eq_some_iff.mp h
  simp only [sum, Activity.turn?_bind_done, Option.map_eq_some_iff] at hturn
  obtain ⟨⟨y, s''⟩, hturn, heq⟩ := hturn
  obtain ⟨rfl, rfl⟩ := Prod.mk.inj heq
  exact ⟨t.next point s, (s'', t.events point s), by simp only [conduct, hturn, Option.map_some],
    rfl⟩

/-- A task of the second kind goes on in its own way. -/
theorem go?_sum_inr {point : υ} {s : σ} {next : (ρ ⊕ υ) × σ × List ε}
    (h : (t.sum u).conduct.go? (.inr point) s = some next) :
    ∃ point' rest, u.conduct.go? point s = some (point', rest) ∧ next = (.inr point', rest) := by
  obtain ⟨⟨x, s'⟩, hturn, rfl⟩ := Option.map_eq_some_iff.mp h
  simp only [sum, Activity.turn?_bind_done, Option.map_eq_some_iff] at hturn
  obtain ⟨⟨y, s''⟩, hturn, heq⟩ := hturn
  obtain ⟨rfl, rfl⟩ := Prod.mk.inj heq
  exact ⟨u.next point s, (s'', u.events point s), by simp only [conduct, hturn, Option.map_some],
    rfl⟩

@[simp] theorem stop?_sum_inl (point : ρ) (s : σ) :
    (t.sum u).conduct.stop? (.inl point) s = t.conduct.stop? point s := by
  simp only [conduct, sum, Activity.stop?_bind_done]

@[simp] theorem stop?_sum_inr (point : υ) (s : σ) :
    (t.sum u).conduct.stop? (.inr point) s = u.conduct.stop? point s := by
  simp only [conduct, sum, Activity.stop?_bind_done]

end Tracking

/-! ## The tasks of a kind -/

namespace Pool

variable {τ υ : Type}

/-- The tasks of the first of two kinds. -/
def lefts (tasks : Nat → Option (τ ⊕ υ)) (i : Nat) : Option τ :=
  (tasks i).bind Sum.getLeft?

theorem lefts_eq_some_iff {tasks : Nat → Option (τ ⊕ υ)} {i : Nat} {task : τ} :
    lefts tasks i = some task ↔ tasks i = some (.inl task) := by
  rw [lefts, Option.bind_eq_some_iff]
  constructor
  · rintro ⟨task' | task', htask, heq⟩
    · rw [htask, Option.some.inj heq]
    · contradiction
  · exact fun h => ⟨_, h, rfl⟩

theorem lefts_update (tasks : Nat → Option (τ ⊕ υ)) (i : Nat) (task : Option (τ ⊕ υ)) :
    lefts (Function.update tasks i task) =
      Function.update (lefts tasks) i (task.bind Sum.getLeft?) := by
  funext j
  by_cases h : j = i
  · subst h
    simp [lefts]
  · simp [lefts, h]

/-- What becomes of a task of the second kind is nothing to the first. -/
theorem lefts_update_of_inr {tasks : Nat → Option (τ ⊕ υ)} {i : Nat} {task : υ}
    {next : Option (τ ⊕ υ)} (h : tasks i = some (.inr task))
    (hnext : next.bind Sum.getLeft? = none) :
    lefts (Function.update tasks i next) = lefts tasks := by
  rw [lefts_update, hnext, Function.update_eq_self_iff, lefts, h]
  rfl

end Pool

end AttrFederation
