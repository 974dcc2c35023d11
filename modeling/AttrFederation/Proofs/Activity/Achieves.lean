import AttrFederation.Activity.Gate
import AttrFederation.Activity.Lock
import AttrFederation.Activity.Retry
import AttrFederation.Source.Client

/-!
# What an activity achieves

`x.Achieves R s P` says that `x`, begun in `s`, comes to its end whatever else happens meanwhile,
and that `P` holds of its result and of the state then.  Before each of its turns the state may
change within the relation `R`; equality for `R` leaves the activity alone.  It is total: an
activity that could wait for ever achieves nothing.

* `achieves_bind`, `achieves_guarded` — what a composed activity achieves, by its parts;
* `Achieves.bindOk`, `RetryPolicy.achieves_attempts_succ` — going on after success, and after
  failure;
* `Lock.achieves_holding`, `Gate.achieves_refreshing`, `Gate.achieves_readWhenIdle` — under a lock
  that is free, behind a flag, and after waiting for one;
* `Achieves.alone` — what is achieved, the activity does when it runs alone.
-/

namespace AttrFederation

namespace Activity

variable {σ α β ε : Type} {R R' : σ → σ → Prop} {s : σ}

/-- The activity comes to its end, and the property holds of its result and of the state then,
however the state changes within a relation before each turn. -/
def Achieves (R : σ → σ → Prop) : Activity σ α → σ → (α → σ → Prop) → Prop
  | done a, s, P => P a s
  | step change next, s, P => ∀ s', R s s' → (next s').Achieves R (change s') P
  | sleep _ _ next, s, P => ∀ s', R s s' → next.Achieves R s' P
  | await ready _ next, s, P => ∀ s', R s s' → ready s' = true ∧ next.Achieves R s' P

/-! ## Properties -/

theorem Achieves.mono {x : Activity σ α} {P Q : α → σ → Prop} (h : x.Achieves R s P)
    (hPQ : ∀ a t, P a t → Q a t) : x.Achieves R s Q := by
  induction x generalizing s with
  | done a => exact hPQ a s h
  | step change next ih => exact fun s' hs => ih s' (h s' hs)
  | sleep millis abandon next ih => exact fun s' hs => ih (h s' hs)
  | await ready abandon next ih => exact fun s' hs => ⟨(h s' hs).1, ih (h s' hs).2⟩

/-- What is achieved amid many changes is achieved amid fewer. -/
theorem Achieves.of_le {x : Activity σ α} {P : α → σ → Prop} (h : x.Achieves R s P)
    (hle : ∀ s s', R' s s' → R s s') : x.Achieves R' s P := by
  induction x generalizing s with
  | done a => exact h
  | step change next ih => exact fun s' hs => ih s' (h s' (hle s s' hs))
  | sleep millis abandon next ih => exact fun s' hs => ih (h s' (hle s s' hs))
  | await ready abandon next ih =>
      exact fun s' hs => ⟨(h s' (hle s s' hs)).1, ih (h s' (hle s s' hs)).2⟩

/-- **Running alone**: what an activity achieves, it does when nothing else happens. -/
theorem Achieves.alone (hrefl : ∀ s, R s s) {x : Activity σ α} {P : α → σ → Prop}
    (h : x.Achieves R s P) (time : Nat) :
    ∃ a t time', x.alone s time = some (a, t, time') ∧ P a t := by
  induction x generalizing s time with
  | done a => exact ⟨a, s, time, rfl, h⟩
  | step change next ih => exact ih s (h s (hrefl s)) time
  | sleep millis abandon next ih => exact ih (h s (hrefl s)) _
  | await ready abandon next ih =>
      obtain ⟨hready, hnext⟩ := h s (hrefl s)
      obtain ⟨a, t, time', halone, hP⟩ := ih hnext time
      refine ⟨a, t, time', ?_, hP⟩
      simp only [Activity.alone, hready, if_true, halone]

/-- An outcome that running alone has, has what is achieved. -/
theorem Achieves.of_alone (hrefl : ∀ s, R s s) {x : Activity σ α} {P : α → σ → Prop}
    (h : x.Achieves R s P) {time time' : Nat} {a : α} {t : σ}
    (halone : x.alone s time = some (a, t, time')) : P a t := by
  obtain ⟨b, u, time'', heq, hP⟩ := h.alone hrefl time
  rw [halone, Option.some.injEq] at heq
  simp only [Prod.mk.injEq] at heq
  rw [heq.1, heq.2.1]
  exact hP

/-! ## Composition -/

theorem achieves_bind {x : Activity σ α} {f : α → Activity σ β} {P : β → σ → Prop} :
    (x.bind f).Achieves R s P ↔ x.Achieves R s fun a t => (f a).Achieves R t P := by
  induction x generalizing s with
  | done a => rfl
  | step change next ih => exact forall_congr' fun s' => imp_congr_right fun _ => ih s'
  | sleep millis abandon next ih => exact forall_congr' fun s' => imp_congr_right fun _ => ih
  | await ready abandon next ih =>
      exact forall_congr' fun s' => imp_congr_right fun _ => and_congr_right fun _ => ih

/-- A clean-up comes after the last turn. -/
theorem achieves_guarded {x : Activity σ α} {cleanUp : σ → σ} {P : α → σ → Prop} :
    (x.guarded cleanUp).Achieves R s P ↔
      x.Achieves R s fun a t => ∀ t', R t t' → P a (cleanUp t') := by
  induction x generalizing s with
  | done a => rfl
  | step change next ih => exact forall_congr' fun s' => imp_congr_right fun _ => ih s'
  | sleep millis abandon next ih => exact forall_congr' fun s' => imp_congr_right fun _ => ih
  | await ready abandon next ih =>
      exact forall_congr' fun s' => imp_congr_right fun _ => and_congr_right fun _ => ih

theorem achieves_modifyGet {f : σ → β × σ} {P : β → σ → Prop} :
    (modifyGet f).Achieves R s P ↔ ∀ s', R s s' → P (f s').1 (f s').2 :=
  Iff.rfl

/-- After success the second activity follows; a failure is the end. -/
theorem Achieves.bindOk {x : Activity σ (Except ε α)} {f : α → Activity σ (Except ε β)}
    {P : Except ε β → σ → Prop} {Q : Except ε α → σ → Prop} (h : x.Achieves R s Q)
    (hok : ∀ a t, Q (.ok a) t → (f a).Achieves R t P)
    (herror : ∀ e t, Q (.error e) t → P (.error e) t) : (x.bindOk f).Achieves R s P := by
  refine achieves_bind.mpr (h.mono fun outcome t hQ => ?_)
  cases outcome with
  | ok a => exact hok a t hQ
  | error e => exact herror e t hQ

end Activity

/-! ## Retries -/

/-- With one more retry, a failure that may pass is followed by a pause and the attempts left. -/
theorem RetryPolicy.achieves_attempts_succ {σ α : Type} {R : σ → σ → Prop} {interval retries : Nat}
    {operation : Activity σ (Except SourceError α)} {s : σ}
    {P : Except SourceError α → σ → Prop} :
    (attempts interval operation (retries + 1)).Achieves R s P ↔
      operation.Achieves R s fun outcome t =>
        match outcome with
        | .ok a => P (.ok a) t
        | .error e =>
          if e.retryable then ∀ t', R t t' → (attempts interval operation retries).Achieves R t' P
          else P (.error e) t := by
  refine Activity.achieves_bind.trans (iff_of_eq (congrArg _ ?_))
  funext outcome t
  cases outcome with
  | ok a => rfl
  | error e => cases h : e.retryable <;> simp [h, Activity.Achieves]

/-! ## Locks and gates -/

/-- Under a lock that is free, an activity gets to run, and gives the lock back at its end. -/
theorem Lock.achieves_holding {σ α : Type} {R : σ → σ → Prop} {field : Field σ Lock}
    {body : Activity σ α} {s : σ} {P : α → σ → Prop}
    (hlock : ∀ s s', R s s' → field.get s' = field.get s) (hfree : (field.get s).queue = [])
    (hbody : ∀ s' s'', R s s' → R (field.modify join s') s'' →
      body.Achieves R s'' fun a t =>
        ∀ t', R t t' → ∀ ticket, P a (field.modify (leave · ticket) t')) :
    (holding field body).Achieves R s P := by
  intro s' hs' s'' hs''
  have hjoined : field.get s'' = join (field.get s) := by
    rw [hlock _ _ hs'', Field.modify, field.get_set, hlock _ _ hs']
  refine ⟨?_, ?_⟩
  · simp [hjoined, heldBy, join, hfree, hlock _ _ hs']
  · refine Activity.achieves_guarded.mpr ((hbody s' s'' hs' hs'').mono fun a t h t' ht => ?_)
    exact h t' ht _

/-- Behind a flag, an activity begins after the purge, and lowers the flag at its end. -/
theorem Gate.achieves_refreshing {σ α : Type} {R : σ → σ → Prop} {flag : Field σ Bool}
    {purge : σ → σ} {body : Activity σ α} {s : σ} {P : α → σ → Prop} :
    (refreshing flag purge body).Achieves R s P ↔
      ∀ s', R s s' → body.Achieves R (raise flag purge s') fun a t =>
        ∀ t', R t t' → P a (flag.set false t') :=
  forall_congr' fun _ => imp_congr_right fun _ => Activity.achieves_guarded

/-- A read, or something else while the flag is up. -/
theorem Gate.achieves_readOr {σ β : Type} {R : σ → σ → Prop} {flag : Field σ Bool}
    {read : σ → β × σ} {otherwise : Unit → Activity σ β} {s : σ} {P : β → σ → Prop}
    (hread : ∀ s', R s s' → P (read s').1 (read s').2)
    (hotherwise : ∀ s', R s s' → (otherwise ()).Achieves R s' P) :
    (readOr flag read otherwise).Achieves R s P := by
  refine Activity.achieves_bind.mpr (Activity.achieves_modifyGet.mpr fun s' hs' => ?_)
  unfold tryRead
  cases flag.get s' with
  | false => exact hread s' hs'
  | true => exact hotherwise s' hs'

/-- A read that waits for the flag to be down takes place in the end. -/
theorem Gate.achieves_readWhenIdle {σ β : Type} {R : σ → σ → Prop}
    (htrans : ∀ {s₁ s₂ s₃}, R s₁ s₂ → R s₂ s₃ → R s₁ s₃) {flag : Field σ Bool}
    {poll timeout : Nat} {read : σ → β × σ} {s : σ} {P : β → σ → Prop}
    (hread : ∀ s', R s s' → P (read s').1 (read s').2) :
    (readWhenIdle flag poll timeout read).Achieves R s P := by
  have hpolling : ∀ polls waited s, (∀ s', R s s' → P (read s').1 (read s').2) →
      (readPolling flag (lookInterval poll) timeout read polls waited).Achieves R s P := by
    intro polls
    induction polls with
    | zero =>
        intro waited s hread
        exact achieves_readOr hread fun s' hs' =>
          Activity.achieves_modifyGet.mpr fun s'' hs'' => hread s'' (htrans hs' hs'')
    | succ polls ih =>
        intro waited s hread
        refine achieves_readOr hread fun s' hs' => ?_
        split
        · exact fun s'' hs'' => hread s'' (htrans hs' hs'')
        · exact fun s'' hs'' => ih _ s'' fun s₃ hs₃ => hread s₃ (htrans hs' (htrans hs'' hs₃))
  exact hpolling _ _ s hread

end AttrFederation
