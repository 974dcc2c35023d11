import AttrFederation.Proofs.Activity.Achieves

/-!
# What an activity achieves, and when

`x.AchievesAt R s time P` says that `x`, begun in `s` at a time, comes to its end whatever else
happens meanwhile, and that `P` holds of its result, of the state and of the time then.  Time passes
only while the activity waits for it, as long as `waitTime` says.  Before a turn at a time the state
may change within the relation `R` for that time, so that `R` can say how the state depends on the
clock.

* `achieves_iff_achievesAt` — with nothing said about time, this is `Achieves`;
* `achievesAt_eq_iff_alone` — when nothing else happens, it is what the activity does alone;
* `achievesAt_bind` — what a composed activity achieves, by its parts;
* `AchievesAt.exists_end` — what is achieved, is achieved in some way.
-/

namespace AttrFederation

namespace Activity

variable {σ α β : Type} {R : Nat → σ → σ → Prop} {s : σ} {time : Nat}

/-- The activity comes to its end, and the property holds of its result, the state and the time
then, however the state changes within a relation before each turn. -/
def AchievesAt (R : Nat → σ → σ → Prop) : Activity σ α → σ → Nat → (α → σ → Nat → Prop) → Prop
  | done a, s, time, P => P a s time
  | step change next, s, time, P =>
    ∀ s', R time s s' → (next s').AchievesAt R (change s') time P
  | sleep millis _ next, s, time, P =>
    ∀ s', R (time + waitTime millis) s s' → next.AchievesAt R s' (time + waitTime millis) P
  | await ready _ next, s, time, P =>
    ∀ s', R time s s' → ready s' = true ∧ next.AchievesAt R s' time P

/-! ## Properties -/

theorem AchievesAt.mono {x : Activity σ α} {P Q : α → σ → Nat → Prop}
    (h : x.AchievesAt R s time P) (hPQ : ∀ a t time', P a t time' → Q a t time') :
    x.AchievesAt R s time Q := by
  induction x generalizing s time with
  | done a => exact hPQ a s time h
  | step change next ih => exact fun s' hs => ih s' (h s' hs)
  | sleep millis abandon next ih => exact fun s' hs => ih (h s' hs)
  | await ready abandon next ih => exact fun s' hs => ⟨(h s' hs).1, ih (h s' hs).2⟩

/-- Without a word about time, it is what the activity achieves at any time. -/
theorem achieves_iff_achievesAt {R : σ → σ → Prop} {x : Activity σ α} {P : α → σ → Prop}
    (time : Nat) :
    x.Achieves R s P ↔ x.AchievesAt (fun _ => R) s time fun a t _ => P a t := by
  induction x generalizing s time with
  | done a => rfl
  | step change next ih => exact forall_congr' fun s' => imp_congr_right fun _ => ih s' _
  | sleep millis abandon next ih => exact forall_congr' fun s' => imp_congr_right fun _ => ih _
  | await ready abandon next ih =>
      exact forall_congr' fun s' => imp_congr_right fun _ => and_congr_right fun _ => ih _

/-- **When nothing else happens**, an activity achieves what it does alone. -/
theorem achievesAt_eq_iff_alone {x : Activity σ α} {P : α → σ → Nat → Prop} :
    x.AchievesAt (fun _ s s' => s' = s) s time P ↔
      ∃ a t time', x.alone s time = some (a, t, time') ∧ P a t time' := by
  induction x generalizing s time with
  | done a =>
      constructor
      · exact fun h => ⟨a, s, time, rfl, h⟩
      · rintro ⟨_, _, _, ⟨rfl, rfl, rfl⟩, h⟩
        exact h
  | step change next ih => simp only [AchievesAt, alone, forall_eq, ih]
  | sleep millis abandon next ih => simp only [AchievesAt, alone, forall_eq, ih]
  | await ready abandon next ih =>
      simp only [AchievesAt, alone, forall_eq, ih]
      cases ready s <;> simp

/-- If others can always leave a state to go on from, there is an end, with what is achieved. -/
theorem AchievesAt.exists_end (hserial : ∀ time s, ∃ s', R time s s') {x : Activity σ α}
    {P : α → σ → Nat → Prop} (h : x.AchievesAt R s time P) : ∃ a t time', P a t time' := by
  induction x generalizing s time with
  | done a => exact ⟨a, s, time, h⟩
  | step change next ih =>
      obtain ⟨s', hs⟩ := hserial time s
      exact ih s' (h s' hs)
  | sleep millis abandon next ih =>
      obtain ⟨s', hs⟩ := hserial (time + waitTime millis) s
      exact ih (h s' hs)
  | await ready abandon next ih =>
      obtain ⟨s', hs⟩ := hserial time s
      exact ih (h s' hs).2

theorem AchievesAt.and {x : Activity σ α} {P Q : α → σ → Nat → Prop}
    (hP : x.AchievesAt R s time P) (hQ : x.AchievesAt R s time Q) :
    x.AchievesAt R s time fun a t time' => P a t time' ∧ Q a t time' := by
  induction x generalizing s time with
  | done a => exact ⟨hP, hQ⟩
  | step change next ih => exact fun s' hs => ih s' (hP s' hs) (hQ s' hs)
  | sleep millis abandon next ih => exact fun s' hs => ih (hP s' hs) (hQ s' hs)
  | await ready abandon next ih =>
      exact fun s' hs => ⟨(hP s' hs).1, ih (hP s' hs).2 (hQ s' hs).2⟩

/-! ## Composition -/

theorem achievesAt_bind {x : Activity σ α} {f : α → Activity σ β} {P : β → σ → Nat → Prop} :
    (x.bind f).AchievesAt R s time P ↔
      x.AchievesAt R s time fun a t time' => (f a).AchievesAt R t time' P := by
  induction x generalizing s time with
  | done a => rfl
  | step change next ih => exact forall_congr' fun s' => imp_congr_right fun _ => ih s'
  | sleep millis abandon next ih => exact forall_congr' fun s' => imp_congr_right fun _ => ih
  | await ready abandon next ih =>
      exact forall_congr' fun s' => imp_congr_right fun _ => and_congr_right fun _ => ih

theorem achievesAt_modifyGet {f : σ → β × σ} {P : β → σ → Nat → Prop} :
    (modifyGet f).AchievesAt R s time P ↔ ∀ s', R time s s' → P (f s').1 (f s').2 time :=
  Iff.rfl

end Activity

end AttrFederation
