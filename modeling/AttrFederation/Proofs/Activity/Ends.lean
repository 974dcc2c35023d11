import AttrFederation.Proofs.Activity.Achieves
import AttrFederation.Proofs.Activity.Turn

/-!
# How an activity can end

`x.Ends R s a t` says that `x`, begun in `s`, can come to its end with the result `a` and the state
`t`, when before each of its turns the state changes within the relation `R`.  It is the partial
side of `Achieves`: an activity that waits for ever has no end.

* `ends_bind` — an end of a composed activity, by its parts;
* `Ends.keeps` — an activity that keeps to a relation ends in a related state;
* `ends_of_alone` — when it runs alone, an activity ends as it can end;
* `Returns` — what holds of every result, and with it `Keeps.bind_of_returns`;
* `Gate.keeps_readWhenIdle` — waiting for a flag changes nothing.
-/

namespace AttrFederation

namespace Activity

variable {σ α β : Type} {R : σ → σ → Prop} {s t : σ}

/-! ## Ends -/

/-- The activity can end with a result in a state, when the state changes within a relation before
each turn. -/
def Ends (R : σ → σ → Prop) : Activity σ α → σ → α → σ → Prop
  | done b, s, a, t => b = a ∧ s = t
  | step change next, s, a, t => ∃ s', R s s' ∧ (next s').Ends R (change s') a t
  | sleep _ _ next, s, a, t => ∃ s', R s s' ∧ next.Ends R s' a t
  | await ready _ next, s, a, t => ∃ s', R s s' ∧ ready s' = true ∧ next.Ends R s' a t

theorem ends_done {a b : α} : (done b : Activity σ α).Ends R s a t ↔ b = a ∧ s = t := Iff.rfl

theorem ends_bind {x : Activity σ α} {f : α → Activity σ β} {b : β} :
    (x.bind f).Ends R s b t ↔ ∃ a u, x.Ends R s a u ∧ (f a).Ends R u b t := by
  induction x generalizing s with
  | done a => exact ⟨fun h => ⟨a, s, ⟨rfl, rfl⟩, h⟩, by rintro ⟨_, _, ⟨rfl, rfl⟩, h⟩; exact h⟩
  | step change next ih => simp only [bind, Ends, ih]; grind
  | sleep millis abandon next ih => simp only [bind, Ends, ih]; grind
  | await ready abandon next ih => simp only [bind, Ends, ih]; grind

theorem ends_modifyGet {f : σ → β × σ} {b : β} :
    (modifyGet f).Ends R s b t ↔ ∃ s', R s s' ∧ (f s').1 = b ∧ (f s').2 = t :=
  Iff.rfl

theorem ends_modify {f : σ → σ} {u : Unit} :
    (modify f).Ends R s u t ↔ ∃ s', R s s' ∧ f s' = t := by
  simp [modify, Ends]

theorem ends_read {f : σ → β} {b : β} :
    (read f).Ends R s b t ↔ R s t ∧ f t = b := by
  constructor
  · rintro ⟨s', hs, rfl, rfl⟩
    exact ⟨hs, rfl⟩
  · rintro ⟨hs, rfl⟩
    exact ⟨t, hs, rfl, rfl⟩

/-- **What an activity keeps to** relates the state at its start to the state at its end, if what
happens meanwhile keeps to it as well. -/
theorem Ends.keeps {S : σ → σ → Prop} (hrefl : ∀ s, S s s)
    (htrans : ∀ {s₁ s₂ s₃}, S s₁ s₂ → S s₂ s₃ → S s₁ s₃) (hle : ∀ s s', R s s' → S s s')
    {x : Activity σ α} {a : α} (hx : x.Keeps S) (h : x.Ends R s a t) : S s t := by
  induction x generalizing s with
  | done b => exact h.2 ▸ hrefl s
  | step change next ih =>
      obtain ⟨s', hs, hnext⟩ := h
      exact htrans (hle _ _ hs) (htrans (hx s').1 (ih s' (hx s').2 hnext))
  | sleep millis abandon next ih =>
      obtain ⟨s', hs, hnext⟩ := h
      exact htrans (hle _ _ hs) (ih hx.2 hnext)
  | await ready abandon next ih =>
      obtain ⟨s', hs, -, hnext⟩ := h
      exact htrans (hle _ _ hs) (ih hx.2 hnext)

/-- **Running alone**, an activity ends as it can end. -/
theorem ends_of_alone (hrefl : ∀ s, R s s) {x : Activity σ α} {a : α} {time time' : Nat}
    (h : x.alone s time = some (a, t, time')) : x.Ends R s a t := by
  induction x generalizing s time with
  | done b =>
      obtain ⟨rfl, rfl, -⟩ : b = a ∧ s = t ∧ time = time' := by simpa using h
      exact ⟨rfl, rfl⟩
  | step change next ih => exact ⟨s, hrefl s, ih s h⟩
  | sleep millis abandon next ih => exact ⟨s, hrefl s, ih h⟩
  | await ready abandon next ih =>
      cases hready : ready s with
      | true => exact ⟨s, hrefl s, hready, ih (by simpa [Activity.alone, hready] using h)⟩
      | false => simp [Activity.alone, hready] at h

/-! ## Results -/

/-- Whatever the activity ends with has a property. -/
def Returns (Q : α → Prop) : Activity σ α → Prop
  | done a => Q a
  | step _ next => ∀ s, (next s).Returns Q
  | sleep _ _ next | await _ _ next => next.Returns Q

theorem Ends.of_returns {Q : α → Prop} {x : Activity σ α} {a : α} (h : x.Ends R s a t)
    (hx : x.Returns Q) : Q a := by
  induction x generalizing s with
  | done b => exact h.1 ▸ hx
  | step change next ih =>
      obtain ⟨s', -, hnext⟩ := h
      exact ih s' hnext (hx s')
  | sleep millis abandon next ih =>
      obtain ⟨s', -, hnext⟩ := h
      exact ih hnext hx
  | await ready abandon next ih =>
      obtain ⟨s', -, -, hnext⟩ := h
      exact ih hnext hx

/-- What follows an activity need keep to a relation only after what that can end with. -/
theorem Keeps.bind_of_returns {Q : α → Prop} {x : Activity σ α} {f : α → Activity σ β}
    (hx : x.Keeps R) (hreturns : x.Returns Q) (hf : ∀ a, Q a → (f a).Keeps R) :
    (x.bind f).Keeps R := by
  induction x with
  | done a => exact hf a hreturns
  | step change next ih => exact fun s => ⟨(hx s).1, ih s (hx s).2 (hreturns s)⟩
  | sleep _ _ _ ih | await _ _ _ ih => exact ⟨hx.1, ih hx.2 hreturns⟩

end Activity

/-! ## Gates -/

/-- A read that waits for a flag does what the read does. -/
theorem Gate.keeps_readWhenIdle {σ β : Type} {R : σ → σ → Prop} (hrefl : ∀ s, R s s)
    {flag : Field σ Bool} {poll timeout : Nat} {read : σ → β × σ} (hread : ∀ s, R s (read s).2) :
    (readWhenIdle flag poll timeout read).Keeps R := by
  have hreadOr : ∀ otherwise : Unit → Activity σ β, (otherwise ()).Keeps R →
      (readOr flag read otherwise).Keeps R := by
    intro otherwise hotherwise
    refine Activity.Keeps.bind (Activity.keeps_modifyGet (rel_tryRead hrefl hread flag))
      fun result => ?_
    cases result with
    | some b => trivial
    | none => exact hotherwise
  have hpolling : ∀ polls waited,
      (readPolling flag (lookInterval poll) timeout read polls waited).Keeps R := by
    intro polls
    induction polls with
    | zero => exact fun _ => hreadOr _ (Activity.keeps_modifyGet hread)
    | succ polls ih =>
        intro waited
        refine hreadOr _ ?_
        split
        · exact Activity.keeps_modifyGet hread
        · exact ⟨hrefl, ih _⟩
  exact hpolling _ _

end AttrFederation
