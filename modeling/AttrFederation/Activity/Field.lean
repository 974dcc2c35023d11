/-!
# Parts of a state

A field is a part of a larger state that can be read and replaced by itself.
-/

namespace AttrFederation

/-- A part of a state. -/
structure Field (σ α : Type) where
  get : σ → α
  /-- The state with another value of the part. -/
  set : α → σ → σ
  /-- What is put in comes out. -/
  get_set : ∀ a s, get (set a s) = a := by intros; rfl
  /-- The last value put in counts. -/
  set_set : ∀ a b s, set a (set b s) = set a s := by intros; rfl
  /-- Putting in what is there changes nothing. -/
  set_get : ∀ s, set (get s) s = s := by intros; rfl

namespace Field

variable {σ α β : Type}

/-- The state with a function applied to the part. -/
def modify (field : Field σ α) (f : α → α) (s : σ) : σ :=
  field.set (f (field.get s)) s

/-- The whole state as a part of itself. -/
def whole : Field σ σ where
  get := id
  set a _ := a

/-- A part of a part. -/
def comp (outer : Field σ α) (inner : Field α β) : Field σ β where
  get s := inner.get (outer.get s)
  set b s := outer.set (inner.set b (outer.get s)) s
  get_set b s := by rw [outer.get_set, inner.get_set]
  set_set a b s := by rw [outer.get_set, outer.set_set, inner.set_set]
  set_get s := by rw [inner.set_get, outer.set_get]

end Field

end AttrFederation
