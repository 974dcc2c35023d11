import AttrFederation.Cache.Region

/-!
# Runs of a region

A region is driven by requests, each made at an instant.  A history is a list of requests in the
order in which they came, and `run` is the region they lead to.  Nothing is assumed about the
instants: a clock that goes back is a history like any other.

`run_induction` is the rule by which what every request keeps holds after every history.
-/

namespace AttrFederation

/-- The last member of a kind is the new one or, if that is not of the kind, the one before. -/
theorem findRev?_concat {α : Type} (p : α → Bool) (xs : List α) (x : α) :
    (xs ++ [x]).findRev? p = if p x then some x else xs.findRev? p := by
  rw [List.findRev?_eq_find?_reverse, List.reverse_append, List.reverse_singleton,
    List.singleton_append, List.find?_cons, List.findRev?_eq_find?_reverse]
  cases p x <;> rfl

namespace Region

/-- What can be asked of a region. -/
inductive Request (V : Type) where
  | put (key : String) (value : V)
  | get (key : String)
  /-- To tell whether there is an entry. -/
  | contains (key : String)
  | remove (key : String)
  | clear
deriving DecidableEq, Repr

/-- Requests with their instants, the first one first. -/
abbrev History (V : Type) := List (Nat × Request V)

variable {V : Type} [Measured V]

def empty (settings : RegionSettings) : Region V := { settings }

def step (r : Region V) (now : Nat) : Request V → Region V
  | .put key value => r.put now key value
  | .get key => (r.get now key).2
  | .contains _ => r
  | .remove key => (r.remove key).2
  | .clear => r.clear

def run (r : Region V) (history : History V) : Region V :=
  history.foldl (fun r request => r.step request.1 request.2) r

@[simp] theorem run_nil (r : Region V) : r.run [] = r := rfl

@[simp] theorem run_cons (r : Region V) (now : Nat) (request : Request V) (rest : History V) :
    r.run ((now, request) :: rest) = (r.step now request).run rest := rfl

@[simp] theorem run_append (r : Region V) (before after : History V) :
    r.run (before ++ after) = (r.run before).run after :=
  List.foldl_append

/-- What the first region has and every request keeps, every history keeps. -/
theorem run_induction {P : Region V → Prop} (hstep : ∀ r now request, P r → P (r.step now request))
    {r : Region V} (h : P r) (history : History V) : P (r.run history) := by
  induction history generalizing r with
  | nil => exact h
  | cons request rest ih => exact ih (hstep r request.1 request.2 h)

end Region

end AttrFederation
