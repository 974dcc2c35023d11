/-!
# Associations

A finite map from texts, as a list of pairs in the order in which the keys first came.  Its view is
`get?`; each operation has one equation through it.
-/

namespace AttrFederation

/-- A finite map from texts. -/
structure Assoc (β : Type) where
  /-- The pairs; of two with one key the first counts. -/
  entries : List (String × β)
deriving Repr, DecidableEq

namespace Assoc

variable {β : Type}

def empty : Assoc β := ⟨[]⟩

instance : EmptyCollection (Assoc β) := ⟨empty⟩

instance : Inhabited (Assoc β) := ⟨empty⟩

def get? (m : Assoc β) (key : String) : Option β :=
  m.entries.lookup key

def contains (m : Assoc β) (key : String) : Bool :=
  (m.get? key).isSome

def size (m : Assoc β) : Nat :=
  m.entries.length

def keys (m : Assoc β) : List String :=
  m.entries.map Prod.fst

/-- The value of the first pair with a key, replaced; without one, a new pair at the end. -/
def setEntry (key : String) (value : β) : List (String × β) → List (String × β)
  | [] => [(key, value)]
  | entry :: rest =>
    if entry.1 = key then (key, value) :: rest else entry :: setEntry key value rest

/-- The map with a value for a key. -/
def set (m : Assoc β) (key : String) (value : β) : Assoc β :=
  ⟨setEntry key value m.entries⟩

def erase (m : Assoc β) (key : String) : Assoc β :=
  ⟨m.entries.filter fun entry => entry.1 ≠ key⟩

/-- A map from pairs, the last one with a key counting. -/
def ofList (pairs : List (String × β)) : Assoc β :=
  pairs.foldl (fun m pair => m.set pair.1 pair.2) empty

/-! ## The view -/

@[simp] theorem get?_empty (key : String) : (empty : Assoc β).get? key = none := rfl

theorem lookup_cons_eq (k key : String) (v : β) (rest : List (String × β)) :
    ((k, v) :: rest).lookup key = if key = k then some v else rest.lookup key := by
  by_cases h : key = k
  · rw [if_pos h, h, List.lookup_cons_self]
  · rw [if_neg h, List.lookup_cons, beq_false_of_ne h]

theorem lookup_setEntry (key other : String) (value : β) (entries : List (String × β)) :
    (setEntry key value entries).lookup other
      = if other = key then some value else entries.lookup other := by
  induction entries with
  | nil => simp [setEntry, lookup_cons_eq]
  | cons entry rest ih =>
    obtain ⟨k, v⟩ := entry
    by_cases hk : k = key
    · subst hk
      by_cases ho : other = k <;> simp [setEntry, lookup_cons_eq, ho]
    · by_cases ho : other = key
      · subst ho
        simp [setEntry, lookup_cons_eq, hk, Ne.symm hk, ih]
      · simp [setEntry, lookup_cons_eq, hk, ih, ho]

theorem get?_set (m : Assoc β) (key other : String) (value : β) :
    (m.set key value).get? other = if other = key then some value else m.get? other :=
  lookup_setEntry key other value m.entries

@[simp] theorem get?_set_self (m : Assoc β) (key : String) (value : β) :
    (m.set key value).get? key = some value := by
  simp [get?_set]

theorem lookup_filter_ne (key other : String) (entries : List (String × β)) :
    (entries.filter fun entry => entry.1 ≠ key).lookup other
      = if other = key then none else entries.lookup other := by
  induction entries with
  | nil => simp
  | cons entry rest ih =>
    obtain ⟨k, v⟩ := entry
    by_cases hk : k = key
    · subst hk
      rw [List.filter_cons_of_neg (by simp), ih]
      by_cases ho : other = k <;> simp [lookup_cons_eq, ho]
    · rw [List.filter_cons_of_pos (by simpa using hk), lookup_cons_eq, lookup_cons_eq, ih]
      by_cases ho : other = key
      · subst ho
        simp [Ne.symm hk]
      · simp [ho]

theorem get?_erase (m : Assoc β) (key other : String) :
    (m.erase key).get? other = if other = key then none else m.get? other :=
  lookup_filter_ne key other m.entries

end Assoc

end AttrFederation
