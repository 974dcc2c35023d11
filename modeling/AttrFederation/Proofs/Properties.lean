import AttrFederation.Proofs.Text
import AttrFederation.Properties

/-!
# What properties state

A property states a value if it has an entry that is not blank; the value is the entry without the
blanks around it (`States`).  The value is all that `get?` shows, and it is that of the entry alone
(`get?_congr`, `get?_restrict`).
-/

namespace AttrFederation.Properties

/-- The entry of a name is not blank, and it is the value without the blanks around it. -/
def States (props : Properties) (key value : String) : Prop :=
  ∃ raw, props.entries.lookup key = some raw ∧ Text.isBlankText raw = false ∧
    Text.trim raw = value

theorem get?_eq_some_iff {props : Properties} {key value : String} :
    props.get? key = some value ↔ props.States key value := by
  unfold get? States
  rw [Option.bind_eq_some_iff]
  refine exists_congr fun raw => and_congr_right fun _ => ?_
  dsimp only
  rw [← Bool.not_eq_true, ← Text.trim_eq_empty_iff, ← String.isEmpty_iff]
  split <;> simp [*]

theorem get?_eq_none_iff {props : Properties} {key : String} :
    props.get? key = none ↔ ¬ ∃ value, props.States key value := by
  simp only [← get?_eq_some_iff, Option.eq_none_iff_forall_ne_some, not_exists, Ne]

theorem trim_of_get?_eq_some {props : Properties} {key value : String}
    (h : props.get? key = some value) : Text.trim value = value := by
  obtain ⟨raw, -, -, rfl⟩ := get?_eq_some_iff.mp h
  exact Text.trim_trim raw

theorem get?_congr {props other : Properties} {key : String}
    (h : other.entries.lookup key = props.entries.lookup key) :
    other.get? key = props.get? key := by
  rw [get?, get?, h]

/-- Entries that are left out do not count, and the others count as before. -/
theorem get?_restrict (props : Properties) (keep : String → Bool) (key : String) :
    (props.restrict keep).get? key = if keep key then props.get? key else none := by
  obtain ⟨entries⟩ := props
  have hlookup : (entries.filter fun entry => keep entry.1).lookup key =
      if keep key then entries.lookup key else none := by
    induction entries with
    | nil => simp
    | cons entry rest ih =>
        obtain ⟨name, raw⟩ := entry
        by_cases hname : key = name
        · subst hname
          cases hkeep : keep key <;> simp [hkeep, ih]
        · have hne : (key == name) = false := beq_false_of_ne hname
          cases hkeep : keep name <;> simp [hkeep, List.lookup_cons, hne, ih]
  unfold get? restrict
  dsimp only
  rw [hlookup]
  split <;> rfl

end AttrFederation.Properties
