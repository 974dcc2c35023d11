import AttrFederation.Proofs.Directory.Normalized

/-!
# What is read of an entry

Of an entry with many values only some are read: the first value of each key attribute, and the
first value or all values of a pull attribute.  A value that is read becomes a text
(`Datum.textAs`), unless it is binary data under the name of the security identifier that is not
the binary form of one (`Datum.Undecodable`).

* `Normalized.eq_textIn?_of_keyValue`, `Normalized.eq_valueIn_of_pulledValue` — what key attributes
  and pull attributes come to when they can be read;
* `Normalized.exists_fault_iff` — an entry cannot be normalized exactly if a value that is read of
  it cannot be decoded.
-/

namespace AttrFederation

/-! ## Results and faults -/

section Results

variable {ε α β : Type}

/-- One thing after another fails if the first fails or, after it, the second. -/
theorem exists_fault_bind_iff {x : Except ε α} {f : α → Except ε β} :
    (∃ fault, (x >>= f) = .error fault) ↔
      (∃ fault, x = .error fault) ∨ ∃ a, x = .ok a ∧ ∃ fault, f a = .error fault := by
  cases x with
  | error fault => simp [bind, Except.bind]
  | ok a => simp [bind, Except.bind]

theorem exists_fault_map_iff {x : Except ε α} {f : α → β} :
    (∃ fault, x.map f = .error fault) ↔ ∃ fault, x = .error fault := by
  cases x <;> simp [Except.map]

/-- A list cannot be read exactly if one of its members cannot. -/
theorem exists_fault_mapM_iff {f : α → Except ε β} {xs : List α} :
    (∃ fault, xs.mapM f = .error fault) ↔ ∃ x ∈ xs, ∃ fault, f x = .error fault := by
  induction xs with
  | nil => simp [pure, Except.pure]
  | cons x xs ih =>
      rw [List.mapM_cons, exists_fault_bind_iff]
      simp only [List.mem_cons, exists_eq_or_imp, ← ih]
      cases f x with
      | error fault => simp
      | ok y => cases xs.mapM f <;> simp [bind, Except.bind, pure, Except.pure]

end Results

/-! ## Values -/

namespace Datum

/-- The value is binary data under the name of the security identifier, and not one in its binary
form. -/
def Undecodable (name : String) : Datum → Prop
  | text _ => False
  | binary bytes =>
    Text.asciiEq name SecurityId.attributeName = true ∧ (SecurityId.ofBytes bytes).isOk = false

instance (name : String) : (d : Datum) → Decidable (d.Undecodable name)
  | text _ => isFalse not_false
  | binary bytes => inferInstanceAs
      (Decidable (Text.asciiEq name SecurityId.attributeName = true ∧
        (SecurityId.ofBytes bytes).isOk = false))

/-- The text of a value under a name: the text form of a security identifier, and otherwise the
value's own text. -/
def textAs (name : String) : Datum → String
  | text value => value
  | binary bytes =>
    match SecurityId.ofBytes bytes with
    | .ok sid =>
      if Text.asciiEq name SecurityId.attributeName then sid.toText else Text.lossy bytes
    | .error _ => Text.lossy bytes

end Datum

/-- The values that are read of a key attribute. -/
def KeyAttribute.readFrom (key : KeyAttribute) (e : Entry) : List Datum :=
  (e.first? key.name).toList

/-- The values that are read of a pull attribute. -/
def PullAttribute.readFrom (pull : PullAttribute) (e : Entry) : List Datum :=
  match pull.cardinality with
  | .multi => e.values pull.name
  | .single => (e.first? pull.name).toList

/-- A value that is read of a key attribute or a pull attribute cannot be decoded. -/
def ObjectClass.Unreadable (c : ObjectClass) (e : Entry) : Prop :=
  (∃ key ∈ c.keys, ∃ d ∈ key.readFrom e, d.Undecodable key.name) ∨
    ∃ pull ∈ c.pulls.attributes, ∃ d ∈ pull.readFrom e, d.Undecodable pull.name

instance (c : ObjectClass) (e : Entry) : Decidable (c.Unreadable e) :=
  inferInstanceAs (Decidable (_ ∨ _))

/-- The normalized text of a key attribute, if the entry has it. -/
def KeyAttribute.textIn? (key : KeyAttribute) (e : Entry) : Option String :=
  (e.first? key.name).map fun d => key.normalize (d.textAs key.name)

/-- The value of a pull attribute: all texts, or the first one, or null without any. -/
def PullAttribute.valueIn (pull : PullAttribute) (e : Entry) : AttributeValue :=
  match pull.cardinality with
  | .multi => .multi ((e.values pull.name).map (Datum.textAs pull.name))
  | .single =>
    match e.first? pull.name with
    | some d => .single (d.textAs pull.name)
    | none => .null

namespace Normalized

variable {profile : String} {c : ObjectClass} {kind : ObjectKind} {e : Entry}

/-- **A value that can be decoded** is read as its text. -/
theorem valueText_eq {name : String} {d : Datum} (h : ¬ d.Undecodable name) :
    valueText name d = .ok (d.textAs name) := by
  cases d with
  | text value => rfl
  | binary bytes =>
      simp only [Datum.Undecodable, not_and] at h
      simp only [valueText, Datum.textAs, Datum.toText]
      cases hname : Text.asciiEq name SecurityId.attributeName with
      | false => cases SecurityId.ofBytes bytes <;> rfl
      | true =>
          cases hbytes : SecurityId.ofBytes bytes with
          | ok sid => rfl
          | error fault => exact absurd (congrArg Except.isOk hbytes) (h hname)

/-- **A value that cannot be decoded** cannot be read. -/
theorem exists_fault_of_undecodable {name : String} {d : Datum} (h : d.Undecodable name) :
    ∃ fault, valueText name d = .error fault := by
  cases d with
  | text value => exact h.elim
  | binary bytes =>
      obtain ⟨hname, hbytes⟩ := h
      simp only [valueText, hname, if_true]
      cases hresult : SecurityId.ofBytes bytes with
      | ok sid =>
          rw [hresult] at hbytes
          contradiction
      | error fault => exact ⟨_, rfl⟩

theorem exists_fault_valueText_iff {name : String} {d : Datum} :
    (∃ fault, valueText name d = .error fault) ↔ d.Undecodable name := by
  refine ⟨fun ⟨fault, hfault⟩ => ?_, exists_fault_of_undecodable⟩
  by_cases h : d.Undecodable name
  · exact h
  · rw [valueText_eq h] at hfault
    contradiction

theorem eq_textAs_of_valueText {name text : String} {d : Datum} (h : valueText name d = .ok text) :
    text = d.textAs name := by
  by_cases hd : d.Undecodable name
  · obtain ⟨fault, hfault⟩ := exists_fault_of_undecodable hd
    rw [h] at hfault
    contradiction
  · rw [valueText_eq hd] at h
    exact (Except.ok.inj h).symm

/-! ## Attributes -/

theorem eq_textIn?_of_keyValue {key : KeyAttribute} {text? : Option String}
    (h : keyValue e key = .ok text?) : text? = key.textIn? e := by
  unfold keyValue at h
  unfold KeyAttribute.textIn?
  cases hfirst : e.first? key.name with
  | none =>
      rw [hfirst] at h
      exact (Except.ok.inj h).symm
  | some d =>
      rw [hfirst] at h
      obtain ⟨text, htext, rfl⟩ := exists_of_map_eq_ok h
      rw [eq_textAs_of_valueText htext, Option.map_some]

theorem eq_valueIn_of_pulledValue {pull : PullAttribute} {value : AttributeValue}
    (h : pulledValue e pull = .ok value) : value = pull.valueIn e := by
  unfold pulledValue at h
  unfold PullAttribute.valueIn
  cases hcardinality : pull.cardinality with
  | multi =>
      rw [hcardinality] at h
      obtain ⟨texts, htexts, rfl⟩ := exists_of_map_eq_ok h
      obtain ⟨read, rfl, hread⟩ := exists_eq_map_of_mapM_eq_ok htexts
      rw [List.map_congr_left fun d hd => eq_textAs_of_valueText (hread d hd)]
  | single =>
      rw [hcardinality] at h
      cases hfirst : e.first? pull.name with
      | none =>
          rw [hfirst] at h
          exact (Except.ok.inj h).symm
      | some d =>
          rw [hfirst] at h
          obtain ⟨text, htext, rfl⟩ := exists_of_map_eq_ok h
          rw [eq_textAs_of_valueText htext]

theorem exists_fault_keyValue_iff {key : KeyAttribute} :
    (∃ fault, keyValue e key = .error fault) ↔ ∃ d ∈ key.readFrom e, d.Undecodable key.name := by
  unfold keyValue KeyAttribute.readFrom
  cases e.first? key.name with
  | none => simp
  | some d => simp [exists_fault_map_iff, exists_fault_valueText_iff]

theorem exists_fault_pulledValue_iff {pull : PullAttribute} :
    (∃ fault, pulledValue e pull = .error fault) ↔
      ∃ d ∈ pull.readFrom e, d.Undecodable pull.name := by
  unfold pulledValue PullAttribute.readFrom
  cases pull.cardinality with
  | multi => simp only [exists_fault_map_iff, exists_fault_mapM_iff, exists_fault_valueText_iff]
  | single =>
      cases e.first? pull.name with
      | none => simp
      | some d => simp [exists_fault_map_iff, exists_fault_valueText_iff]

/-- **An entry cannot be normalized** exactly if a value that is read of it cannot be decoded. -/
theorem exists_fault_iff :
    (∃ fault, ofEntry profile c kind e = .error fault) ↔ c.Unreadable e := by
  unfold ofEntry ObjectClass.Unreadable
  simp only [← exists_fault_keyValue_iff, ← exists_fault_pulledValue_iff]
  rw [exists_fault_bind_iff, ← exists_fault_mapM_iff, ← exists_fault_mapM_iff]
  cases c.keys.mapM (keyValue e) with
  | error fault => simp
  | ok keyValues =>
      cases c.pulls.attributes.mapM (pulledValue e) <;>
        simp [bind, Except.bind, pure, Except.pure]

end Normalized

end AttrFederation
