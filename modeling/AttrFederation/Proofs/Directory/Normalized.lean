import AttrFederation.Directory.Normalized

/-!
# What normalizing gives

`Carries` says which names an entry goes by, directly from its data: a name is the normalized first
value of one of its key attributes.  A normalized entry has these as aliases (`mem_aliases_iff`),
and its identifier is made of them and of `UNDEFINED` for missing ones (`exists_parts`).  The record
holds what was read of the pull attributes and the key attributes (`exists_texts_values`).
-/

namespace AttrFederation

variable {α β ε : Type}

/-- What ends well began well. -/
theorem exists_of_bind_eq_ok {x : Except ε α} {f : α → Except ε β} {b : β}
    (h : x >>= f = .ok b) : ∃ a, x = .ok a ∧ f a = .ok b := by
  cases x with
  | error fault => contradiction
  | ok a => exact ⟨a, rfl, h⟩

theorem exists_of_map_eq_ok {x : Except ε α} {f : α → β} {b : β} (h : x.map f = .ok b) :
    ∃ a, x = .ok a ∧ f a = b := by
  cases x with
  | error fault => contradiction
  | ok a => exact ⟨a, rfl, Except.ok.inj h⟩

/-- A list is read when each of its members is. -/
theorem map_eq_of_mapM_eq_ok {f : α → Except ε β} {xs : List α} {ys : List β}
    (h : xs.mapM f = .ok ys) : xs.map f = ys.map .ok := by
  induction xs generalizing ys with
  | nil =>
      rw [List.mapM_nil] at h
      cases h
      rfl
  | cons x xs ih =>
      rw [List.mapM_cons] at h
      obtain ⟨y, hx, h⟩ := exists_of_bind_eq_ok h
      obtain ⟨rest, hxs, h⟩ := exists_of_bind_eq_ok h
      cases h
      rw [List.map_cons, List.map_cons, hx, ih hxs]

/-- What is read of a list is made of its members, each of which can be read. -/
theorem exists_eq_map_of_mapM_eq_ok [Inhabited β] {f : α → Except ε β} {xs : List α} {ys : List β}
    (h : xs.mapM f = .ok ys) : ∃ read : α → β, ys = xs.map read ∧ ∀ x ∈ xs, f x = .ok (read x) := by
  have hmap := map_eq_of_mapM_eq_ok h
  refine ⟨fun x => (f x).toOption.getD default, ?_, fun x hx => ?_⟩
  · have hread := congrArg (List.map fun outcome => outcome.toOption.getD default) hmap
    simpa [Function.comp_def, Except.toOption] using hread.symm
  · have hmem : f x ∈ ys.map .ok := hmap ▸ List.mem_map_of_mem hx
    obtain ⟨y, -, hy⟩ := List.mem_map.mp hmem
    simp [← hy, Except.toOption]

/-- The first value of a key attribute of the entry, normalized, is the text. -/
def KeyAttribute.Reads (key : KeyAttribute) (e : Entry) (text : String) : Prop :=
  ∃ d raw, e.first? key.name = some d ∧ Normalized.valueText key.name d = .ok raw ∧
    key.normalize raw = text

/-- The entry has a key attribute of the class whose normalized text is the name. -/
def ObjectClass.Carries (c : ObjectClass) (e : Entry) (name : String) : Prop :=
  ∃ key ∈ c.keys, key.Reads e name

namespace Normalized

variable {profile : String} {c : ObjectClass} {kind : ObjectKind} {e : Entry} {n : Normalized}

/-! ## Key values -/

theorem keyValue_eq_some_iff {key : KeyAttribute} {text : String} :
    keyValue e key = .ok (some text) ↔ key.Reads e text := by
  unfold keyValue KeyAttribute.Reads
  cases e.first? key.name with
  | none => simp
  | some d =>
      simp only [Option.some.injEq, exists_and_left, exists_eq_left']
      cases valueText key.name d <;> simp [Except.map]

/-- The key attributes that are present, with the texts they have. -/
theorem presentKeys_map (keys : List KeyAttribute) (text? : KeyAttribute → Option String) :
    presentKeys keys (keys.map text?) =
      keys.filterMap fun key => (text? key).map fun text => (key.name, text) := by
  unfold presentKeys
  induction keys with
  | nil => rfl
  | cons key keys ih => simp [List.filterMap_cons, ih]

/-! ## Records -/

theorem insert_id (r : Record) (name : String) (value : AttributeValue) :
    (r.insert name value).id = r.id := rfl

/-- Attributes do not touch the identifier. -/
theorem id_insertAll (r : Record) (attributes : List (String × AttributeValue)) :
    (insertAll r attributes).id = r.id := by
  unfold insertAll
  induction attributes generalizing r with
  | nil => rfl
  | cons first rest ih => rw [List.foldl_cons, ih, insert_id]

theorem domain_insertAll (r : Record) (attributes : List (String × AttributeValue)) :
    (insertAll r attributes).domain = r.domain := by
  unfold insertAll
  induction attributes generalizing r with
  | nil => rfl
  | cons first rest ih => exact ih (r.insert first.1 first.2)

theorem kind_insertAll (r : Record) (attributes : List (String × AttributeValue)) :
    (insertAll r attributes).kind = r.kind := by
  unfold insertAll
  induction attributes generalizing r with
  | nil => rfl
  | cons first rest ih => exact ih (r.insert first.1 first.2)

/-- **What a normalized entry is made of**: a text or nothing for each key attribute, and a value for
each pull attribute.  The record holds the values and the texts, the texts after the values. -/
theorem exists_texts_values (h : ofEntry profile c kind e = .ok n) :
    ∃ (text? : KeyAttribute → Option String) (value : PullAttribute → AttributeValue),
      (∀ key ∈ c.keys, keyValue e key = .ok (text? key)) ∧
      (∀ pull ∈ c.pulls.attributes, pulledValue e pull = .ok (value pull)) ∧
      n.aliases = c.keys.filterMap text? ∧
      n.record = insertAll
        { domain := profile
          id := Record.combinedId profile
            (c.keys.map fun key => (text? key).getD Record.undefinedKey)
          kind }
        ((c.pulls.attributes.map fun pull => (pull.name, value pull)) ++
          c.keys.filterMap fun key =>
            (text? key).map fun text => (key.name, AttributeValue.single text)) := by
  obtain ⟨keyValues, hkeys, h⟩ := exists_of_bind_eq_ok h
  obtain ⟨pulled, hpulls, h⟩ := exists_of_bind_eq_ok h
  cases h
  obtain ⟨text?, rfl, htext⟩ := exists_eq_map_of_mapM_eq_ok hkeys
  obtain ⟨value, rfl, hvalue⟩ := exists_eq_map_of_mapM_eq_ok hpulls
  refine ⟨text?, value, htext, hvalue, ?_, ?_⟩
  · simp [presentKeys_map, List.map_filterMap, Function.comp_def]
  · simp [presentKeys_map, PullAttributes.names, List.map_filterMap, List.zip_map',
      Function.comp_def]

/-- The record belongs to the profile and the class that the entry was read for. -/
theorem domain_kind_of_ofEntry (h : ofEntry profile c kind e = .ok n) :
    n.record.domain = profile ∧ n.record.kind = kind := by
  obtain ⟨text?, value, -, -, -, hrecord⟩ := exists_texts_values h
  rw [hrecord]
  exact ⟨domain_insertAll _ _, kind_insertAll _ _⟩

/-- **The aliases are the names an entry goes by**. -/
theorem mem_aliases_iff (h : ofEntry profile c kind e = .ok n) {name : String} :
    name ∈ n.aliases ↔ c.Carries e name := by
  obtain ⟨text?, value, htext, -, haliases, -⟩ := exists_texts_values h
  rw [haliases, List.mem_filterMap]
  refine exists_congr fun key => and_congr_right fun hkey => ?_
  rw [← keyValue_eq_some_iff, htext key hkey, Except.ok.injEq]

/-- **The identifier of an entry** has the names it goes by as parts, and no others but `UNDEFINED`
for what is missing. -/
theorem exists_parts (h : ofEntry profile c kind e = .ok n) :
    ∃ parts, n.record.id = Record.combinedId profile parts ∧
      (∀ name, c.Carries e name → name ∈ parts) ∧
      ∀ part ∈ parts, c.Carries e part ∨ part = Record.undefinedKey := by
  obtain ⟨text?, value, -, -, haliases, hrecord⟩ := exists_texts_values h
  have hid := (congrArg Record.id hrecord).trans (id_insertAll _ _)
  refine ⟨_, hid, fun name hname => ?_, fun part hpart => ?_⟩
  · rw [← mem_aliases_iff h, haliases, List.mem_filterMap] at hname
    obtain ⟨key, hkey, hsome⟩ := hname
    exact List.mem_map.mpr ⟨key, hkey, by rw [hsome, Option.getD_some]⟩
  · obtain ⟨key, hkey, rfl⟩ := List.mem_map.mp hpart
    cases htext : text? key with
    | none => exact .inr rfl
    | some text =>
        left
        rw [Option.getD_some, ← mem_aliases_iff h, haliases, List.mem_filterMap]
        exact ⟨key, hkey, htext⟩

end Normalized

end AttrFederation
