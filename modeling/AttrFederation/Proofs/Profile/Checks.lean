import AttrFederation.Profile.Directory
import AttrFederation.Proofs.Numeral
import AttrFederation.Proofs.Properties

/-!
# The checks of a directory profile

A profile is read field by field, and each reader makes the checks of its fields in order: it ends
with a fault at the first one that fails, and otherwise with what the fields state (`Checked`).
Readers one after another make the checks of the one and then those of the other (`Checked.bind`),
so that a profile makes all of `checks`.  A check need not apply: credentials are checked under
simple authentication, and the fields of groups if there is a search base of groups.

Main result: `DirectoryProfile.parse_makes_checks`.
-/

namespace AttrFederation

/-- The profile that a fault is about. -/
def ProfileError.domain : ProfileError → String
  | missing domain _ => domain
  | invalid domain _ _ => domain

namespace DirectoryProfile

section Checks

variable (props : Properties) (name : String)

/-! ## What is checked -/

/-- A field of the profile states a value. -/
def FieldStates (field value : String) : Prop :=
  props.States (fieldKey name field) value

/-- Authentication is simple, whatever the case of the letters. -/
def SimpleAuthentication : Prop :=
  ∃ value, FieldStates props name "authentication" value ∧ Text.asciiEq value "simple" = true

/-- There is a search base of groups. -/
def HasGroups : Prop :=
  ∃ value, FieldStates props name "group_search_base" value

/-- A check of a field: whether it is made, and the values that pass it. -/
structure Check where
  field : String
  Applies : Prop
  Accepts : String → Prop

/-- The check is made, and the field does not state a value that passes it. -/
def Check.Fails (c : Check) : Prop :=
  c.Applies ∧ ¬ ∃ value, FieldStates props name c.field value ∧ c.Accepts value

/-- The field has any value. -/
def present (field : String) (Applies : Prop) : Check :=
  ⟨field, Applies, fun _ => True⟩

/-- The port is a numeral of 16 bits. -/
def portCheck : Check :=
  ⟨"port", True, fun value => ∃ n, Text.Denotes value n ∧ n < UInt16.size⟩

/-- A part between semicolons is not blank. -/
def basesCheck (field : String) (Applies : Prop) : Check :=
  ⟨field, Applies, fun value => ∃ part ∈ Text.split ';' value, Text.isBlankText part = false⟩

/-- The checks of the class whose fields start with a word. -/
def classChecks (word : String) (Applies : Prop) : List Check :=
  [basesCheck (word ++ "_search_base") Applies, present (word ++ "_filter") Applies,
    present (word ++ "_key_attributes") Applies, present (word ++ "_attributes_to_pull") Applies]

/-- The checks of credentials. -/
def credentialChecks : List Check :=
  [present "username" (SimpleAuthentication props name),
    present "password" (SimpleAuthentication props name)]

/-- The checks of a profile, in order. -/
def checks : List Check :=
  present "host" True :: portCheck :: present "authentication" True ::
    (credentialChecks props name ++
      (classChecks "user" True ++ classChecks "group" (HasGroups props name)))

/-- The check fails, and none before it does. -/
def FirstFailing (cs : List Check) (c : Check) : Prop :=
  ∃ before after, cs = before ++ c :: after ∧ (∀ earlier ∈ before, ¬ earlier.Fails props name) ∧
    c.Fails props name

/-- The fault names the field of the check, in the profile.  A port with a value is invalid, and any
other field counts as missing. -/
structure Check.Reports (c : Check) (fault : ProfileError) : Prop where
  domain : fault.domain = name
  field : fault.field = c.field
  invalid_iff : (∃ reason, fault = .invalid name c.field reason) ↔
    c.field = "port" ∧ ∃ value, FieldStates props name "port" value

/-! ## Making checks -/

variable {α β : Type}

/-- Reading makes the checks: it ends with the fault of the first one that fails or, if none does,
with a result of a kind. -/
def Checked (cs : List Check) (Gives : α → Prop) (x : Except ProfileError α) : Prop :=
  (∃ fault c, x = .error fault ∧ FirstFailing props name cs c ∧ c.Reports props name fault) ∨
    ∃ a, x = .ok a ∧ Gives a ∧ ∀ c ∈ cs, ¬ c.Fails props name

variable {props name} {cs ds : List Check} {P : α → Prop} {Q : β → Prop}

theorem FirstFailing.exists_fails {c : Check} (h : FirstFailing props name cs c) :
    ∃ c ∈ cs, c.Fails props name := by
  obtain ⟨before, after, rfl, -, hfails⟩ := h
  exact ⟨c, by simp, hfails⟩

theorem Checked.fails_iff {x : Except ProfileError α} (h : Checked props name cs P x) :
    (∃ fault, x = .error fault) ↔ ∃ c ∈ cs, c.Fails props name := by
  obtain ⟨fault, c, rfl, hfirst, -⟩ | ⟨a, rfl, -, hpass⟩ := h
  · exact iff_of_true ⟨fault, rfl⟩ hfirst.exists_fails
  · exact iff_of_false (fun ⟨_, hfault⟩ => nomatch hfault) fun ⟨c, hc, hfails⟩ => hpass c hc hfails

theorem Checked.reports {fault : ProfileError} (h : Checked props name cs P (.error fault)) :
    ∃ c, FirstFailing props name cs c ∧ c.Reports props name fault := by
  obtain ⟨_, c, ⟨⟩, hfirst⟩ | ⟨_, ⟨⟩, -⟩ := h
  exact ⟨c, hfirst⟩

theorem Checked.gives {a : α} (h : Checked props name cs P (.ok a)) : P a := by
  obtain ⟨_, _, ⟨⟩, -⟩ | ⟨_, ⟨⟩, ha, -⟩ := h
  exact ha

/-- Readers one after another make the checks of the one and then those of the other. -/
theorem Checked.bind {x : Except ProfileError α} {f : α → Except ProfileError β}
    (hx : Checked props name cs P x) (hf : ∀ a, P a → Checked props name ds Q (f a)) :
    Checked props name (cs ++ ds) Q (x >>= f) := by
  obtain ⟨fault, c, rfl, ⟨before, after, rfl, hpass, hfails⟩, hreports⟩ | ⟨a, rfl, ha, hcs⟩ := hx
  · exact .inl ⟨fault, c, rfl, ⟨before, after ++ ds, by simp, hpass, hfails⟩, hreports⟩
  · obtain ⟨fault, c, hfault, ⟨before, after, rfl, hpass, hfails⟩, hreports⟩ | ⟨b, hb, hQ, hds⟩ :=
      hf a ha
    · refine .inl ⟨fault, c, hfault, ⟨cs ++ before, after, by simp, ?_, hfails⟩, hreports⟩
      exact List.forall_mem_append.mpr ⟨hcs, hpass⟩
    · exact .inr ⟨b, hb, hQ, List.forall_mem_append.mpr ⟨hcs, hds⟩⟩

/-- A field is checked before all others. -/
theorem Checked.cons {c : Check} {x : Except ProfileError α} {f : α → Except ProfileError β}
    (hx : Checked props name [c] P x) (hf : ∀ a, P a → Checked props name cs Q (f a)) :
    Checked props name (c :: cs) Q (x >>= f) :=
  hx.bind hf

/-- The last reader's result is put into another one. -/
theorem Checked.bind_ok {x : Except ProfileError α} {f : α → β} (hx : Checked props name cs P x)
    (hf : ∀ a, P a → Q (f a)) : Checked props name cs Q (x >>= fun a => .ok (f a)) := by
  obtain ⟨fault, c, rfl, hfirst⟩ | ⟨a, rfl, ha, hcs⟩ := hx
  · exact .inl ⟨fault, c, rfl, hfirst⟩
  · exact .inr ⟨f a, rfl, hf a ha, hcs⟩

/-- Checks that do not apply are made by reading nothing. -/
theorem checked_of_not_applies {a : α} (ha : P a) (hcs : ∀ c ∈ cs, ¬ c.Applies) :
    Checked props name cs P (.ok a) :=
  .inr ⟨a, rfl, ha, fun c hc hfails => hcs c hc hfails.1⟩

/-! ## Readers of fields -/

theorem field?_eq_none_iff {field : String} :
    field? props name field = none ↔ ¬ ∃ value, FieldStates props name field value :=
  Properties.get?_eq_none_iff

theorem field?_eq_some_iff {field value : String} :
    field? props name field = some value ↔ FieldStates props name field value :=
  Properties.get?_eq_some_iff

theorem FieldStates.unique {field value other : String} (h : FieldStates props name field value)
    (hother : FieldStates props name field other) : value = other :=
  Option.some.inj ((field?_eq_some_iff.mpr h).symm.trans (field?_eq_some_iff.mpr hother))

/-- A check is made by reading a value that passes it. -/
theorem checked_of_accepts {c : Check} {value : String} {a : α}
    (hvalue : FieldStates props name c.field value) (haccepts : c.Accepts value) (ha : P a) :
    Checked props name [c] P (.ok a) := by
  refine .inr ⟨a, rfl, ha, ?_⟩
  rintro d hd ⟨-, hrefused⟩
  obtain rfl := List.mem_singleton.mp hd
  exact hrefused ⟨value, hvalue, haccepts⟩

/-- A check that fails is made by ending with its fault. -/
theorem checked_of_reports {c : Check} {fault : ProfileError} (happlies : c.Applies)
    (hrefused : ¬ ∃ value, FieldStates props name c.field value ∧ c.Accepts value)
    (hreports : c.Reports props name fault) : Checked props name [c] P (.error fault) :=
  .inl ⟨fault, c, rfl, ⟨[], [], rfl, fun _ h => absurd h List.not_mem_nil, happlies, hrefused⟩,
    hreports⟩

theorem reports_missing {c : Check}
    (h : ¬ (c.field = "port" ∧ ∃ value, FieldStates props name "port" value)) :
    c.Reports props name (.missing name c.field) where
  domain := rfl
  field := rfl
  invalid_iff := by simpa using h

theorem checked_requireField {field : String} {Applies : Prop} (happlies : Applies)
    (hport : field ≠ "port") :
    Checked props name [present field Applies] (FieldStates props name field)
      (requireField props name field) := by
  unfold requireField
  cases h : field? props name field with
  | none =>
      have hnone := field?_eq_none_iff.mp h
      exact checked_of_reports happlies (fun ⟨value, hvalue, _⟩ => hnone ⟨value, hvalue⟩)
        (reports_missing fun hfield => hport hfield.1)
  | some value =>
      have hvalue := field?_eq_some_iff.mp h
      exact checked_of_accepts hvalue trivial hvalue

theorem checked_readPort :
    Checked props name [portCheck]
      (fun port => ∃ text, FieldStates props name "port" text ∧ Text.Denotes text port.toNat)
      (readPort props name) := by
  unfold readPort requireField
  cases h : field? props name "port" with
  | none =>
      have hnone := field?_eq_none_iff.mp h
      exact checked_of_reports trivial (fun ⟨value, hvalue, _⟩ => hnone ⟨value, hvalue⟩)
        (reports_missing fun hfield => hnone hfield.2)
  | some raw =>
      have hraw := field?_eq_some_iff.mp h
      cases hread : Text.readUInt16 raw with
      | ok port =>
          have hport := Text.readUInt16_eq_ok_iff.mp hread
          simp only [bind, Except.bind, hread]
          exact checked_of_accepts hraw ⟨_, hport, port.toNat_lt⟩ ⟨raw, hraw, hport⟩
      | error fault =>
          simp only [bind, Except.bind, hread]
          refine checked_of_reports trivial ?_ ⟨rfl, rfl, by simpa [portCheck] using ⟨raw, hraw⟩⟩
          rintro ⟨value, hvalue, hnumeral⟩
          obtain rfl := hraw.unique hvalue
          obtain ⟨n, hn⟩ := Text.exists_readUInt16_iff.mpr hnumeral
          rw [hn] at hread
          contradiction

theorem checked_readSearchBases {field : String} {Applies : Prop} (happlies : Applies)
    (hport : field ≠ "port") :
    Checked props name [basesCheck field Applies]
      (fun bases => bases ≠ [] ∧ ∀ base ∈ bases, Text.trim base = base ∧
        Text.isBlankText base = false)
      (readSearchBases props name field) := by
  unfold readSearchBases requireField
  cases h : field? props name field with
  | none =>
      have hnone := field?_eq_none_iff.mp h
      exact checked_of_reports happlies (fun ⟨value, hvalue, _⟩ => hnone ⟨value, hvalue⟩)
        (reports_missing fun hfield => hport hfield.1)
  | some raw =>
      have hraw := field?_eq_some_iff.mp h
      simp only [bind, Except.bind]
      split
      · next hempty =>
          refine checked_of_reports happlies ?_ (reports_missing fun hfield => hport hfield.1)
          rintro ⟨value, hvalue, part, hpart, hblank⟩
          obtain rfl := hraw.unique hvalue
          have hmem : Text.trim part ∈ Text.splitTrimmed ';' raw :=
            Text.mem_splitTrimmed_iff.mpr ⟨part, hpart, hblank, rfl⟩
          rw [List.isEmpty_iff.mp hempty] at hmem
          exact absurd hmem List.not_mem_nil
      · next hempty =>
          rw [List.isEmpty_iff] at hempty
          obtain ⟨base, hbase⟩ := List.exists_mem_of_ne_nil _ hempty
          obtain ⟨part, hpart, hblank, -⟩ := Text.mem_splitTrimmed_iff.mp hbase
          refine checked_of_accepts hraw ⟨part, hpart, hblank⟩ ⟨hempty, fun base hbase => ?_⟩
          obtain ⟨part, -, hblank, rfl⟩ := Text.mem_splitTrimmed_iff.mp hbase
          exact ⟨Text.trim_trim part, by rwa [Text.isBlankText_trim]⟩

/-! ## Readers of sections -/

variable (props name) in
/-- There is a value under a condition, and it is the one that a field states. -/
def StatedIf (Applies : Prop) (field : String) (value? : Option String) : Prop :=
  (value?.isSome = true ↔ Applies) ∧
    ∀ value, value? = some value → FieldStates props name field value

/-- The class is searched under at least one base, none of them with blanks around it or blank. -/
def HasBases (c : ObjectClass) : Prop :=
  c.searchBases ≠ [] ∧ ∀ base ∈ c.searchBases, Text.trim base = base ∧
    Text.isBlankText base = false

theorem statedIf_none {Applies : Prop} {field : String} (h : ¬ Applies) :
    StatedIf props name Applies field none :=
  ⟨by simpa using h, fun _ hvalue => nomatch hvalue⟩

theorem statedIf_some {Applies : Prop} {field value : String} (h : Applies)
    (hvalue : FieldStates props name field value) :
    StatedIf props name Applies field (some value) :=
  ⟨by simpa using h, fun _ heq => Option.some.inj heq ▸ hvalue⟩

theorem checked_readObjectClass {word : String} {Applies : Prop} (happlies : Applies) :
    Checked props name (classChecks word Applies) HasBases (readObjectClass props name word) := by
  have hport : ∀ suffix : String, '_' ∈ suffix.toList → word ++ suffix ≠ "port" := by
    intro suffix hmem heq
    have hunderscore : '_' ∈ (word ++ suffix).toList := by simp [hmem]
    rw [heq] at hunderscore
    exact absurd hunderscore (by decide)
  unfold readObjectClass classChecks
  refine .cons (checked_readSearchBases happlies (hport _ (by decide))) fun bases hbases => ?_
  refine .cons (checked_requireField happlies (hport _ (by decide))) fun filter _ => ?_
  refine .cons (checked_requireField happlies (hport _ (by decide))) fun keys _ => ?_
  exact .bind_ok (checked_requireField happlies (hport _ (by decide))) fun pulls _ => hbases

theorem checked_readCredentials {authentication : String}
    (h : FieldStates props name "authentication" authentication) :
    Checked props name (credentialChecks props name)
      (fun credentials =>
        StatedIf props name (SimpleAuthentication props name) "username" credentials.1 ∧
          StatedIf props name (SimpleAuthentication props name) "password" credentials.2)
      (readCredentials props name authentication) := by
  unfold readCredentials credentialChecks
  split
  · next hsimple =>
      have hcredentials : SimpleAuthentication props name := ⟨authentication, h, hsimple⟩
      refine .cons (checked_requireField hcredentials (by decide)) fun username husername => ?_
      refine .bind_ok (checked_requireField hcredentials (by decide)) fun password hpassword => ?_
      exact ⟨statedIf_some hcredentials husername, statedIf_some hcredentials hpassword⟩
  · next hother =>
      have hnone : ¬ SimpleAuthentication props name := by
        rintro ⟨value, hvalue, hsimple⟩
        obtain rfl := h.unique hvalue
        exact hother hsimple
      refine checked_of_not_applies ⟨statedIf_none hnone, statedIf_none hnone⟩ ?_
      simp [present, hnone]

theorem checked_readGroups :
    Checked props name (classChecks "group" (HasGroups props name))
      (fun groups => (groups.isSome = true ↔ HasGroups props name) ∧
        ∀ c, groups = some c → HasBases c)
      (readGroups props name) := by
  unfold readGroups
  split
  · next value hvalue =>
      have hgroups : HasGroups props name := ⟨value, field?_eq_some_iff.mp hvalue⟩
      refine .bind_ok (checked_readObjectClass hgroups) fun c hc => ⟨by simpa using hgroups, ?_⟩
      exact fun _ heq => Option.some.inj heq ▸ hc
  · next hnone =>
      have hgroups : ¬ HasGroups props name := field?_eq_none_iff.mp hnone
      refine checked_of_not_applies ⟨by simpa using hgroups, fun _ heq => nomatch heq⟩ ?_
      simp [classChecks, basesCheck, present, hgroups]

/-! ## The profile -/

variable (props name) in
/-- The profile is made of what its fields state. -/
structure Describes (p : DirectoryProfile) : Prop where
  name_eq : p.name = name
  host : FieldStates props name "host" p.host
  port : ∃ text, FieldStates props name "port" text ∧ Text.Denotes text p.port.toNat
  authentication : FieldStates props name "authentication" p.authentication
  username : StatedIf props name (SimpleAuthentication props name) "username" p.username
  password : StatedIf props name (SimpleAuthentication props name) "password" p.encryptedPassword
  users : HasBases p.users
  groups_iff : p.groups.isSome = true ↔ HasGroups props name
  groups : ∀ c, p.groups = some c → HasBases c

variable (props name) in
theorem checked_parse :
    Checked props name (checks props name) (Describes props name) (parse name props) := by
  unfold parse checks
  refine .cons (checked_requireField trivial (by decide)) fun host hhost => ?_
  refine .cons checked_readPort fun port hport => ?_
  refine .cons (checked_requireField trivial (by decide)) fun authentication hauthentication => ?_
  refine .bind (checked_readCredentials hauthentication) fun ⟨username, password⟩ hcredentials => ?_
  refine .bind (checked_readObjectClass trivial) fun users husers => ?_
  refine .bind_ok checked_readGroups fun groups hgroups => ?_
  exact ⟨rfl, hhost, hport, hauthentication, hcredentials.1, hcredentials.2, husers, hgroups.1,
    hgroups.2⟩

/-! ## The properties that count -/

/-- The fields of a class, whose names start with a word. -/
def classFields (word : String) : List String :=
  [word ++ "_search_base", word ++ "_filter", word ++ "_key_attributes",
    word ++ "_attributes_to_pull"]

/-- The fields of a profile. -/
def fields : List String :=
  ["host", "port", "authentication", "username", "password", "ssl", "get_disabled_accounts"] ++
    (classFields "user" ++ classFields "group")

variable {other : Properties}

theorem requireField_congr {field : String}
    (h : field? other name field = field? props name field) :
    requireField other name field = requireField props name field := by
  rw [requireField, requireField, h]

theorem readObjectClass_congr {word : String}
    (h : ∀ field ∈ classFields word, field? other name field = field? props name field) :
    readObjectClass other name word = readObjectClass props name word := by
  have hrequire : ∀ field ∈ classFields word,
      requireField other name field = requireField props name field :=
    fun field hfield => requireField_congr (h field hfield)
  simp only [classFields, List.forall_mem_cons] at hrequire
  obtain ⟨hbases, hfilter, hkeys, hpulls, -⟩ := hrequire
  rw [readObjectClass, readObjectClass, readSearchBases, readSearchBases, hbases, hfilter, hkeys,
    hpulls]

/-- A profile is read of its fields only. -/
theorem parse_congr
    (h : ∀ field ∈ fields, other.entries.lookup (fieldKey name field) =
      props.entries.lookup (fieldKey name field)) : parse name other = parse name props := by
  have hfield : ∀ field ∈ fields, field? other name field = field? props name field :=
    fun field hmem => Properties.get?_congr (h field hmem)
  have huser := readObjectClass_congr fun field hmem =>
    hfield field (List.mem_append_right _ (List.mem_append_left (classFields "group") hmem))
  have hgroup := readObjectClass_congr fun field hmem =>
    hfield field (List.mem_append_right _ (List.mem_append_right (classFields "user") hmem))
  simp only [parse, readPort, readCredentials, readGroups, huser, hgroup, requireField,
    hfield "host" (by decide), hfield "port" (by decide), hfield "authentication" (by decide),
    hfield "username" (by decide), hfield "password" (by decide), hfield "ssl" (by decide),
    hfield "get_disabled_accounts" (by decide), hfield "group_search_base" (by decide)]

/-- **A profile is refused at its first fault.**  Reading fails exactly if a check fails, and the
fault names the domain and the field of the first check that does; a profile that is read is made
of what its fields state; and no other property counts. -/
theorem parse_makes_checks (name : String) (props : Properties) :
    ((∃ fault, parse name props = .error fault) ↔
        ∃ c ∈ checks props name, c.Fails props name) ∧
      (∀ fault, parse name props = .error fault →
        ∃ c, FirstFailing props name (checks props name) c ∧ c.Reports props name fault) ∧
      (∀ p, parse name props = .ok p → Describes props name p) ∧
      ∀ other : Properties,
        (∀ field ∈ fields, other.entries.lookup (fieldKey name field) =
          props.entries.lookup (fieldKey name field)) →
        parse name other = parse name props := by
  have hchecked := checked_parse props name
  refine ⟨hchecked.fails_iff, fun fault hfault => ?_, fun p hp => ?_, fun other => parse_congr⟩
  · exact (hfault ▸ hchecked).reports
  · exact (hp ▸ hchecked).gives

/-- Of two faults, a port that is no number and a class that is missing, the first is reported. -/
example : parse "CORP" ⟨[("CORP_host", "ldap.corp"), ("CORP_port", "ldap"),
    ("CORP_authentication", "none")]⟩ =
      .error (.invalid "CORP" "port" "invalid digit found in string") := by
  decide +kernel

end Checks

end DirectoryProfile

end AttrFederation
