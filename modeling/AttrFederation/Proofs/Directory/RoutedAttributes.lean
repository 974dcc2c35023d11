import AttrFederation.Proofs.Cache.Records
import AttrFederation.Proofs.Directory.Normalized
import AttrFederation.Routes

/-!
# Attributes routed to the directory

Routes are built from the profiles, once, and records from the entries, as they come.  Both go by
the names of the pull attributes in lower case, so a record has what the routes promise: an
attribute routed to the directory is on every record of the profile and the class.

Of two pull attributes of one name in lower case the last one counts, and a key attribute that is
present counts before all of them (`Normalized.get?_insertAll`).  A profile is known by its name,
since all profiles of one name are read from the same properties
(`DirectoryCatalog.eq_of_mem_load`).

Main result: `Routes.exists_value_of_directory`.
-/

namespace AttrFederation

/-- The last one that passes a test is in the list and passes it. -/
theorem mem_and_of_findRev? {α : Type} {p : α → Bool} {xs : List α} {x : α}
    (h : xs.findRev? p = some x) : x ∈ xs ∧ p x = true := by
  rw [List.findRev?_eq_find?_reverse] at h
  exact ⟨List.mem_reverse.mp (List.mem_of_find?_eq_some h), List.find?_some h⟩

/-- The last one of the attributes pulled under a name. -/
def ObjectClass.lastPulled? (c : ObjectClass) (name : String) : Option PullAttribute :=
  c.pulls.attributes.findRev? fun pull => Text.lowercase pull.name = Text.lowercase name

/-- The entry has a key attribute of a name. -/
def ObjectClass.HasKey (c : ObjectClass) (e : Entry) (name : String) : Prop :=
  ∃ key ∈ c.keys, e.has key.name = true ∧ Text.lowercase key.name = Text.lowercase name

/-! ## Values of an entry -/

namespace Entry

theorem has_eq_isSome_first? (e : Entry) (name : String) : e.has name = (e.first? name).isSome := by
  unfold has first?
  cases e.values name <;> rfl

theorem has_congr {name name' : String} (h : Text.lowercase name = Text.lowercase name')
    (e : Entry) : e.has name = e.has name' := by
  rw [has, has, values, values, h]

end Entry

namespace Normalized

variable {profile : String} {c : ObjectClass} {kind : ObjectKind} {e : Entry} {n : Normalized}

/-- A key attribute is present if the entry has a value for it. -/
theorem isSome_of_keyValue {key : KeyAttribute} {text? : Option String}
    (h : keyValue e key = .ok text?) : text?.isSome = e.has key.name := by
  rw [Entry.has_eq_isSome_first?]
  unfold keyValue at h
  cases hfirst : e.first? key.name with
  | none =>
      rw [hfirst] at h
      cases h
      rfl
  | some d =>
      rw [hfirst] at h
      obtain ⟨raw, -, rfl⟩ := exists_of_map_eq_ok h
      rfl

/-- The value of a pull attribute is null if it may have one value and the entry has none. -/
theorem eq_null_iff_of_pulledValue {pull : PullAttribute} {value : AttributeValue}
    (h : pulledValue e pull = .ok value) :
    value = .null ↔ pull.cardinality = .single ∧ e.has pull.name = false := by
  rw [Entry.has_eq_isSome_first?]
  unfold pulledValue at h
  cases hcardinality : pull.cardinality with
  | multi =>
      rw [hcardinality] at h
      obtain ⟨texts, -, rfl⟩ := exists_of_map_eq_ok h
      simp
  | single =>
      rw [hcardinality] at h
      cases hfirst : e.first? pull.name with
      | none =>
          rw [hfirst] at h
          cases h
          simp
      | some d =>
          rw [hfirst] at h
          obtain ⟨text, -, rfl⟩ := exists_of_map_eq_ok h
          simp

/-! ## Values of a record -/

/-- Of the attributes that a record is given the last one of a name counts. -/
theorem get?_insertAll (r : Record) (attributes : List (String × AttributeValue)) (name : String) :
    (insertAll r attributes).get? name =
      ((attributes.findRev? fun a => Text.lowercase a.1 = Text.lowercase name).map Prod.snd).or
        (r.get? name) := by
  induction attributes using List.reverseRecOn with
  | nil => rfl
  | append_singleton attributes a ih =>
      have hinsert : insertAll r (attributes ++ [a]) = (insertAll r attributes).insert a.1 a.2 := by
        simp [insertAll]
      rw [hinsert, Record.get?_insert, findRev?_concat, ih]
      by_cases h : Text.lowercase a.1 = Text.lowercase name
      · simp [h]
      · simp [h, Ne.symm h]

/-- The texts of the key attributes that are present, by name. -/
def keyTexts (c : ObjectClass) (text? : KeyAttribute → Option String) :
    List (String × AttributeValue) :=
  c.keys.filterMap fun key => (text? key).map fun text => (key.name, AttributeValue.single text)

/-- If the entry has a key attribute of a name, there is a text under it, and else nothing. -/
theorem findRev?_keyTexts {text? : KeyAttribute → Option String}
    (htext : ∀ key ∈ c.keys, keyValue e key = .ok (text? key)) (name : String) :
    let found := (keyTexts c text?).findRev? fun a => Text.lowercase a.1 = Text.lowercase name
    (c.HasKey e name ∧ ∃ other text, found = some (other, .single text)) ∨
      (¬ c.HasKey e name ∧ found = none) := by
  intro found
  cases hfound : found with
  | some a =>
      obtain ⟨hmem, hname⟩ := mem_and_of_findRev? hfound
      obtain ⟨key, hkey, ha⟩ := List.mem_filterMap.mp hmem
      obtain ⟨text, hpresent, rfl⟩ := Option.map_eq_some_iff.mp ha
      have hhas : e.has key.name = true := by
        rw [← isSome_of_keyValue (htext key hkey), hpresent, Option.isSome_some]
      exact .inl ⟨⟨key, hkey, hhas, of_decide_eq_true hname⟩, key.name, text, rfl⟩
  | none =>
      refine .inr ⟨?_, rfl⟩
      rintro ⟨key, hkey, hhas, hname⟩
      rw [← isSome_of_keyValue (htext key hkey), Option.isSome_iff_exists] at hhas
      obtain ⟨text, hpresent⟩ := hhas
      have hmem : (key.name, AttributeValue.single text) ∈ keyTexts c text? :=
        List.mem_filterMap.mpr ⟨key, hkey, by rw [hpresent, Option.map_some]⟩
      have hnone := List.find?_eq_none.mp ((List.findRev?_eq_find?_reverse ..).symm.trans hfound)
      exact hnone _ (List.mem_reverse.mpr hmem) (decide_eq_true hname)

/-- Of the values of the pull attributes the one of the last pulled is found. -/
theorem findRev?_values (value : PullAttribute → AttributeValue) (name : String) :
    ((c.pulls.attributes.map fun pull => (pull.name, value pull)).findRev?
        fun a => Text.lowercase a.1 = Text.lowercase name) =
      (c.lastPulled? name).map fun pull => (pull.name, value pull) := by
  simp only [ObjectClass.lastPulled?, List.findRev?_eq_find?_reverse, ← List.map_reverse,
    List.find?_map, Function.comp_def]

/-- **The value under a pulled name**: if an attribute of the name is pulled, the record has a value
under it.  The value is null only where the last one pulled may have one value, the entry has none,
and it has no key attribute of the name. -/
theorem exists_value_of_pulled (h : ofEntry profile c kind e = .ok n) {name : String}
    (hpulled : ∃ pull ∈ c.pulls.attributes, Text.lowercase pull.name = Text.lowercase name) :
    ∃ pull value, c.lastPulled? name = some pull ∧ n.record.get? name = some value ∧
      (value = .null ↔
        pull.cardinality = .single ∧ e.has name = false ∧ ¬ c.HasKey e name) := by
  obtain ⟨text?, value, htext, hvalue, -, hrecord⟩ := exists_texts_values h
  have hlast : ∃ pull, c.lastPulled? name = some pull := by
    rw [ObjectClass.lastPulled?, List.findRev?_eq_find?_reverse, ← Option.isSome_iff_exists,
      List.find?_isSome]
    simpa using hpulled
  obtain ⟨pull, hpull⟩ := hlast
  obtain ⟨hmem, hname⟩ := mem_and_of_findRev? hpull
  have hnull := eq_null_iff_of_pulledValue (hvalue pull hmem)
  rw [e.has_congr (of_decide_eq_true hname)] at hnull
  have hget : n.record.get? name =
      (((keyTexts c text?).findRev? fun a => Text.lowercase a.1 = Text.lowercase name).map
        Prod.snd).or (some (value pull)) := by
    rw [hrecord, get?_insertAll, findRev?_append, findRev?_values, hpull, ← keyTexts]
    cases (keyTexts c text?).findRev? _ <;> rfl
  rcases findRev?_keyTexts htext name with ⟨hkey, other, text, hfound⟩ | ⟨hkey, hfound⟩
  · exact ⟨pull, .single text, hpull, by rw [hget, hfound]; rfl, by simp [hkey]⟩
  · exact ⟨pull, value pull, hpull, by rw [hget, hfound]; rfl, by simp [hnull, hkey]⟩

end Normalized

/-! ## Catalogs -/

theorem DirectoryProfile.name_of_parse {name : String} {props : Properties} {p : DirectoryProfile}
    (h : parse name props = .ok p) : p.name = name := by
  obtain ⟨host, -, h⟩ := exists_of_bind_eq_ok h
  obtain ⟨port, -, h⟩ := exists_of_bind_eq_ok h
  obtain ⟨authentication, -, h⟩ := exists_of_bind_eq_ok h
  obtain ⟨⟨username, password⟩, -, h⟩ := exists_of_bind_eq_ok h
  obtain ⟨users, -, h⟩ := exists_of_bind_eq_ok h
  obtain ⟨groups, -, h⟩ := exists_of_bind_eq_ok h
  cases h
  rfl

/-- Two loaded profiles of one name are the same. -/
theorem DirectoryCatalog.eq_of_mem_load {props : Properties} {names : List String}
    {p q : DirectoryProfile} (hp : p ∈ (load props names).profiles)
    (hq : q ∈ (load props names).profiles) (h : q.name = p.name) : q = p := by
  have hparse : ∀ r ∈ (load props names).profiles, DirectoryProfile.parse r.name props = .ok r := by
    intro r hr
    obtain ⟨name, -, hname⟩ := List.mem_filterMap.mp hr
    cases hparse : DirectoryProfile.parse name props with
    | error fault => simp [hparse, Except.toOption] at hname
    | ok r' =>
        obtain rfl : r' = r := by simpa [hparse, Except.toOption] using hname
        rwa [DirectoryProfile.name_of_parse hparse]
  have hsame := hparse q hq
  rw [h, hparse p hp] at hsame
  exact (Except.ok.inj hsame).symm

/-! ## Routes -/

namespace Routes

variable {catalog : DirectoryCatalog} {backend : Option BackendProfile}

/-- There is a route for each profile and class. -/
theorem mem_directory_build_iff {route : ClassRoute} :
    route ∈ (build catalog backend).directory ↔ ∃ p ∈ catalog.profiles, ∃ kind c,
      p.objectClass? kind = some c ∧ ⟨p.name, kind, lowerNames c.pulls⟩ = route := by
  have hkinds : ∀ kind : ObjectKind, kind = .principal ∨ kind = .group := by
    intro kind
    cases kind <;> simp
  simp [build, ofProfile, hkinds]

/-- The route that is found for a loaded profile and a class is the one of the profile's class. -/
theorem exists_class_of_find? {props : Properties} {names : List String} {p : DirectoryProfile}
    (hp : p ∈ (DirectoryCatalog.load props names).profiles) {kind : ObjectKind} {route : ClassRoute}
    (hfind : ((build (.load props names) backend).directory.reverse.find?
      fun route => route.profile == p.name && route.kind == kind) = some route) :
    ∃ c, p.objectClass? kind = some c ∧ route.names = lowerNames c.pulls := by
  have hmem := List.mem_reverse.mp (List.mem_of_find?_eq_some hfind)
  obtain ⟨q, hq, kind', c, hc, rfl⟩ := mem_directory_build_iff.mp hmem
  have hsame : q.name = p.name ∧ kind' = kind := by simpa using List.find?_some hfind
  obtain ⟨hname, rfl⟩ := hsame
  obtain rfl := DirectoryCatalog.eq_of_mem_load hp hq hname
  exact ⟨c, hc, rfl⟩

/-- **The attributes routed for a profile** of a loaded catalog are those that it pulls. -/
theorem pulled_build {props : Properties} {names : List String} {p : DirectoryProfile}
    (hp : p ∈ (DirectoryCatalog.load props names).profiles) {kind : ObjectKind} {c : ObjectClass}
    (hc : p.objectClass? kind = some c) :
    (build (.load props names) backend).pulled p.name kind = lowerNames c.pulls := by
  unfold pulled
  cases hfind : (build (.load props names) backend).directory.reverse.find?
      fun route => route.profile == p.name && route.kind == kind with
  | none =>
      have hroute : (⟨p.name, kind, lowerNames c.pulls⟩ : ClassRoute) ∈
          (build (.load props names) backend).directory :=
        mem_directory_build_iff.mpr ⟨p, hp, kind, c, hc, rfl⟩
      have hnone := List.find?_eq_none.mp hfind _ (List.mem_reverse.mpr hroute)
      simp at hnone
  | some route =>
      obtain ⟨c', hc', hnames⟩ := exists_class_of_find? hp hfind
      obtain rfl := Option.some.inj (hc'.symm.trans hc)
      exact hnames

/-- Nothing is routed for a class that a loaded profile does not have. -/
theorem pulled_build_of_none {props : Properties} {names : List String} {p : DirectoryProfile}
    (hp : p ∈ (DirectoryCatalog.load props names).profiles) {kind : ObjectKind}
    (hnone : p.objectClass? kind = none) :
    (build (.load props names) backend).pulled p.name kind = [] := by
  unfold pulled
  cases hfind : (build (.load props names) backend).directory.reverse.find?
      fun route => route.profile == p.name && route.kind == kind with
  | none => rfl
  | some route =>
      obtain ⟨c, hc, -⟩ := exists_class_of_find? hp hfind
      rw [hnone] at hc
      contradiction

/-- **What is routed to the directory is on the record**, for every record of an entry that was read
with one of the loaded profiles.  The value is null only where the last attribute pulled under the
name may have one value, the entry has none, and it has no key attribute of the name. -/
theorem exists_value_of_directory {props : Properties} {names : List String} {p : DirectoryProfile}
    (hp : p ∈ (DirectoryCatalog.load props names).profiles) {kind : ObjectKind} {c : ObjectClass}
    (hc : p.objectClass? kind = some c) {e : Entry} {n : Normalized}
    (hn : Normalized.ofEntry p.name c kind e = .ok n) {name : String}
    (hroute : (build (.load props names) backend).route n.record.domain n.record.kind name =
      .directory) :
    ∃ pull value, c.lastPulled? name = some pull ∧ n.record.get? name = some value ∧
      (value = .null ↔
        pull.cardinality = .single ∧ e.has name = false ∧ ¬ c.HasKey e name) := by
  obtain ⟨hdomain, hkind⟩ := Normalized.domain_kind_of_ofEntry hn
  rw [hdomain, hkind, route, pulled_build hp hc] at hroute
  have hlisted : (lowerNames c.pulls).contains (Text.lowercase name) = true := by
    by_contra hnot
    rw [if_neg hnot] at hroute
    split at hroute <;> contradiction
  have hpulled : ∃ pull ∈ c.pulls.attributes, Text.lowercase pull.name = Text.lowercase name := by
    simpa [lowerNames, PullAttributes.names] using hlisted
  exact Normalized.exists_value_of_pulled hn hpulled

end Routes

namespace Reception

/-- One domain; of the people, one attribute is pulled twice and one is a key as well. -/
def props : Properties where
  entries :=
    [("DOMAIN_1_host", "dc.local"), ("DOMAIN_1_port", "389"), ("DOMAIN_1_authentication", "none"),
      ("DOMAIN_1_user_search_base", "dc=local"), ("DOMAIN_1_user_filter", "objectClass=person"),
      ("DOMAIN_1_user_key_attributes", "cs:uid"),
      ("DOMAIN_1_user_attributes_to_pull", "multi:cn,multi:mail,single:Uid,single:CN")]

def people : ObjectClass where
  searchBases := ["dc=local"]
  filter := "objectClass=person"
  keys := [⟨"uid", true⟩]
  pulls := ⟨[⟨"cn", .single⟩, ⟨"mail", .multi⟩, ⟨"Uid", .single⟩]⟩

def profile : DirectoryProfile where
  name := "DOMAIN_1"
  host := "dc.local"
  port := 389
  useTls := false
  authentication := "none"
  username := none
  encryptedPassword := none
  includeDisabled := false
  users := people
  groups := none

def jake : Entry :=
  .of "uid=jake" [("uid", [.text "jake"])]

def jakeNormalized : Normalized where
  record := Normalized.insertAll { domain := "DOMAIN_1", id := "DOMAIN_1#jake", kind := .principal }
    [("cn", .null), ("mail", .multi []), ("uid", .single "jake")]
  aliases := ["jake"]

end Reception

open Reception in
/-- Jake's common name is routed to the directory, in any spelling; he has none, and it is null. -/
theorem Routes.exists_value_of_directory_for_jake :
    profile ∈ (DirectoryCatalog.load props []).profiles ∧
      Normalized.ofEntry profile.name people .principal jake = .ok jakeNormalized ∧
      (Routes.build (.load props []) none).route "DOMAIN_1" .principal "CN" = .directory ∧
      ∃ pull value, people.lastPulled? "CN" = some pull ∧
        jakeNormalized.record.get? "CN" = some value ∧
        (value = .null ↔
          pull.cardinality = .single ∧ jake.has "CN" = false ∧ ¬ people.HasKey jake "CN") := by
  have hp : profile ∈ (DirectoryCatalog.load props []).profiles := by decide +kernel
  have hn : Normalized.ofEntry profile.name people .principal jake = .ok jakeNormalized := by
    decide +kernel
  have hroute : (Routes.build (.load props []) none).route "DOMAIN_1" .principal "CN" =
      .directory := by
    decide +kernel
  exact ⟨hp, hn, hroute, Routes.exists_value_of_directory hp rfl hn hroute⟩

end AttrFederation
