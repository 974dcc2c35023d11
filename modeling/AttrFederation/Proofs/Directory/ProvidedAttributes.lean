import AttrFederation.Proofs.Directory.RoutedAttributes
import AttrFederation.Proofs.Text

/-!
# Providers and routes

Which profiles are asked for an attribute is decided twice.  A query goes to the profiles that pull
the attribute (`DirectoryCatalog.providersOf`), which compares names up to ASCII case.  An answer is
read off the record if the attribute is routed to the directory (`Routes.route`), which looks up the
name in lower case.

Names in ASCII are the same to both, so the two decisions agree on every loaded profile and class:
* `DirectoryProfile.provides_iff` and `Routes.route_eq_directory_iff` reduce each to the list of the
  pull attributes;
* `DirectoryCatalog.providersOf_eq_routed` — the providers are the profiles that the attribute is
  routed to, in configuration order.
-/

namespace AttrFederation

/-- The names of the attributes that a profile pulls for a class are in ASCII. -/
def DirectoryProfile.AsciiPulls (p : DirectoryProfile) (kind : ObjectKind) : Prop :=
  ∀ c ∈ p.objectClass? kind, ∀ name ∈ c.pulls.names, Text.IsAscii name

instance (p : DirectoryProfile) (kind : ObjectKind) : Decidable (p.AsciiPulls kind) :=
  inferInstanceAs (Decidable (∀ c ∈ p.objectClass? kind, ∀ name ∈ c.pulls.names, Text.IsAscii name))

namespace PullAttributes

theorem contains_iff {ps : PullAttributes} {name : String} :
    ps.contains name = true ↔ ∃ listed ∈ ps.names, Text.asciiEq listed name = true := by
  simp [contains, get?, names]

/-- **One list, two look-ups**: where all names are in ASCII, one up to ASCII case finds what one in
lower case finds. -/
theorem contains_iff_lowerNames {ps : PullAttributes} {name : String} (hname : Text.IsAscii name)
    (hlisted : ∀ listed ∈ ps.names, Text.IsAscii listed) :
    ps.contains name = true ↔ (Routes.lowerNames ps).contains (Text.lowercase name) = true := by
  rw [contains_iff, Routes.lowerNames, List.contains_iff_mem, List.mem_map]
  refine exists_congr fun listed => and_congr_right fun hmem => ?_
  exact Text.asciiEq_iff_lowercase_eq (hlisted listed hmem) hname

end PullAttributes

namespace Routes

variable {backend : Option BackendProfile}

/-- The directory counts before the backend. -/
theorem route_eq_directory_iff {r : Routes} {profile : String} {kind : ObjectKind} {name : String} :
    r.route profile kind name = .directory ↔
      (r.pulled profile kind).contains (Text.lowercase name) = true := by
  unfold route
  cases (r.pulled profile kind).contains (Text.lowercase name) with
  | true => simp
  | false => cases r.isBackend name <;> simp

/-- **A profile provides what is routed to the directory for it**, also if it lacks the class. -/
theorem provides_iff_route {props : Properties} {names : List String} {p : DirectoryProfile}
    (hp : p ∈ (DirectoryCatalog.load props names).profiles) {kind : ObjectKind} {name : String}
    (hname : Text.IsAscii name) (hpulls : p.AsciiPulls kind) :
    DirectoryCatalog.provides p name kind = true ↔
      (build (.load props names) backend).route p.name kind name = .directory := by
  rw [route_eq_directory_iff]
  unfold DirectoryCatalog.provides
  -- Without the class the profile provides nothing, and the build adds no table of pulls for it.
  cases hclass : p.objectClass? kind with
  | none => simp [pulled_build_of_none hp hclass]
  | some c =>
      rw [pulled_build hp hclass]
      exact PullAttributes.contains_iff_lowerNames hname (hpulls c hclass)

end Routes

namespace DirectoryCatalog

theorem profiles_load_of_multiDomain {props : Properties} {names : List String}
    (h : (load props names).multiDomain = true) :
    (load props names).profiles =
      names.filterMap fun name => (DirectoryProfile.parse name props).toOption := by
  have hne : names.isEmpty = false := by simpa [load] using h
  simp [load, namesToLoad, hne]

/-- **Providers and routes agree.**  With several domains and names in ASCII, a loaded profile is
asked for an attribute of a class exactly if the attribute is routed to the directory for its
records of the class, and the profiles are asked in configuration order. -/
theorem providersOf_eq_routed {props : Properties} {names : List String}
    (hmulti : (load props names).multiDomain = true) (backend : Option BackendProfile)
    (kind : ObjectKind) {attributeName : String} (hattribute : Text.IsAscii attributeName)
    (hpulls : ∀ p ∈ (load props names).profiles, p.AsciiPulls kind) :
    (∀ p ∈ (load props names).profiles,
      p ∈ (load props names).providersOf attributeName kind ↔
        (Routes.build (load props names) backend).route p.name kind attributeName = .directory) ∧
    (load props names).providersOf attributeName kind =
      (names.filterMap fun name => (DirectoryProfile.parse name props).toOption).filter fun p =>
        (Routes.build (load props names) backend).route p.name kind attributeName = .directory := by
  have hproviders : (load props names).providersOf attributeName kind =
      (load props names).profiles.filter fun p => provides p attributeName kind := by
    rw [providersOf, if_pos hmulti]
  have hagrees : ∀ p ∈ (load props names).profiles, provides p attributeName kind = true ↔
      (Routes.build (load props names) backend).route p.name kind attributeName = .directory :=
    fun p hp => Routes.provides_iff_route hp hattribute (hpulls p hp)
  constructor
  · intro p hp
    rw [hproviders, List.mem_filter, ← hagrees p hp, and_iff_right hp]
  · rw [hproviders, ← profiles_load_of_multiDomain hmulti]
    refine List.filter_congr fun p hp => ?_
    rw [Bool.eq_iff_iff, hagrees p hp, decide_eq_true_iff]

end DirectoryCatalog

namespace Labs

/-- Two domains: one without groups, and one whose groups have what the people of the other have. -/
def props : Properties where
  entries :=
    [("CORP_host", "corp.local"), ("CORP_port", "389"), ("CORP_authentication", "none"),
      ("CORP_user_search_base", "dc=corp"), ("CORP_user_filter", "objectClass=person"),
      ("CORP_user_key_attributes", "cs:uid"), ("CORP_user_attributes_to_pull", "multi:mail"),
      ("LAB_host", "lab.local"), ("LAB_port", "389"), ("LAB_authentication", "none"),
      ("LAB_user_search_base", "dc=lab"), ("LAB_user_filter", "objectClass=person"),
      ("LAB_user_key_attributes", "cs:uid"), ("LAB_user_attributes_to_pull", "single:phone"),
      ("LAB_group_search_base", "ou=teams"), ("LAB_group_filter", "objectClass=group"),
      ("LAB_group_key_attributes", "cs:cn"), ("LAB_group_attributes_to_pull", "multi:Mail")]

def catalog : DirectoryCatalog :=
  .load props ["CORP", "LAB"]

end Labs

open Labs in
/-- Of groups only one domain has the attribute, in any spelling. -/
theorem DirectoryCatalog.providersOf_eq_routed_of_labs :
    catalog.multiDomain = true ∧ Text.IsAscii "mAIL" ∧
    (∀ p ∈ catalog.profiles, p.AsciiPulls .group) ∧
    (catalog.providersOf "mAIL" .group).map DirectoryProfile.name = ["LAB"] ∧
    ∀ p ∈ catalog.profiles, p ∈ catalog.providersOf "mAIL" .group ↔
      (Routes.build catalog none).route p.name .group "mAIL" = .directory := by
  have hascii : Text.IsAscii "mAIL" := by decide +kernel
  have hpulls : ∀ p ∈ catalog.profiles, p.AsciiPulls .group := by decide +kernel
  have hmulti : (load props ["CORP", "LAB"]).multiDomain = true := rfl
  have hagree := providersOf_eq_routed hmulti none .group hascii hpulls
  refine ⟨hmulti, hascii, hpulls, ?_, hagree.1⟩
  rw [catalog, hagree.2]
  decide +kernel

end AttrFederation
