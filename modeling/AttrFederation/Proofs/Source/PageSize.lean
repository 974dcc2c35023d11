import Mathlib.Data.List.Basic
import AttrFederation.Proofs.Cache.Timeless
import AttrFederation.Proofs.Source.MemoryRefresh

/-!
# Refreshes and the page size

With fewer than 2³² entries in each domain a directory in memory delivers all of them, so that a
refresh reads every entry under the bases of the profiles, once and in order.  What it stores and
what it reports do not depend on the page size, and each search ends with its last page
(`refreshAll_complete`).
-/

namespace AttrFederation

/-! ## Content -/

namespace MemoryDirectory

/-- What is under the base of a search in a domain. -/
def content (m : MemoryDirectory) (name : String) (request : SearchRequest) : List Entry :=
  (m.domain name).under request.base

/-- There are few enough entries under every base. -/
theorem length_content_lt {m : MemoryDirectory} {name : String}
    (hsmall : (m.domain name).entries.length < UInt32.size) (request : SearchRequest) :
    (m.content name request).length < UInt32.size := by
  refine Nat.lt_of_le_of_lt ?_ hsmall
  rw [content, MemoryDomain.under, List.length_map]
  exact List.length_filter_le ..

/-- Everything is delivered. -/
theorem delivered_eq_content (m : MemoryDirectory) (pageSize : UInt32) {name : String}
    (hsmall : (m.domain name).entries.length < UInt32.size) :
    m.delivered pageSize name = m.content name :=
  funext fun request => MemoryDomain.pagesFrom_zero pageSize (length_content_lt hsmall request)

/-- Everything is delivered before the pages have run out. -/
theorem connection_delivers_all {δ : Type} (m : MemoryDirectory) (field : Field δ MemoryDirectory)
    (pageSize : UInt32) {name : String} (hsmall : (m.domain name).entries.length < UInt32.size)
    (request : SearchRequest) :
    (connection (World.sourcesField.comp field) name).Delivers (fun s => m.Alike (field.get s))
      (fun _ => False) pageSize request (fun _ => False) DirectorySource.maxPages none
      (m.content name request) := by
  rw [← delivered_eq_content m pageSize hsmall]
  have hends : MemoryDomain.runsOut pageSize (m.content name request) DirectorySource.maxPages 0 =
      false := MemoryDomain.runsOut_zero pageSize (length_content_lt hsmall request)
  exact connection_delivers (fun _ _ => Alike.set) (fun _ h name => (h name).1) name pageSize
    request fun hrest => Bool.false_ne_true (hends.symm.trans hrest)

/-- The profiles are visited in order. -/
theorem map_profile_visits (m : MemoryDirectory) (retries : Nat)
    (profiles : List DirectoryProfile) :
    (m.visits retries profiles).map Visit.profile = profiles := by
  induction profiles generalizing m with
  | nil => rfl
  | cons profile profiles ih => rw [visits, List.map_cons, ih, visit]

/-- Where there is no outage each domain is reached. -/
theorem visits_of_available {m : MemoryDirectory} (retries : Nat)
    {profiles : List DirectoryProfile}
    (h : ∀ profile ∈ profiles, (m.domain profile.name).outage = .times 0) :
    m.visits retries profiles = profiles.map (⟨·, 1, true⟩) := by
  induction profiles generalizing m with
  | nil => rfl
  | cons profile profiles ih =>
      have hfirst := h profile List.mem_cons_self
      rw [visits, List.map_cons, visit, hfirst, ih]
      · simp [Outage.tries, Outage.admits]
      · intro other hother
        rw [visited, domain_update]
        split
        · rw [hfirst]
          simp [Outage.spent]
        · exact h other (List.mem_cons_of_mem _ hother)

end MemoryDirectory

namespace DirectoryProfile

/-- The bases under which the objects of a kind are. -/
def basesOf (p : DirectoryProfile) (kind : ObjectKind) : List String :=
  match p.objectClass? kind with
  | none => []
  | some c => c.searchBases

/-- A listing has as many entries as are under the bases. -/
theorem length_listings (p : DirectoryProfile) (content : String → List Entry) (kind : ObjectKind) :
    (p.listings (fun request => content request.base) kind).length =
      total ((p.basesOf kind).map fun base => (content base).length) := by
  unfold listings basesOf
  cases p.objectClass? kind with
  | none => rfl
  | some c =>
      simp only [listingUnder, enumeration]
      induction c.searchBases with
      | nil => rfl
      | cons base bases ih =>
          rw [List.flatMap_cons, List.length_append, ih, List.map_cons, total_cons,
            Listing.ofEntries, List.length_map]

end DirectoryProfile

namespace RefreshSummary

/-- Only the content of the domains that are visited matters. -/
theorem ofVisits_congr {content content' : String → SearchRequest → List Entry}
    {visits : List Visit} (h : ∀ v ∈ visits, content v.profile.name = content' v.profile.name) :
    ofVisits content visits = ofVisits content' visits ∧
      visits.flatMap (Visit.listing content) = visits.flatMap (Visit.listing content') := by
  refine ⟨congrArg (mk · _) (List.filterMap_congr fun v hv => ?_),
    List.flatMap_congr fun v hv => ?_⟩
  · rw [Visit.counts?, Visit.counts?, h v hv]
  · rw [Visit.listing, Visit.listing, h v hv]

end RefreshSummary

/-! ## Refreshes -/

namespace DirectorySource

variable {δ : Type} {field : Field δ MemoryDirectory} {d : DirectorySource δ}

/-- The visits of a refresh, none if refreshes are off. -/
def visits (d : DirectorySource δ) (m : MemoryDirectory) : List Visit :=
  if d.refreshEnabled then m.visits d.retry.retries.toNat d.catalog.profiles else []

/-- Without outages a refresh visits every profile and reads its whole domain. -/
theorem listing_visits_of_available {m : MemoryDirectory}
    (content : String → SearchRequest → List Entry) (henabled : d.refreshEnabled = true)
    (h : ∀ profile ∈ d.catalog.profiles, (m.domain profile.name).outage = .times 0) :
    (d.visits m).flatMap (Visit.listing content) =
      d.catalog.profiles.flatMap fun profile => profile.listing (content profile.name) := by
  rw [visits, if_pos henabled, MemoryDirectory.visits_of_available _ h, List.flatMap_map]
  rfl

/-- The source with another page size. -/
def withPageSize (d : DirectorySource δ) (pageSize : UInt32) : DirectorySource δ :=
  { d with pageSize }

section Memory

variable {w : World δ}
  (hsmall : ∀ profile ∈ d.catalog.profiles,
    ((field.get w.sources).domain profile.name).entries.length < UInt32.size)

include hsmall

/-- With few enough entries each class is counted in full: an entry is stored or skipped. -/
theorem enumerate_content {profile : DirectoryProfile} (hprofile : profile ∈ d.catalog.profiles)
    (kind : ObjectKind) :
    (d.enumerate (MemoryDirectory.connection (World.sourcesField.comp field) profile.name) profile
      kind).Achieves World.Undisturbed w fun outcome _ =>
        ∃ counts : EntryCounts, outcome = .ok counts ∧
          counts.stored + counts.skipped = total ((profile.basesOf kind).map fun base =>
            (((field.get w.sources).domain profile.name).under base).length) := by
  have hserves := (field.get w.sources).connection_serves_alike field profile.name d.pageSize
  refine (enumerate_reads hserves kind (MemoryDirectory.alike_refl _)).mono ?_
  rintro (e | counts) w' ⟨seen, -, -, -, houtcome⟩
  · exact houtcome.elim
  · obtain ⟨-, rfl⟩ := houtcome
    refine ⟨_, rfl, ?_⟩
    rw [Listing.stored_add_skipped,
      MemoryDirectory.delivered_eq_content _ _ (hsmall profile hprofile)]
    exact profile.length_listings ((field.get w.sources).domain profile.name).under kind

/-- With few enough entries a search ends with its last page, whatever stands where it would end if
the pages had run out. -/
theorem readPagesOr_content {profile : DirectoryProfile} (hprofile : profile ∈ d.catalog.profiles)
    (c : ObjectClass) (kind : ObjectKind) (base : String) (counts : EntryCounts)
    (otherwise : EntryCounts → Activity (World δ) (Except SourceError EntryCounts)) {v : World δ}
    (hv : (field.get w.sources).Alike (field.get v.sources)) :
    (readPagesOr otherwise (MemoryDirectory.connection (World.sourcesField.comp field) profile.name)
      profile c kind d.pageSize base maxPages none counts).Achieves World.Undisturbed v
        fun outcome _ => outcome = .ok (counts.add (Listing.counts (Listing.ofEntries profile.name c
          kind (((field.get w.sources).domain profile.name).under base)))) := by
  have hdelivers := (field.get w.sources).connection_delivers_all field d.pageSize
    (hsmall profile hprofile) (profile.enumeration c base)
  refine (readPagesOr_reads (fun hnever _ => hnever.elim) counts hdelivers hv).mono ?_
  rintro (e | total) v' ⟨seen, -, -, -, houtcome⟩
  · exact houtcome.elim
  · rw [houtcome.2]
    rfl

variable (hclient : d.client = MemoryDirectory.client (World.sourcesField.comp field))
  (hlock : w.directoryLock.queue = [])

include hclient hlock

/-- With few enough entries a refresh reads the content of the domains it reaches. -/
theorem refreshAll_content :
    d.refreshAll.Achieves World.Undisturbed w fun summary w' =>
      summary = .ofVisits (field.get w.sources).content (d.visits (field.get w.sources)) ∧
      w.cache.Stores (Listing.stores ((d.visits (field.get w.sources)).flatMap
        (Visit.listing (field.get w.sources).content))) w'.cache := by
  cases henabled : d.refreshEnabled with
  | false =>
      rw [refreshAll, henabled, visits, henabled]
      exact ⟨rfl, .of_eq rfl⟩
  | true =>
      rw [visits, if_pos henabled]
      refine (refreshAll_visits hclient henabled hlock (MemoryDirectory.alike_refl _)).mono ?_
      rintro summary w' ⟨rfl, hstores, -⟩
      have hsame : ∀ v ∈ (field.get w.sources).visits d.retry.retries.toNat d.catalog.profiles,
          (field.get w.sources).delivered d.pageSize v.profile.name =
            (field.get w.sources).content v.profile.name := by
        intro v hv
        have hprofile := List.mem_map_of_mem (f := Visit.profile) hv
        rw [MemoryDirectory.map_profile_visits] at hprofile
        exact MemoryDirectory.delivered_eq_content _ _ (hsmall _ hprofile)
      obtain ⟨hsummary, hlistings⟩ := RefreshSummary.ofVisits_congr hsame
      exact ⟨hsummary, hlistings ▸ hstores⟩

/-- **Enumerations are complete and do not depend on the page size**, whatever it is.  A refresh
from a directory in memory comes to its end, and then:

* the summary and the sequence of stored entries are those of the content of the domains reached,
  which without outages are all of them: every entry under the bases of each profile, principals
  before groups, base by base and in the order in which they were added;
* another page size gives the same summary and the same cache up to instants;
* of each class as many entries are stored and skipped together as there are under its bases;
* no search is cut short: it ends with its last page, as it would with anything else in the place of
  the end to which it comes when its pages have run out. -/
theorem refreshAll_complete (pageSize : UInt32) :
    (d.refreshAll.Achieves World.Undisturbed w fun summary w' =>
      summary = .ofVisits (field.get w.sources).content (d.visits (field.get w.sources)) ∧
      w.cache.Stores (Listing.stores ((d.visits (field.get w.sources)).flatMap
        (Visit.listing (field.get w.sources).content))) w'.cache ∧
      (d.withPageSize pageSize).refreshAll.Achieves World.Undisturbed w fun summary' v' =>
        summary' = summary ∧ v'.cache.timeless = w'.cache.timeless) ∧
    (d.refreshEnabled = true →
      (∀ profile ∈ d.catalog.profiles,
        ((field.get w.sources).domain profile.name).outage = .times 0) →
      (d.visits (field.get w.sources)).flatMap (Visit.listing (field.get w.sources).content) =
        d.catalog.profiles.flatMap fun profile =>
          profile.listing ((field.get w.sources).content profile.name)) ∧
    (∀ profile ∈ d.catalog.profiles, ∀ kind,
      (d.enumerate (MemoryDirectory.connection (World.sourcesField.comp field) profile.name) profile
        kind).Achieves World.Undisturbed w fun outcome _ =>
          ∃ counts : EntryCounts, outcome = .ok counts ∧
            counts.stored + counts.skipped = total ((profile.basesOf kind).map fun base =>
              (((field.get w.sources).domain profile.name).under base).length)) ∧
    ∀ profile ∈ d.catalog.profiles, ∀ (c : ObjectClass) (kind : ObjectKind) (base : String)
      (counts : EntryCounts)
      (otherwise : EntryCounts → Activity (World δ) (Except SourceError EntryCounts)) (v : World δ),
      (field.get w.sources).Alike (field.get v.sources) →
      (readPagesOr otherwise
        (MemoryDirectory.connection (World.sourcesField.comp field) profile.name) profile c kind
        d.pageSize base maxPages none counts).Achieves World.Undisturbed v fun outcome _ =>
          outcome = .ok (counts.add (Listing.counts (Listing.ofEntries profile.name c kind
            (((field.get w.sources).domain profile.name).under base)))) := by
  refine ⟨?_, listing_visits_of_available _, fun profile hprofile kind => ?_,
    fun profile hprofile c kind base counts otherwise v hv => ?_⟩
  · refine (refreshAll_content hsmall hclient hlock).mono ?_
    rintro summary w' ⟨rfl, hstores⟩
    refine ⟨rfl, hstores, ?_⟩
    refine (refreshAll_content (d := d.withPageSize pageSize) hsmall hclient hlock).mono ?_
    rintro summary' v' ⟨rfl, hstores'⟩
    exact ⟨rfl, hstores.timeless_eq hstores'⟩
  · exact enumerate_content hsmall hprofile kind
  · exact readPagesOr_content hsmall hprofile c kind base counts otherwise hv

end Memory

end DirectorySource

/-! ## An office -/

namespace Office

/-- Staff and guests. -/
def people : ObjectClass where
  searchBases := ["ou=staff", "ou=guests"]
  filter := "objectClass=person"
  keys := [⟨"uid", true⟩]
  pulls := ⟨[⟨"mail", .multi⟩, ⟨"objectSid", .single⟩]⟩

def teams : ObjectClass where
  searchBases := ["ou=teams"]
  filter := "objectClass=group"
  keys := [⟨"cn", false⟩]
  pulls := ⟨[]⟩

/-- The profile of a branch. -/
def branch (name : String) : DirectoryProfile where
  name
  host := "ldap.example"
  port := 389
  useTls := false
  authentication := "none"
  username := none
  encryptedPassword := none
  includeDisabled := true
  users := people
  groups := some teams

def person (uid : String) : Entry :=
  .of ("uid=" ++ uid) [("uid", [.text uid]), ("mail", [.text (uid ++ "@example")])]

/-- The north has three people, one without a proper security identifier, a guest and a team; the
south has one person and refuses two connections. -/
def directory : MemoryDirectory :=
  ((((((MemoryDirectory.addEntry {} "NORTH" "ou=staff" (person "amy")).addEntry
    "NORTH" "ou=guests" (person "kim")).addEntry
    "NORTH" "ou=staff" ((person "jake").push "objectSid" (.binary [1]))).addEntry
    "NORTH" "ou=teams" (.of "cn=night" [("cn", [.text "Night"])])).addEntry
    "NORTH" "ou=staff" (person "bob")).addEntry
    "SOUTH" "ou=staff" (person "sue")).fail "SOUTH" (.times 2)

def state : World MemoryDirectory where
  cache := .ofSettings {}
  sources := directory

/-- The source for some branches, with two retries and pages of two entries. -/
def source (names : List String) : DirectorySource MemoryDirectory where
  client := MemoryDirectory.client (World.sourcesField.comp .whole)
  catalog := .ofProfiles (names.map branch)
  pageSize := 2
  retry := { retries := 2, intervalSecs := 1 }
  refreshEnabled := true

end Office

open Office in
/-- With pages of two entries and with a page size of zero the office is read alike. -/
theorem DirectorySource.refreshAll_complete_of_office :
    (∀ profile ∈ (source ["NORTH", "SOUTH"]).catalog.profiles,
      (directory.domain profile.name).entries.length < UInt32.size) ∧
    (source ["NORTH", "SOUTH"]).refreshAll.Achieves World.Undisturbed state fun summary w' =>
      summary = { refreshed := [("NORTH", ⟨3, 1, 1⟩), ("SOUTH", ⟨1, 0, 0⟩)] } ∧
      ((source ["NORTH", "SOUTH"]).withPageSize 0).refreshAll.Achieves World.Undisturbed state
        fun summary' v' => summary' = summary ∧ v'.cache.timeless = w'.cache.timeless := by
  have hsmall : ∀ profile ∈ (source ["NORTH", "SOUTH"]).catalog.profiles,
      (directory.domain profile.name).entries.length < UInt32.size := by decide +kernel
  have hsummary : RefreshSummary.ofVisits directory.content
      ((source ["NORTH", "SOUTH"]).visits directory) =
        { refreshed := [("NORTH", ⟨3, 1, 1⟩), ("SOUTH", ⟨1, 0, 0⟩)] } := by decide +kernel
  have hclient : (source ["NORTH", "SOUTH"]).client =
      MemoryDirectory.client (World.sourcesField.comp .whole) := rfl
  obtain ⟨hrefresh, -⟩ := refreshAll_complete (w := state) hsmall hclient rfl 0
  refine ⟨hsmall, hrefresh.mono fun summary w' h => ?_⟩
  obtain ⟨rfl, -, hother⟩ := h
  exact ⟨hsummary, hother⟩

end AttrFederation
