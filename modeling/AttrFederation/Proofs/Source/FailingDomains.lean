import AttrFederation.Proofs.Source.PageSize

/-!
# Failing domains

A domain is down when its outage outlasts the retries.  Visits of differently named profiles do not
affect one another (`visits_of_nodup`), and the visit of a domain that is down stores nothing.  So a
refresh does for the others what it does without the failing ones (`refreshAll_isolates`).
-/

namespace AttrFederation

namespace MemoryDirectory

variable (m : MemoryDirectory) (retries : Nat)

/-- The domain of a profile refuses every connection that so many retries ask for. -/
def isDown (profile : DirectoryProfile) : Bool :=
  !(m.domain profile.name).outage.admits retries

/-- A domain that is down is tried once and then for each retry. -/
theorem tries_of_isDown {profile : DirectoryProfile} (h : m.isDown retries profile = true) :
    (m.domain profile.name).outage.tries retries = retries + 1 := by
  unfold isDown at h
  cases houtage : (m.domain profile.name).outage with
  | lasting => rfl
  | times n =>
      simp only [houtage, Outage.admits, Bool.not_eq_true', decide_eq_false_iff_not] at h
      simp only [Outage.tries]
      omega

/-! ## Visits by themselves -/

theorem visit_visited_of_ne {name : String} {profile : DirectoryProfile} (h : profile.name ≠ name) :
    (m.visited retries name).visit retries profile = m.visit retries profile := by
  simp only [visit, visited, domain_update, if_neg h]

/-- Profiles of different names are visited as each would be by itself. -/
theorem visits_of_nodup {profiles : List DirectoryProfile}
    (h : (profiles.map DirectoryProfile.name).Nodup) :
    m.visits retries profiles = profiles.map (m.visit retries) := by
  induction profiles generalizing m with
  | nil => rfl
  | cons profile profiles ih =>
      rw [List.map_cons, List.nodup_cons] at h
      rw [visits, List.map_cons, ih _ h.2]
      refine congrArg _ (List.map_congr_left fun other hother => visit_visited_of_ne m retries ?_)
      rintro heq
      exact h.1 (heq ▸ List.mem_map_of_mem hother)

theorem domain_visitedAll_of_notMem {name : String} {profiles : List DirectoryProfile}
    (h : name ∉ profiles.map DirectoryProfile.name) :
    (m.visitedAll retries profiles).domain name = m.domain name := by
  induction profiles generalizing m with
  | nil => rfl
  | cons profile profiles ih =>
      rw [List.map_cons, List.mem_cons, not_or] at h
      rw [visitedAll, List.foldl_cons]
      exact (ih _ h.2).trans (by rw [visited, domain_update, if_neg h.1])

/-- Each domain is asked for as many connections as in its own visit. -/
theorem connects_visitedAll {profiles : List DirectoryProfile}
    (h : (profiles.map DirectoryProfile.name).Nodup) {profile : DirectoryProfile}
    (hmem : profile ∈ profiles) :
    ((m.visitedAll retries profiles).domain profile.name).connects =
      (m.domain profile.name).connects + (m.domain profile.name).outage.tries retries := by
  induction profiles generalizing m with
  | nil => contradiction
  | cons first rest ih =>
      rw [List.map_cons, List.nodup_cons] at h
      rw [visitedAll, List.foldl_cons]
      rcases List.mem_cons.mp hmem with rfl | hrest
      · rw [← visitedAll, domain_visitedAll_of_notMem _ _ h.1, visited, domain_update, if_pos rfl]
      · have hne : profile.name ≠ first.name := fun heq =>
          h.1 (heq ▸ List.mem_map_of_mem hrest)
        refine (ih _ h.2 hrest).trans ?_
        rw [visited, domain_update, if_neg hne]

end MemoryDirectory

/-! ## Summaries -/

section Visits

variable {content : String → SearchRequest → List Entry} {m : MemoryDirectory} {retries : Nat}
  {profiles : List DirectoryProfile}

theorem Visit.listing_visit_of_isDown {profile : DirectoryProfile}
    (h : m.isDown retries profile = true) : (m.visit retries profile).listing content = [] :=
  listing_of_not_reached content (by simpa [MemoryDirectory.isDown, MemoryDirectory.visit] using h)

/-- The summary of visits, each by itself. -/
theorem RefreshSummary.ofVisits_map_visit :
    ofVisits content (profiles.map (m.visit retries)) =
      { refreshed := (profiles.filter fun p => !m.isDown retries p).map fun p =>
          (p.name, p.domainCounts (content p.name))
        failed := (profiles.filter (m.isDown retries)).map DirectoryProfile.name } := by
  unfold ofVisits
  induction profiles with
  | nil => rfl
  | cons profile profiles ih =>
      rw [RefreshSummary.mk.injEq] at ih
      cases hadmits : (m.domain profile.name).outage.admits retries <;>
        simpa [MemoryDirectory.visit, MemoryDirectory.isDown, Visit.counts?, hadmits] using ih

/-- Without the domains that are down the same is read. -/
theorem listing_visits_filter :
    ((profiles.filter fun p => !m.isDown retries p).map (m.visit retries)).flatMap
        (Visit.listing content) =
      (profiles.map (m.visit retries)).flatMap (Visit.listing content) := by
  induction profiles with
  | nil => rfl
  | cons profile profiles ih =>
      cases hdown : m.isDown retries profile with
      | true => simpa [hdown, Visit.listing_visit_of_isDown hdown] using ih
      | false => simpa [hdown] using ih

end Visits

/-! ## Refreshes -/

namespace DirectorySource

variable {δ : Type} {field : Field δ MemoryDirectory} {d : DirectorySource δ} {w : World δ}

/-- The profile's domain is down for the retries of the source. -/
def isDown (d : DirectorySource δ) (m : MemoryDirectory) (profile : DirectoryProfile) : Bool :=
  m.isDown d.retry.retries.toNat profile

/-- The source without the profiles whose domains are down. -/
def withoutDown (d : DirectorySource δ) (m : MemoryDirectory) : DirectorySource δ :=
  { d with
    catalog := { d.catalog with
      profiles := d.catalog.profiles.filter fun profile => !d.isDown m profile } }

/-- What a refresh of differently named profiles reports and stores, and what it asks of each
domain. -/
theorem refreshAll_of_nodup
    (hclient : d.client = MemoryDirectory.client (World.sourcesField.comp field))
    (henabled : d.refreshEnabled = true) (hlock : w.directoryLock.queue = [])
    (hnames : (d.catalog.profiles.map DirectoryProfile.name).Nodup) :
    d.refreshAll.Achieves World.Undisturbed w fun summary w' =>
      summary =
        { refreshed := (d.catalog.profiles.filter fun p => !d.isDown (field.get w.sources) p).map
            fun p => (p.name,
              p.domainCounts ((field.get w.sources).delivered d.pageSize p.name))
          failed := (d.catalog.profiles.filter (d.isDown (field.get w.sources))).map
            DirectoryProfile.name } ∧
      w.cache.Stores (Listing.stores ((d.catalog.profiles.map
        ((field.get w.sources).visit d.retry.retries.toNat)).flatMap
          (Visit.listing ((field.get w.sources).delivered d.pageSize)))) w'.cache ∧
      ∀ profile ∈ d.catalog.profiles,
        ((field.get w'.sources).domain profile.name).connects =
          ((field.get w.sources).domain profile.name).connects +
            ((field.get w.sources).domain profile.name).outage.tries d.retry.retries.toNat := by
  refine (refreshAll_visits hclient henabled hlock (MemoryDirectory.alike_refl _)).mono ?_
  rintro summary w' ⟨rfl, hstores, halike⟩
  rw [MemoryDirectory.visits_of_nodup _ _ hnames] at hstores ⊢
  refine ⟨RefreshSummary.ofVisits_map_visit, hstores, fun profile hprofile => ?_⟩
  rw [(halike profile.name).2.2, MemoryDirectory.connects_visitedAll _ _ hnames hprofile]

/-- **Failing domains do not affect the others.**  A refresh of differently named profiles from a
directory in memory comes to its end, and then:

* the domains that are down have failed and the others were refreshed, each in configuration order;
* each domain that is down was tried once and then for each retry;
* without the profiles of these domains, a refresh reports the same about the others and leaves the
  same cache up to instants: the same records and the same aliases. -/
theorem refreshAll_isolates
    (hclient : d.client = MemoryDirectory.client (World.sourcesField.comp field))
    (henabled : d.refreshEnabled = true) (hlock : w.directoryLock.queue = [])
    (hnames : (d.catalog.profiles.map DirectoryProfile.name).Nodup) :
    d.refreshAll.Achieves World.Undisturbed w fun summary w' =>
      summary.refreshed.map Prod.fst =
        (d.catalog.profiles.filter fun p => !d.isDown (field.get w.sources) p).map
          DirectoryProfile.name ∧
      summary.failed =
        (d.catalog.profiles.filter (d.isDown (field.get w.sources))).map DirectoryProfile.name ∧
      (∀ profile ∈ d.catalog.profiles, d.isDown (field.get w.sources) profile = true →
        ((field.get w'.sources).domain profile.name).connects =
          ((field.get w.sources).domain profile.name).connects + (d.retry.retries.toNat + 1)) ∧
      (d.withoutDown (field.get w.sources)).refreshAll.Achieves World.Undisturbed w
        fun rest v' => rest.refreshed = summary.refreshed ∧ rest.failed = [] ∧
          v'.cache.timeless = w'.cache.timeless := by
  refine (refreshAll_of_nodup hclient henabled hlock hnames).mono ?_
  rintro summary w' ⟨rfl, hstores, hconnects⟩
  refine ⟨?_, rfl, fun profile hprofile hdown => ?_, ?_⟩
  · rw [List.map_map]
    rfl
  · rw [hconnects profile hprofile, MemoryDirectory.tries_of_isDown _ _ hdown]
  · have hnames' : ((d.withoutDown (field.get w.sources)).catalog.profiles.map
        DirectoryProfile.name).Nodup := hnames.sublist (List.filter_sublist.map _)
    refine (refreshAll_of_nodup (d := d.withoutDown (field.get w.sources)) hclient henabled hlock
      hnames').mono ?_
    rintro rest v' ⟨rfl, hstores', -⟩
    refine ⟨?_, ?_, hstores.timeless_eq ?_⟩
    · simp [withoutDown, isDown, MemoryDirectory.isDown, List.filter_filter]
    · simp [withoutDown, isDown, MemoryDirectory.isDown, List.filter_filter]
    · exact listing_visits_filter ▸ hstores'

end DirectorySource

open Office in
/-- Between two branches that can be reached, one is given up after three attempts. -/
theorem DirectorySource.refreshAll_isolates_of_office :
    (source ["SOUTH", "WEST", "NORTH"]).refreshAll.Achieves World.Undisturbed
        { state with sources := directory.fail "WEST" .lasting }
      fun summary w' =>
        summary.refreshed.map Prod.fst = ["SOUTH", "NORTH"] ∧ summary.failed = ["WEST"] ∧
        (w'.sources.domain "WEST").connects = 3 ∧
        ((source ["SOUTH", "WEST", "NORTH"]).withoutDown
            (directory.fail "WEST" .lasting)).refreshAll.Achieves World.Undisturbed
          { state with sources := directory.fail "WEST" .lasting }
          fun rest v' => rest.refreshed = summary.refreshed ∧ rest.failed = [] ∧
            v'.cache.timeless = w'.cache.timeless := by
  have hnames : ((source ["SOUTH", "WEST", "NORTH"]).catalog.profiles.map
      DirectoryProfile.name).Nodup := by decide
  have hclient : (source ["SOUTH", "WEST", "NORTH"]).client =
      MemoryDirectory.client (World.sourcesField.comp .whole) := rfl
  refine (refreshAll_isolates hclient rfl rfl hnames).mono ?_
  rintro summary w' ⟨hrefreshed, hfailed, hconnects, hrest⟩
  refine ⟨hrefreshed.trans (by decide +kernel), hfailed.trans (by decide +kernel), ?_, hrest⟩
  exact hconnects (branch "WEST") (by decide +kernel) (by decide +kernel)

end AttrFederation
