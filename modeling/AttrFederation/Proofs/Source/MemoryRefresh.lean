import AttrFederation.Proofs.Source.MemoryPages

/-!
# Refreshing from a directory in memory

What a refresh of all domains does with a directory in memory is known beforehand.  `visits` says
for each profile how often its domain is tried and whether it is reached, from the outages of the
domains and the retries alone; the rest is read off the domains that are reached.

One attempt, the attempts at one domain and the domains one after another are followed in this order
(`refreshDomain_alone`, `attempts_visit`, `refreshDomains_visits`).
-/

namespace AttrFederation

/-! ## Outages -/

namespace Outage

/-- The connections asked for with so many retries. -/
def tries (retries : Nat) : Outage → Nat
  | .times n => min n retries + 1
  | .lasting => retries + 1

/-- So many retries get over the outage. -/
def admits (retries : Nat) : Outage → Bool
  | .times n => n ≤ retries
  | .lasting => false

/-- What is left of an outage after that. -/
def spent (retries : Nat) : Outage → Outage
  | .times n => .times (n - (retries + 1))
  | .lasting => .lasting

/-- After a refused connection it is as if there were one retry less. -/
theorem of_refused {outage : Outage} (h : outage.admits 0 = false) (retries : Nat) :
    (outage.spent 0).tries retries + 1 = outage.tries (retries + 1) ∧
      (outage.spent 0).admits retries = outage.admits (retries + 1) ∧
      (outage.spent 0).spent retries = outage.spent (retries + 1) := by
  cases outage with
  | lasting => exact ⟨rfl, rfl, rfl⟩
  | times n =>
      simp only [admits, decide_eq_false_iff_not] at h
      simp only [tries, admits, spent, decide_eq_decide, times.injEq]
      omega

/-- Without an outage the first connection is accepted, and that is all. -/
theorem of_accepted {outage : Outage} (h : outage.admits 0 = true) (retries : Nat) :
    outage.tries retries = 1 ∧ outage.admits retries = true ∧ outage.spent retries = outage := by
  cases outage with
  | lasting => contradiction
  | times n =>
      simp only [admits, decide_eq_true_eq] at h
      simp only [tries, admits, spent, decide_eq_true_eq, times.injEq]
      omega

end Outage

/-! ## Visits -/

/-- What becomes of a profile in a refresh. -/
structure Visit where
  profile : DirectoryProfile
  /-- The connections asked for. -/
  tries : Nat
  /-- The domain accepted one of them. -/
  reached : Bool
deriving DecidableEq

namespace Visit

variable (content : String → SearchRequest → List Entry)

/-- What is read of the domain. -/
def listing (v : Visit) : List Listing :=
  if v.reached then v.profile.listing (content v.profile.name) else []

/-- What is reported of the domain, if it is reached. -/
def counts? (v : Visit) : Option DomainCounts :=
  if v.reached then some (v.profile.domainCounts (content v.profile.name)) else none

theorem listing_of_not_reached {v : Visit} (h : v.reached = false) : v.listing content = [] := by
  rw [listing, h]
  rfl

/-- How often a domain was tried does not matter for what was read of it. -/
theorem read_congr {v v' : Visit} (hprofile : v.profile = v'.profile)
    (hreached : v.reached = v'.reached) :
    v.counts? content = v'.counts? content ∧ v.listing content = v'.listing content := by
  simp only [counts?, listing, hprofile, hreached, and_self]

end Visit

/-- The summary of a refresh with some visits. -/
def RefreshSummary.ofVisits (content : String → SearchRequest → List Entry) (visits : List Visit) :
    RefreshSummary where
  refreshed := visits.filterMap fun v => (v.counts? content).map (v.profile.name, ·)
  failed := (visits.filter fun v => !v.reached).map fun v => v.profile.name

/-- One summary after another. -/
def RefreshSummary.append (first second : RefreshSummary) : RefreshSummary where
  refreshed := first.refreshed ++ second.refreshed
  failed := first.failed ++ second.failed

/-- The outcome of a visited domain is added to what is before and what comes after. -/
theorem RefreshSummary.add_append_ofVisits {content : String → SearchRequest → List Entry}
    {visit : Visit} {outcome : Except SourceError DomainCounts}
    (h : outcome.toOption = visit.counts? content) (summary : RefreshSummary)
    (visits : List Visit) :
    (summary.add visit.profile.name outcome).append (.ofVisits content visits) =
      summary.append (.ofVisits content (visit :: visits)) := by
  unfold Visit.counts? at h
  cases outcome <;> cases hreached : visit.reached <;>
    simp_all [Except.toOption, add, append, ofVisits, Visit.counts?]

namespace MemoryDirectory

/-- The directory after a domain was visited with so many retries. -/
def visited (m : MemoryDirectory) (retries : Nat) (name : String) : MemoryDirectory :=
  m.update name fun d =>
    { d with outage := d.outage.spent retries, connects := d.connects + d.outage.tries retries }

/-- The visit of a profile. -/
def visit (m : MemoryDirectory) (retries : Nat) (profile : DirectoryProfile) : Visit :=
  let outage := (m.domain profile.name).outage
  ⟨profile, outage.tries retries, outage.admits retries⟩

/-- The visits of profiles one after another. -/
def visits (retries : Nat) : MemoryDirectory → List DirectoryProfile → List Visit
  | _, [] => []
  | m, profile :: profiles =>
    m.visit retries profile :: visits retries (m.visited retries profile.name) profiles

/-- The directory after them. -/
def visitedAll (retries : Nat) (m : MemoryDirectory) (profiles : List DirectoryProfile) :
    MemoryDirectory :=
  profiles.foldl (fun m profile => m.visited retries profile.name) m

/-! ## Connecting -/

theorem accept_eq (m : MemoryDirectory) (settings : ConnectionSettings) :
    m.accept settings =
      (if (m.domain settings.domain).outage.admits 0 then .ok ()
        else .error (.transient (settings.url ++ " is unreachable")),
        m.visited 0 settings.domain) := by
  simp only [accept, visited, update]
  split <;> next h => simp [h, Outage.admits, Outage.spent, Outage.tries]

/-- Visiting a domain does not change what is under its bases. -/
theorem entries_visited (m : MemoryDirectory) (retries : Nat) (name other : String) :
    ((m.visited retries name).domain other).entries = (m.domain other).entries := by
  rw [visited, domain_update]
  split
  · next heq => rw [heq]
  · rfl

/-- What domains deliver depends on their entries only. -/
theorem delivered_visited (m : MemoryDirectory) (retries : Nat) (name : String)
    (pageSize : UInt32) : (m.visited retries name).delivered pageSize = m.delivered pageSize := by
  funext other request
  simp only [delivered, MemoryDomain.under, entries_visited]

theorem Alike.visited {m m' : MemoryDirectory} (h : m.Alike m') (retries : Nat) (name : String) :
    (m.visited retries name).Alike (m'.visited retries name) := by
  intro other
  simp only [MemoryDirectory.visited, domain_update]
  split
  · simp only [(h name).1, (h name).2.1, (h name).2.2, and_self]
  · exact h other

/-- A refused connection, then a visit with one retry less. -/
theorem visit_of_refused {m : MemoryDirectory} {profile : DirectoryProfile}
    (h : (m.visit 0 profile).reached = false) (retries : Nat) :
    ((m.visited 0 profile.name).visit retries profile).reached =
        (m.visit (retries + 1) profile).reached ∧
      (m.visited (retries + 1) profile.name).Alike
        ((m.visited 0 profile.name).visited retries profile.name) := by
  obtain ⟨htries, hadmits, hspent⟩ := Outage.of_refused h retries
  have hfirst : (m.domain profile.name).outage.tries 0 = 1 := by
    cases (m.domain profile.name).outage <;> simp [Outage.tries]
  refine ⟨?_, fun other => ?_⟩
  · simp only [visit, visited, domain_update, if_true, hadmits]
  · simp only [visited, domain_update]
    split
    · simp only [if_true, hspent, ← htries, hfirst]
      exact ⟨trivial, trivial, by omega⟩
    · exact ⟨rfl, rfl, rfl⟩

/-- A connection that is accepted at once is the whole visit. -/
theorem visit_of_accepted {m : MemoryDirectory} {profile : DirectoryProfile}
    (h : (m.visit 0 profile).reached = true) (retries : Nat) :
    (m.visit retries profile).reached = true ∧
      (m.visited retries profile.name).Alike (m.visited 0 profile.name) := by
  obtain ⟨htries, hadmits, hspent⟩ := Outage.of_accepted h retries
  obtain ⟨htries₀, -, hspent₀⟩ := Outage.of_accepted h 0
  refine ⟨hadmits, fun other => ?_⟩
  simp only [visited, domain_update]
  split
  · simp only [hspent, htries, hspent₀, htries₀, and_self]
  · exact ⟨rfl, rfl, rfl⟩

/-- Another account of the directory is kept. -/
theorem Alike.set {δ : Type} {m m' : MemoryDirectory} {field : Field δ MemoryDirectory} {s : δ}
    (h : m.Alike (field.get s)) (h' : (field.get s).Alike m') :
    m.Alike (field.get (field.set m' s)) := by
  rw [field.get_set]
  exact h.trans h'

/-- Connections serve the directory as long as nothing but its account of them changes. -/
theorem connection_serves_alike {δ : Type} (m : MemoryDirectory) (field : Field δ MemoryDirectory)
    (name : String) (pageSize : UInt32) :
    (connection (World.sourcesField.comp field) name).Serves (fun s => m.Alike (field.get s))
      (fun _ => False) pageSize (m.delivered pageSize name) :=
  connection_serves (fun _ _ => Alike.set) (fun _ h name => (h name).1) name pageSize

end MemoryDirectory

/-! ## Reading domains -/

/-- A domain was visited: it was read if it was reached, and what it keeps account of is as after
the visit. -/
structure World.Visited {δ : Type} (field : Field δ MemoryDirectory) (pageSize : UInt32)
    (retries : Nat) (profile : DirectoryProfile) (m : MemoryDirectory) (w : World δ)
    (outcome : Except SourceError DomainCounts) (w' : World δ) : Prop where
  counts : outcome.toOption = (m.visit retries profile).counts? (m.delivered pageSize)
  stores : w.cache.Stores
    (Listing.stores ((m.visit retries profile).listing (m.delivered pageSize))) w'.cache
  alike : (m.visited retries profile.name).Alike (field.get w'.sources)

namespace DirectorySource

open MemoryDirectory (Alike)

variable {δ : Type} {field : Field δ MemoryDirectory} {d : DirectorySource δ}

section Memory

variable (hclient : d.client = MemoryDirectory.client (World.sourcesField.comp field))
  {m : MemoryDirectory} {w : World δ}

include hclient

/-- **One attempt** is a visit without retries.  If it fails, another one may succeed. -/
theorem refreshDomain_visit (profile : DirectoryProfile) (hw : m.Alike (field.get w.sources)) :
    (d.refreshDomain profile).Achieves World.Undisturbed w fun outcome w' =>
      w.Visited field d.pageSize 0 profile m outcome w' ∧
        ∀ e, outcome = .error e → e.retryable = true := by
  rw [refreshDomain, hclient]
  intro w₁ hw₁
  have hm : m.Alike (field.get w₁.sources) := by
    rw [hw₁.2.1]
    exact hw
  have hvisited := hm.visited 0 profile.name
  have houtage : ((field.get w₁.sources).domain profile.name).outage =
      (m.domain profile.name).outage := (hm profile.name).2.1
  simp only [Field.comp, World.sourcesField, MemoryDirectory.accept_eq]
  rw [show profile.connectionSettings.domain = profile.name from rfl, houtage]
  cases hadmits : (m.domain profile.name).outage.admits 0 with
  | false =>
      refine ⟨⟨?_, ?_, ?_⟩, ?_⟩
      · simp [MemoryDirectory.visit, Visit.counts?, hadmits, Except.toOption]
      · simp only [MemoryDirectory.visit, Visit.listing, hadmits]
        exact .of_eq hw₁.1
      · simpa only [field.get_set] using hvisited
      · rintro e ⟨rfl⟩
        rfl
  | true =>
      have hserves := (m.visited 0 profile.name).connection_serves_alike field profile.name
        d.pageSize
      rw [MemoryDirectory.delivered_visited] at hserves
      refine (closed_reads hserves (enumerateDomain_reads hserves ?_)).mono ?_
      · simpa only [field.get_set] using hvisited
      · rintro (e | counts) w' ⟨seen, -, hstores, hinv, houtcome⟩
        · exact houtcome.elim
        · obtain ⟨rfl, rfl⟩ := houtcome
          refine ⟨⟨?_, ?_, hinv⟩, by simp⟩
          · simp [MemoryDirectory.visit, Visit.counts?, hadmits, Except.toOption]
          · simpa [MemoryDirectory.visit, Visit.listing, hadmits] using hw₁.1 ▸ hstores

/-- **The attempts at a domain** are a visit with retries. -/
theorem attempts_visit (profile : DirectoryProfile) (interval retries : Nat)
    (hw : m.Alike (field.get w.sources)) :
    (RetryPolicy.attempts interval (d.refreshDomain profile) retries).Achieves World.Undisturbed w
      (w.Visited field d.pageSize retries profile m) := by
  induction retries generalizing m w with
  | zero => exact (refreshDomain_visit hclient profile hw).mono fun outcome w' h => h.1
  | succ retries ih =>
      refine RetryPolicy.achieves_attempts_succ.mpr
        ((refreshDomain_visit hclient profile hw).mono fun outcome w₁ h => ?_)
      obtain ⟨⟨hcounts, hstores, halike⟩, hretryable⟩ := h
      cases hreached : (m.visit 0 profile).reached with
      | true =>
          obtain ⟨hlater, halike'⟩ := MemoryDirectory.visit_of_accepted hreached (retries + 1)
          obtain ⟨hcounts', hlisting'⟩ := Visit.read_congr (m.delivered d.pageSize)
            (show (m.visit (retries + 1) profile).profile = (m.visit 0 profile).profile from rfl)
            (hlater.trans hreached.symm)
          cases outcome with
          | error e => simp [Visit.counts?, hreached, Except.toOption] at hcounts
          | ok counts =>
              exact ⟨hcounts.trans hcounts'.symm, hlisting' ▸ hstores, halike'.trans halike⟩
      | false =>
          obtain ⟨hlater, halike'⟩ := MemoryDirectory.visit_of_refused hreached retries
          obtain ⟨hcounts', hlisting'⟩ := Visit.read_congr (m.delivered d.pageSize)
            (show ((m.visited 0 profile.name).visit retries profile).profile =
              (m.visit (retries + 1) profile).profile from rfl) hlater
          cases outcome with
          | ok counts => simp [Visit.counts?, hreached, Except.toOption] at hcounts
          | error e =>
              simp only [hretryable e rfl, if_true]
              intro w₂ hw₂
              have hw₂' : (m.visited 0 profile.name).Alike (field.get w₂.sources) := by
                rw [hw₂.2.1]
                exact halike
              refine (ih hw₂').mono fun outcome w' h => ⟨?_, ?_, halike'.trans h.alike⟩
              · rw [h.counts, MemoryDirectory.delivered_visited, hcounts']
              · rw [Visit.listing_of_not_reached _ hreached] at hstores
                have hstores' := (hstores.trans (.of_eq hw₂.1)).trans h.stores
                rwa [MemoryDirectory.delivered_visited, hlisting'] at hstores'

/-- **Domains one after another** are visits one after another. -/
theorem refreshDomains_visits (profiles : List DirectoryProfile) (summary : RefreshSummary)
    (hw : m.Alike (field.get w.sources)) :
    (d.refreshDomains profiles summary).Achieves World.Undisturbed w fun result w' =>
      result = summary.append
        (.ofVisits (m.delivered d.pageSize) (m.visits d.retry.retries.toNat profiles)) ∧
      w.cache.Stores (Listing.stores ((m.visits d.retry.retries.toNat profiles).flatMap
        (Visit.listing (m.delivered d.pageSize)))) w'.cache ∧
      (m.visitedAll d.retry.retries.toNat profiles).Alike (field.get w'.sources) := by
  induction profiles generalizing summary m w with
  | nil =>
      refine ⟨?_, .of_eq rfl, hw⟩
      simp [RefreshSummary.ofVisits, RefreshSummary.append, MemoryDirectory.visits]
  | cons profile profiles ih =>
      refine Activity.achieves_bind.mpr
        ((attempts_visit hclient profile _ _ hw).mono fun outcome w₁ h₁ => ?_)
      refine (ih (summary.add profile.name outcome) h₁.alike).mono fun result w' h => ?_
      obtain ⟨hresult, hstores, halike⟩ := h
      rw [MemoryDirectory.delivered_visited] at hresult hstores
      refine ⟨?_, ?_, halike⟩
      · rw [hresult, MemoryDirectory.visits]
        exact RefreshSummary.add_append_ofVisits h₁.counts summary _
      · rw [MemoryDirectory.visits, List.flatMap_cons, Listing.stores_append]
        exact h₁.stores.trans hstores

/-- **A refresh** is the visits of all profiles. -/
theorem refreshAll_visits (henabled : d.refreshEnabled = true)
    (hlock : w.directoryLock.queue = []) (hw : m.Alike (field.get w.sources)) :
    d.refreshAll.Achieves World.Undisturbed w fun summary w' =>
      summary = .ofVisits (m.delivered d.pageSize)
        (m.visits d.retry.retries.toNat d.catalog.profiles) ∧
      w.cache.Stores (Listing.stores ((m.visits d.retry.retries.toNat d.catalog.profiles).flatMap
        (Visit.listing (m.delivered d.pageSize)))) w'.cache ∧
      (m.visitedAll d.retry.retries.toNat d.catalog.profiles).Alike (field.get w'.sources) := by
  refine refreshAll_achieves henabled hlock (P := fun summary cache sources =>
    summary = _ ∧ w.cache.Stores _ cache ∧ Alike _ (field.get sources)) fun w₁ hcache hsources => ?_
  have := refreshDomains_visits hclient (w := w₁) d.catalog.profiles {} (hsources ▸ hw)
  rwa [hcache] at this

end Memory

end DirectorySource

end AttrFederation
