import AttrFederation.Proofs.Cache.Records
import AttrFederation.Proofs.Source.PageSize

/-!
# Retries after partial enumerations

An attempt that fails has stored a prefix of the listing of its domain, and nothing is taken back.
`attempts_read` follows the attempts: what they store is a series of such prefixes and then, if one
of them succeeds, the whole listing.  The prefixes do not show in the end (`retry_invisible`).
-/

namespace AttrFederation

variable {δ ε : Type}

namespace Listing

/-- Of a partial listing nothing is stored but what is stored of the whole. -/
theorem mem_stores_of_series {series : List (List Listing)} {xs : List Listing}
    (h : ∀ seen ∈ series, seen <+: xs) : ∀ x ∈ stores series.flatten, x ∈ stores xs := by
  intro x hx
  obtain ⟨listing, hlisting, hstored⟩ := List.mem_filterMap.mp hx
  obtain ⟨seen, hseen, hmem⟩ := List.mem_flatten.mp hlisting
  exact List.mem_filterMap.mpr ⟨listing, (h seen hseen).subset hmem, hstored⟩

end Listing

/-- Attempts at a listing were made, at most so many after the first one: each that failed stored a
prefix, and one that succeeded all of it. -/
def World.ReadsAfter {β : Type} (Inv : δ → Prop) (Fault : SourceError → Prop) (xs : List Listing)
    (value : β) (retries : Nat) (w : World δ) (outcome : Except SourceError β) (w' : World δ) :
    Prop :=
  ∃ series : List (List Listing), (∀ seen ∈ series, seen <+: xs) ∧ Inv w'.sources ∧
    match outcome with
    | .ok b => b = value ∧ series.length ≤ retries ∧
        w.cache.Stores (Listing.stores series.flatten ++ Listing.stores xs) w'.cache
    | .error e => Fault e ∧ series.length ≤ retries + 1 ∧
        w.cache.Stores (Listing.stores series.flatten) w'.cache

namespace World

section Reads

variable {β : Type} {Inv : δ → Prop} {Fault : SourceError → Prop} {xs : List Listing} {value : β}
  {w w₁ w' : World δ} {outcome : Except SourceError β} {retries : Nat}

/-- A single attempt. -/
theorem Reads.readsAfter (h : w.Reads Inv Fault xs value outcome w') (retries : Nat) :
    w.ReadsAfter Inv Fault xs value retries outcome w' := by
  obtain ⟨seen, hbegins, hstores, hinv, houtcome⟩ := h
  cases outcome with
  | ok b =>
      obtain ⟨rfl, rfl⟩ := houtcome
      exact ⟨[], by simp, hinv, rfl, Nat.zero_le _, hstores⟩
  | error e =>
      exact ⟨[seen], by simpa using hbegins, hinv, houtcome, by simp, by simpa using hstores⟩

/-- One attempt that failed, then others. -/
theorem ReadsAfter.cons {seen : List Listing} (hbegins : seen <+: xs)
    (hstores : w.cache.Stores (Listing.stores seen) w₁.cache)
    (h : w₁.ReadsAfter Inv Fault xs value retries outcome w') :
    w.ReadsAfter Inv Fault xs value (retries + 1) outcome w' := by
  obtain ⟨series, hseries, hinv, houtcome⟩ := h
  refine ⟨seen :: series, List.forall_mem_cons.mpr ⟨hbegins, hseries⟩, hinv, ?_⟩
  cases outcome with
  | ok b =>
      obtain ⟨hvalue, hlength, hrest⟩ := houtcome
      refine ⟨hvalue, Nat.succ_le_succ hlength, ?_⟩
      rw [List.flatten_cons, Listing.stores_append, List.append_assoc]
      exact hstores.trans hrest
  | error e =>
      obtain ⟨hfault, hlength, hrest⟩ := houtcome
      refine ⟨hfault, Nat.succ_le_succ hlength, ?_⟩
      rw [List.flatten_cons, Listing.stores_append]
      exact hstores.trans hrest

/-- However the attempts ended, nothing but the listing was stored; if one succeeded, all of it. -/
theorem ReadsAfter.exists_stores (h : w.ReadsAfter Inv Fault xs value retries outcome w') :
    ∃ stored, w.cache.Stores stored w'.cache ∧ (∀ x ∈ stored, x ∈ Listing.stores xs) ∧
      Inv w'.sources ∧
      match outcome with
      | .ok _ => ∀ x ∈ Listing.stores xs, x ∈ stored
      | .error e => Fault e := by
  obtain ⟨series, hseries, hinv, houtcome⟩ := h
  have hsubset := Listing.mem_stores_of_series hseries
  cases outcome with
  | ok b =>
      refine ⟨_, houtcome.2.2, fun x hx => ?_, hinv, fun x hx => List.mem_append_right _ hx⟩
      rcases List.mem_append.mp hx with hx | hx
      · exact hsubset x hx
      · exact hx
  | error e => exact ⟨_, houtcome.2.2, hsubset, hinv, houtcome.1⟩

end Reads

end World

namespace DirectorySource

variable {Inv : δ → Prop} {Fault : SourceError → Prop} {d : DirectorySource δ}
  {content : ConnectionSettings → SearchRequest → List Entry}

/-- **The attempts at a domain** store prefixes of its listing and, when one succeeds, all of it. -/
theorem attempts_read (h : d.client.Serves Inv Fault d.pageSize content)
    (profile : DirectoryProfile) (interval retries : Nat) {w : World δ} (hw : Inv w.sources) :
    (RetryPolicy.attempts interval (d.refreshDomain profile) retries).Achieves World.Undisturbed w
      (w.ReadsAfter Inv Fault (profile.listing (content profile.connectionSettings))
        (profile.domainCounts (content profile.connectionSettings)) retries) := by
  induction retries generalizing w with
  | zero => exact (refreshDomain_reads h profile hw).mono fun outcome w' h => h.readsAfter 0
  | succ retries ih =>
      refine RetryPolicy.achieves_attempts_succ.mpr ((refreshDomain_reads h profile hw).mono ?_)
      rintro (e | counts) w₁ hread
      · dsimp only
        split
        · intro w₂ hw₂
          obtain ⟨seen, hbegins, hstores, hinv, -⟩ := hread
          refine (ih (w := w₂) (hw₂.2.1 ▸ hinv)).mono fun outcome w' h => h.cons hbegins ?_
          rwa [hw₂.1]
        · exact hread.readsAfter _
      · exact hread.readsAfter _

/-- Reading domains one after another stores nothing but what is listed in them, and all of what is
listed in those that are not given up. -/
theorem refreshDomains_read (h : d.client.Serves Inv Fault d.pageSize content)
    (profiles : List DirectoryProfile) (summary : RefreshSummary) {w : World δ}
    (hw : Inv w.sources) :
    (d.refreshDomains profiles summary).Achieves World.Undisturbed w fun result w' =>
      ∃ stored failed, w.cache.Stores stored w'.cache ∧
        (∀ x ∈ stored, ∃ q ∈ profiles,
          x ∈ Listing.stores (q.listing (content q.connectionSettings))) ∧
        (∀ q ∈ profiles, q.name ∉ failed →
          ∀ x ∈ Listing.stores (q.listing (content q.connectionSettings)), x ∈ stored) ∧
        result.failed = summary.failed ++ failed ∧ (failed ≠ [] → ∃ e, Fault e) ∧
        Inv w'.sources := by
  induction profiles generalizing summary w with
  | nil => exact ⟨[], [], .of_eq rfl, by simp, by simp, by simp, by simp, hw⟩
  | cons profile profiles ih =>
      refine Activity.achieves_bind.mpr
        ((attempts_read h profile _ _ hw).mono fun outcome w₁ hread => ?_)
      obtain ⟨first, hfirst, hlisted, hinv, houtcome⟩ := hread.exists_stores
      refine (ih _ hinv).mono ?_
      rintro result w' ⟨rest, failed, hrest, hlisted', hall, hfailed, hfault, hinv'⟩
      have hbetween : ∀ x ∈ first ++ rest, ∃ q ∈ profile :: profiles,
          x ∈ Listing.stores (q.listing (content q.connectionSettings)) := by
        intro x hx
        rcases List.mem_append.mp hx with hx | hx
        · exact ⟨profile, List.mem_cons_self, hlisted x hx⟩
        · obtain ⟨q, hq, hx⟩ := hlisted' x hx
          exact ⟨q, List.mem_cons_of_mem _ hq, hx⟩
      cases outcome with
      | ok counts =>
          refine ⟨first ++ rest, failed, hfirst.trans hrest, hbetween, fun q hq hnot x hx => ?_,
            hfailed, hfault, hinv'⟩
          rcases List.mem_cons.mp hq with rfl | hq
          · exact List.mem_append_left _ (houtcome x hx)
          · exact List.mem_append_right _ (hall q hq hnot x hx)
      | error e =>
          refine ⟨first ++ rest, profile.name :: failed, hfirst.trans hrest, hbetween,
            fun q hq hnot x hx => ?_, ?_, fun _ => ⟨e, houtcome⟩, hinv'⟩
          · rw [List.mem_cons, not_or] at hnot
            rcases List.mem_cons.mp hq with rfl | hq
            · exact absurd rfl hnot.1
            · exact List.mem_append_right _ (hall q hq hnot.2 x hx)
          · rw [hfailed, RefreshSummary.add, List.append_assoc]
            rfl

/-- A refresh stores nothing but what is listed in the domains of the catalog, and all of what is
listed in those that are not given up. -/
theorem refreshAll_read (h : d.client.Serves Inv Fault d.pageSize content) {w : World δ}
    (hlock : w.directoryLock.queue = []) (hw : Inv w.sources) :
    d.refreshAll.Achieves World.Undisturbed w fun result w' =>
      ∃ stored, w.cache.Stores stored w'.cache ∧
        (∀ x ∈ stored, ∃ q ∈ d.catalog.profiles,
          x ∈ Listing.stores (q.listing (content q.connectionSettings))) ∧
        (d.refreshEnabled = true → ∀ q ∈ d.catalog.profiles, q.name ∉ result.failed →
          ∀ x ∈ Listing.stores (q.listing (content q.connectionSettings)), x ∈ stored) ∧
        (result.failed ≠ [] → ∃ e, Fault e) ∧ Inv w'.sources := by
  cases henabled : d.refreshEnabled with
  | false =>
      rw [refreshAll, henabled]
      exact ⟨[], .of_eq rfl, by simp, by simp, by simp, hw⟩
  | true =>
      refine refreshAll_achieves henabled hlock (P := fun result cache sources =>
        ∃ stored, w.cache.Stores stored cache ∧
          (∀ x ∈ stored, ∃ q ∈ d.catalog.profiles,
            x ∈ Listing.stores (q.listing (content q.connectionSettings))) ∧
          (true = true → ∀ q ∈ d.catalog.profiles, q.name ∉ result.failed →
            ∀ x ∈ Listing.stores (q.listing (content q.connectionSettings)), x ∈ stored) ∧
          (result.failed ≠ [] → ∃ e, Fault e) ∧ Inv sources) fun w₁ hcache hsources => ?_
      refine (refreshDomains_read h (w := w₁) d.catalog.profiles {} (hsources ▸ hw)).mono ?_
      rintro result w' ⟨stored, failed, hstores, hlisted, hall, hfailed, hfault, hinv⟩
      obtain rfl : result.failed = failed := hfailed
      exact ⟨stored, hcache ▸ hstores, hlisted, fun _ => hall, hfault, hinv⟩

/-- **A retry after a partial enumeration is invisible.**  Take two sources that serve the same
content, each in its own pages and with its own faults, and let one refresh a domain with retries
and the other in a single attempt, from the same cache.  Both come to an end, and if both succeed:

* before the attempt that succeeded the first one has stored a series of prefixes of the listing,
  one for each attempt that failed;
* the reported counts are those of one reading of the domain;
* if nothing was evicted, the caches hold the same records, and the aliases lead to the same records
  and have the same kinds. -/
theorem retry_invisible {Inv' : ε → Prop} {Fault' : SourceError → Prop} {e : DirectorySource ε}
    (hd : d.client.Serves Inv Fault d.pageSize content)
    (he : e.client.Serves Inv' Fault' e.pageSize content) (profile : DirectoryProfile)
    {w : World δ} {v : World ε} (hw : Inv w.sources) (hv : Inv' v.sources)
    (hcache : v.cache = w.cache) :
    (d.retry.execute (d.refreshDomain profile)).Achieves World.Undisturbed w fun outcome w' =>
      (e.refreshDomain profile).Achieves World.Undisturbed v fun once v' =>
        ∀ counts single, outcome = .ok counts → once = .ok single →
          (∃ series : List (List Listing), series.length ≤ d.retry.retries.toNat ∧
            (∀ seen ∈ series, seen <+: profile.listing (content profile.connectionSettings)) ∧
            w.cache.Stores (Listing.stores series.flatten ++
              Listing.stores (profile.listing (content profile.connectionSettings))) w'.cache) ∧
          counts = single ∧ counts = profile.domainCounts (content profile.connectionSettings) ∧
          (w'.cache.evictions = w.cache.evictions → v'.cache.evictions = v.cache.evictions →
            ∀ id, w'.cache.record? id = v'.cache.record? id) ∧
          ∀ name, w'.cache.aliases.targets.get? name = v'.cache.aliases.targets.get? name := by
  refine (attempts_read hd profile _ _ hw).mono fun outcome w' hread => ?_
  refine (refreshDomain_reads he profile hv).mono fun once v' hsingle => ?_
  rintro counts single rfl rfl
  obtain ⟨series, hseries, -, rfl, hlength, hstores⟩ := hread
  obtain ⟨seen, -, hstores', -, rfl, rfl⟩ := hsingle
  rw [hcache] at hstores' ⊢
  obtain ⟨hrecords, haliases⟩ :=
    hstores.eq_of_subset hstores' (Listing.mem_stores_of_series hseries)
  exact ⟨⟨series, hlength, hseries, hstores⟩, rfl, rfl, hrecords, haliases⟩

end DirectorySource

/-! ## Connections that break -/

namespace BrittleDirectory

/-- The answer to a page request, with a list of how many pages are still delivered before each time
that the connection breaks. -/
def answer (domain : MemoryDomain) (request : PageRequest) :
    List Nat → Except SourceError SearchPage × List Nat
  | [] => (domain.page request, [])
  | 0 :: breaks => (.error (.transient "connection reset"), breaks)
  | (n + 1) :: breaks => (domain.page request, n :: breaks)

/-- The client of a directory that has one domain and whose connections break. -/
def client (domain : MemoryDomain) : DirectoryClient (World (List Nat)) where
  connect _ := .done (.ok
    { searchPage := fun request => .modifyGet fun w =>
        ((answer domain request w.sources).1,
          { w with sources := (answer domain request w.sources).2 })
      search := fun request => .done (.ok (domain.matching request.base request.filter))
      close := .done (.ok ()) })

theorem answer_eq (domain : MemoryDomain) (request : PageRequest) (breaks : List Nat) :
    (answer domain request breaks).1 = domain.page request ∨
      (answer domain request breaks).1 = .error (.transient "connection reset") := by
  unfold answer
  split <;> simp

/-- Whenever its connections break, the directory serves the content of its domain. -/
theorem client_serves (domain : MemoryDomain) (pageSize : UInt32) :
    (client domain).Serves (fun _ => True) (fun _ => True) pageSize fun _ request =>
      MemoryDomain.pagesFrom pageSize (domain.under request.base) DirectorySource.maxPages 0 := by
  intro settings w _
  refine ⟨⟨fun request => ?_, fun w _ => ⟨trivial, rfl, trivial⟩⟩, rfl, trivial⟩
  refine MemoryDomain.delivers_of_pages (d := domain) (fun cookie page hpage => ?_) rfl fun _ => rfl
  intro w _ w' hw'
  refine ⟨?_, hw'.1, trivial⟩
  rcases answer_eq domain ⟨request, pageSize, cookie⟩ w'.sources with hanswer | hanswer
  · simp only [hanswer, hpage]
  · simp only [hanswer]

/-- The source for one domain, with pages of one entry and two retries. -/
def source (domain : MemoryDomain) : DirectorySource (List Nat) where
  client := client domain
  catalog := .ofProfiles [Office.branch "NORTH"]
  pageSize := 1
  retry := { retries := 2, intervalSecs := 1 }
  refreshEnabled := true

/-- The connections break after so many pages. -/
def state (breaks : List Nat) : World (List Nat) where
  cache := .ofSettings {}
  sources := breaks

end BrittleDirectory

open BrittleDirectory in
/-- One attempt breaks after three entries, the next one after four, and the third one succeeds:
what is left is as after a single attempt. -/
theorem DirectorySource.retry_invisible_after_breaks :
    ∃ w' v' time time',
      ((source (Office.directory.domain "NORTH")).retry.execute
        ((source (Office.directory.domain "NORTH")).refreshDomain (Office.branch "NORTH"))).alone
          (state [3, 4]) 0 = some (.ok ⟨3, 1, 1⟩, w', time) ∧
      ((source (Office.directory.domain "NORTH")).refreshDomain (Office.branch "NORTH")).alone
          (state []) 0 = some (.ok ⟨3, 1, 1⟩, v', time') ∧
      (∀ id, w'.cache.record? id = v'.cache.record? id) ∧
      ∀ name, w'.cache.aliases.targets.get? name = v'.cache.aliases.targets.get? name := by
  have hserves := client_serves (Office.directory.domain "NORTH") 1
  have hboth := retry_invisible (d := source (Office.directory.domain "NORTH"))
    (e := source (Office.directory.domain "NORTH")) hserves hserves (Office.branch "NORTH")
    (w := state [3, 4]) (v := state []) trivial trivial rfl
  have hretried : (((source (Office.directory.domain "NORTH")).retry.execute
      ((source (Office.directory.domain "NORTH")).refreshDomain (Office.branch "NORTH"))).alone
        (state [3, 4]) 0).map (fun r => (r.1, r.2.1.cache.evictions, r.2.1.sources, r.2.2)) =
          some (.ok ⟨3, 1, 1⟩, 0, [], 2000) := by decide +kernel
  have honce : (((source (Office.directory.domain "NORTH")).refreshDomain
      (Office.branch "NORTH")).alone (state []) 0).map
        (fun r => (r.1, r.2.1.cache.evictions)) = some (.ok ⟨3, 1, 1⟩, 0) := by decide +kernel
  rw [Option.map_eq_some_iff] at hretried honce
  obtain ⟨⟨outcome, w', time⟩, hretried, houtcome⟩ := hretried
  obtain ⟨⟨once, v', time'⟩, honce, hsingle⟩ := honce
  simp only [Prod.mk.injEq] at houtcome hsingle
  obtain ⟨rfl, hevictions, -⟩ := houtcome
  obtain ⟨rfl, hevictions'⟩ := hsingle
  obtain ⟨-, -, -, hrecords, haliases⟩ :=
    (hboth.of_alone World.undisturbed_refl hretried).of_alone World.undisturbed_refl honce _ _ rfl
      rfl
  exact ⟨w', v', time, time', hretried, honce, hrecords hevictions hevictions', haliases⟩

end AttrFederation
