import AttrFederation.Proofs.Metrics
import AttrFederation.Proofs.Resolution.CacheTransparency
import AttrFederation.Proofs.Source.ConfinedDirectory

/-!
# The accounts of a service

The counters of a service fit together whenever it has answered some requests, one after another,
whatever the sources did and whatever was refreshed meanwhile (`Service.accounted_of_served`).

Only resolving counts anything: queries and refreshes leave the metrics alone, as long as the
clients do.  What a request counts before it is answered is said in one place
(`Resolver.handles_of_resolve?`), which follows the request to its end along all of its ways.
-/

namespace AttrFederation

variable {δ : Type}

/-- Whatever else happens, the metrics stay as they are. -/
def World.SameMetrics (w w' : World δ) : Prop :=
  w'.metrics = w.metrics

namespace World.SameMetrics

variable {w w₁ w₂ w₃ w' : World δ}

theorem refl (w : World δ) : w.SameMetrics w := rfl

theorem trans (h : w₁.SameMetrics w₂) (h' : w₂.SameMetrics w₃) : w₁.SameMetrics w₃ :=
  Eq.trans h' h

theorem of_sameButSources (w w' : World δ) (h : w.SameButSources w') : w.SameMetrics w' := by
  rw [SameMetrics, h]

/-- What keeps to the metrics ends with the same ones. -/
theorem of_ends {α : Type} {x : Activity (World δ) α} (hx : x.Keeps World.SameMetrics) {a : α}
    (h : x.Ends World.SameMetrics w a w') : w.SameMetrics w' :=
  h.keeps refl trans (fun _ _ => id) hx

end World.SameMetrics

/-- **Refreshes** count nothing. -/
theorem Service.keeps_work (s : Service δ) (hdirectory : s.directory.client.Confined)
    (hbackend : s.backend.client.Confined) (kind : RefreshKind) :
    (s.background.work kind).Keeps World.SameMetrics := by
  cases kind with
  | backend =>
      have hrefresh : s.backend.refreshAll.Keeps World.SameMetrics :=
        BackendSource.keeps_refreshAll hbackend World.SameMetrics.of_sameButSources
          (fun _ _ => rfl) (fun _ _ _ h h' => h.trans h') (fun _ _ => rfl) (fun _ => rfl)
          fun _ => rfl
      exact hrefresh.bind fun _ => trivial
  | directory =>
      have hrefresh : s.directory.refreshAll.Keeps World.SameMetrics :=
        DirectorySource.keeps_refreshAll World.SameMetrics.of_sameButSources hdirectory
          (fun _ _ _ h h' => h.trans h') (fun _ _ _ _ _ _ => rfl) (fun _ _ => rfl) (fun _ => rfl)
          fun _ => rfl
      exact hrefresh.bind fun _ => trivial

/-! ## Requests -/

namespace Resolver

variable {r : Resolver δ} {w w' : World δ}

open Activity World

/-- Looking in the cache counts as a look-up. -/
theorem metrics_lookUp (key : String) (w : World δ) :
    (lookUp key w).2.metrics = w.metrics.recordLookup (lookUp key w).1.isSome := rfl

/-- **Finding a principal** counts the look-up, and an error if the directory fails. -/
theorem sought_of_findPrincipal (hdirectory : r.directory.client.Confined)
    {key attributeName : String} {found : Option Record}
    (h : (r.findPrincipal key attributeName).Ends SameMetrics w found w') :
    w.metrics.Sought found.isSome w'.metrics := by
  obtain ⟨_, _, hlookUp, h⟩ := ends_bind.mp h
  obtain ⟨w₁, hw₁, rfl, rfl⟩ := ends_modifyGet.mp hlookUp
  have hlooked := metrics_lookUp key w₁
  rw [hw₁] at hlooked
  cases hcached : (lookUp key w₁).1 with
  | some record =>
      rw [hcached] at h hlooked
      obtain ⟨rfl, rfl⟩ := ends_done.mp h
      rw [hlooked]
      exact .hit
  | none =>
      rw [hcached] at h hlooked
      obtain ⟨outcome, w₂, hquery, h⟩ := ends_bind.mp h
      have hkeeps : (r.directory.queryIdentity key attributeName).Keeps SameMetrics :=
        DirectorySource.keeps_queryIdentity SameMetrics.of_sameButSources hdirectory
          SameMetrics.refl (fun _ _ _ => rfl) key attributeName
      have hqueried : w₂.metrics = w.metrics.recordLookup false :=
        Eq.trans (SameMetrics.of_ends hkeeps hquery) hlooked
      cases outcome with
      | ok found =>
          obtain ⟨rfl, rfl⟩ := ends_done.mp h
          rw [hqueried]
          exact .missed _
      | error e =>
          obtain ⟨_, _, hnote, h⟩ := ends_bind.mp h
          obtain ⟨w₃, hw₃, rfl⟩ := ends_modify.mp hnote
          obtain ⟨rfl, rfl⟩ := ends_done.mp h
          have hnoted : (w₃.onMetrics Metrics.recordError).metrics =
              (w.metrics.recordLookup false).recordError :=
            congrArg Metrics.recordError (Eq.trans hw₃ hqueried)
          rw [hnoted]
          exact .failed

section Backend

variable (hbackend : r.backend.client.Confined)

include hbackend

/-- Composing a value counts at most one call of the backend. -/
theorem exists_asked_of_compose {ids : List String} {attributeName : String}
    {value : Option AttributeValue}
    (h : (r.compose ids attributeName).Ends SameMetrics w value w') :
    ∃ asked, w'.metrics = w.metrics.recordWork false asked := by
  obtain ⟨cached, w₁, hread, h⟩ := ends_bind.mp h
  obtain ⟨units, w₂, hfetch, h⟩ := ends_bind.mp h
  obtain ⟨-, rfl⟩ := ends_done.mp h
  have hcollected : w.SameMetrics w₁ := by
    refine SameMetrics.of_ends (Gate.keeps_readWhenIdle SameMetrics.refl fun w => ?_) hread
    exact rfl
  rw [← hcollected]
  unfold fetch at hfetch
  split at hfetch
  · obtain ⟨-, rfl⟩ := ends_done.mp hfetch
    exact ⟨false, rfl⟩
  · obtain ⟨_, _, hnote, hquery⟩ := ends_bind.mp hfetch
    obtain ⟨w₃, hw₃, rfl⟩ := ends_modify.mp hnote
    have hkeeps : (r.backend.query cached.misses).Keeps SameMetrics :=
      BackendSource.keeps_query hbackend SameMetrics.of_sameButSources (fun _ _ => rfl) _
    have hqueried : w₂.metrics = (w₃.onMetrics Metrics.recordBackendQuery).metrics :=
      SameMetrics.of_ends hkeeps hquery
    exact ⟨true, hqueried.trans (congrArg Metrics.recordBackendQuery hw₃)⟩

/-- **Resolving for a record** counts work on the backend's way only. -/
theorem handles_of_resolveFor {m : Metrics} (hsought : m.Sought true w.metrics) {record : Record}
    {attributeName : String} {result : ResolutionPath × Option AttributeValue}
    (h : (r.resolveFor record attributeName).Ends SameMetrics w result w') :
    m.Handles result.1 result.2.isSome w'.metrics := by
  unfold resolveFor at h
  cases hroute : r.routes.route record.domain record.kind attributeName with
  | directory =>
      rw [hroute] at h
      obtain ⟨rfl, rfl⟩ := ends_done.mp h
      exact .directory hsought _
  | unknown =>
      rw [hroute] at h
      obtain ⟨rfl, rfl⟩ := ends_done.mp h
      exact .unknown hsought
  | backend =>
      rw [hroute] at h
      obtain ⟨_, _, hnote, h⟩ := ends_bind.mp h
      obtain ⟨w₁, hw₁, rfl⟩ := ends_modify.mp hnote
      have hnoted : ∀ asked, (noteRefresh w₁).metrics.recordWork false asked =
          w.metrics.recordWork w₁.backendRefreshing asked := by
        intro asked
        rw [← hw₁]
        unfold noteRefresh
        cases w₁.backendRefreshing <;> rfl
      cases hids : r.orgUnitIds record with
      | none =>
          rw [hids] at h
          obtain ⟨rfl, rfl⟩ := ends_done.mp h
          have hnothing : (noteRefresh w₁).metrics =
              w.metrics.recordWork w₁.backendRefreshing false := hnoted false
          rw [hnothing]
          exact .backend hsought _ false false
      | some ids =>
          rw [hids] at h
          obtain ⟨value, w₂, hcompose, h⟩ := ends_bind.mp h
          obtain ⟨rfl, rfl⟩ := ends_done.mp h
          obtain ⟨asked, hasked⟩ := exists_asked_of_compose hbackend hcompose
          rw [hasked, hnoted]
          exact .backend hsought _ asked value.isSome

/-- **What a request counts** before it is answered. -/
theorem handles_of_resolve? (hdirectory : r.directory.client.Confined) {subject : Subject}
    {attributeName : String} {result : ResolutionPath × Option AttributeValue}
    (h : (r.resolve? subject attributeName).Ends SameMetrics w result w') :
    w.metrics.Handles result.1 result.2.isSome w'.metrics := by
  unfold resolve? at h
  cases hkey : subject.get? r.settings.correlationKey with
  | none =>
      rw [hkey] at h
      obtain ⟨rfl, rfl⟩ := ends_done.mp h
      exact .keyless
  | some key =>
      rw [hkey] at h
      obtain ⟨found, w₁, hfind, h⟩ := ends_bind.mp h
      have hsought := sought_of_findPrincipal hdirectory hfind
      cases found with
      | none =>
          obtain ⟨rfl, rfl⟩ := ends_done.mp h
          exact .notFound hsought
      | some record => exact handles_of_resolveFor hbackend hsought h

/-- **A request** that was answered keeps the counters fitting. -/
theorem accounted_of_resolve (hdirectory : r.directory.client.Confined) {n : Nat}
    (haccounted : w.metrics.Accounted n) {subject : Subject} {attributeName : String}
    {value : AttributeValue}
    (h : (r.resolve subject attributeName).Ends SameMetrics w value w') :
    w'.metrics.Accounted (n + 1) := by
  obtain ⟨since, w₁, hread, h⟩ := ends_bind.mp h
  have hw₁ : w.SameMetrics w₁ := (ends_read.mp hread).1
  obtain ⟨⟨path, found⟩, w₂, hresolve, h⟩ := ends_bind.mp h
  obtain ⟨_, _, hnote, h⟩ := ends_bind.mp h
  obtain ⟨w₃, hw₃, rfl⟩ := ends_modify.mp hnote
  obtain ⟨-, rfl⟩ := ends_done.mp h
  have hhandles := handles_of_resolve? hbackend hdirectory hresolve
  rw [hw₁, ← hw₃] at hhandles
  have hnull : found.isSome = false →
      (found.getD r.settings.nullValue == r.settings.nullValue) = true := by
    intro hnone
    rw [Option.isSome_eq_false_iff, Option.isNone_iff_eq_none] at hnone
    simp [hnone]
  exact haccounted.recordAnswer hhandles hnull _

end Backend

end Resolver

/-! ## Services -/

/-- A service that was put up, and has answered so many requests since.  During a request and
between requests, anything may happen that counts nothing, and whole refreshes come in between. -/
inductive Service.Served (s : Service δ) : Nat → World δ → Prop
  | fresh (sources : δ) : s.Served 0 (Service.initial s.settings sources)
  | answered {n : Nat} {w w' : World δ} {value : AttributeValue} (subject : Subject)
      (attributeName : String) (h : s.Served n w)
      (hends : (s.resolve subject attributeName).Ends World.SameMetrics w value w') :
      s.Served (n + 1) w'
  | refreshed {n : Nat} {w w' : World δ} (kind : RefreshKind) (h : s.Served n w)
      (hends : (s.background.work kind).Ends World.SameMetrics w () w') : s.Served n w'
  | meanwhile {n : Nat} {w w' : World δ} (h : s.Served n w) (hsame : w.SameMetrics w') :
      s.Served n w'

/-- **Request accounting**: after any requests, over any clients, the counters fit together, and
the exported buckets ascend to the number of the requests. -/
theorem Service.accounted_of_served {s : Service δ} (hdirectory : s.directory.client.Confined)
    (hbackend : s.backend.client.Confined) {n : Nat} {w : World δ} (h : s.Served n w) :
    w.metrics.Accounted n ∧ w.metrics.ExportsUpTo n := by
  have haccounted : w.metrics.Accounted n := by
    induction h with
    | fresh sources => exact Metrics.accounted_empty
    | answered subject attributeName h hends ih =>
        exact Resolver.accounted_of_resolve hbackend hdirectory ih hends
    | refreshed kind h hends ih =>
        rwa [World.SameMetrics.of_ends (s.keeps_work hdirectory hbackend kind) hends]
    | meanwhile h hsame ih => rwa [hsame]
  exact ⟨haccounted, haccounted.exportsUpTo⟩

/-- Two requests with a refresh of the backend in between. -/
def Branches.requests : Activity (World MemorySources) AttributeValue :=
  (service.resolve subject "mail").bind fun _ =>
    (service.background.work .backend).bind fun _ => service.resolve subject "sloc"

open Branches in
/-- Jake's mail is found in the directory, and his locations among the org units just loaded. -/
theorem Service.accounted_of_served_for_jake :
    ∃ w, service.Served 2 w ∧ w.metrics.Accounted 2 ∧ w.metrics.ExportsUpTo 2 := by
  have hends : (requests.alone (state []) 0).isSome = true := by decide +kernel
  obtain ⟨⟨value, w, time⟩, halone⟩ := Option.isSome_iff_exists.mp hends
  have hrequests := Activity.ends_of_alone World.SameMetrics.refl halone
  obtain ⟨mail, w₁, hmail, hrest⟩ := Activity.ends_bind.mp hrequests
  obtain ⟨_, w₂, hrefresh, hlocations⟩ := Activity.ends_bind.mp hrest
  have hserved : service.Served 2 w :=
    ((((Service.Served.fresh (sources [])).answered _ _ hmail).refreshed _ hrefresh).answered _ _
      hlocations)
  have hdirectory : service.directory.client.Confined := MemoryDirectory.confined_client _
  have hbackend : service.backend.client.Confined := MemoryBackend.confined_client _
  exact ⟨w, hserved, accounted_of_served hdirectory hbackend hserved⟩

end AttrFederation
