import AttrFederation.Proofs.Resolution.PrincipalLookup
import AttrFederation.Proofs.Source.MemorySources
import AttrFederation.Service

/-!
# Answers before and after a refresh

A resolver that has nothing in its cache looks for a principal where the attribute is pulled; one
that has refreshed its cache looks under the aliases.  Both come to the same principal, if one value
identifies it, no group goes by that value, and its own profile is among those the first one asks
(`transparent_of_candidate`).

Where the profile is not asked, because it does not pull the attribute, the two differ, and so they
do where a group has taken the alias (`not_transparent_for_jake`).
-/

namespace AttrFederation

variable {δ : Type}

/-! ## Transparency -/

theorem DirectoryCatalog.mem_providersOf_iff {catalog : DirectoryCatalog} {p : DirectoryProfile}
    (hp : p ∈ catalog.profiles) (attributeName : String) (kind : ObjectKind) :
    p ∈ catalog.providersOf attributeName kind ↔
      catalog.multiDomain = false ∨ provides p attributeName kind = true := by
  unfold providersOf
  cases catalog.multiDomain <;> simp [hp]

/-- The record of a principal that is identified belongs to its profile. -/
theorem DirectoryCatalog.Identifies.domain_kind {catalog : DirectoryCatalog}
    {content found : DirectoryContent} {key : String} {p : DirectoryProfile} {n : Normalized}
    (h : catalog.Identifies content found key p n) :
    n.record.domain = p.name ∧ n.record.kind = .principal := by
  obtain ⟨base, hbase, hsome⟩ := h.exists_found
  obtain ⟨e, he⟩ := List.exists_mem_of_ne_nil _ hsome
  exact Normalized.domain_kind_of_ofEntry (h.found_eq p h.mem base hbase e he).2

namespace Resolver

/-- Whether the cache was refreshed before does not show in an answer: once a refresh has cached the
principal, the resolver answers as it would have without the refresh, as long as no org unit expires
meanwhile. -/
def Transparent (r : Resolver δ) (w : World δ) (n : Normalized) (subject : Subject)
    (attributeName : String) : Prop :=
  r.directory.refreshAll.Achieves World.Undisturbed w fun _ w' =>
    w'.cache.record? n.record.id = some n.record → ∀ during, w.cache.Steady during →
      (r.resolve subject attributeName).Achieves (World.Resting during) w fun cold _ =>
        (r.resolve subject attributeName).Achieves (World.Resting during) w' fun warm _ =>
          warm = cold

/-- The sources are healthy, the value that a subject is known by identifies a principal among all
that are in the directory, and the cache leads nowhere yet. -/
structure Identified (r : Resolver δ) (Inv : δ → Prop) (content found : DirectoryContent)
    (answer : BackendAnswer) (w : World δ) (subject : Subject) (key : String)
    (p : DirectoryProfile) (n : Normalized) : Prop where
  healthy : r.directory.client.Healthy Inv r.directory.pageSize content found
  answers : r.backend.client.Answers Inv answer
  key_eq : subject.get? r.settings.correlationKey = some key
  identifies : r.directory.catalog.Identifies content found key p n
  sources : Inv w.sources
  unlocked : w.directoryLock.queue = []
  noAliases : w.cache.aliases = {}

section Identified

variable {r : Resolver δ} {Inv : δ → Prop} {content found : DirectoryContent}
  {answer : BackendAnswer} {key : String} {p : DirectoryProfile} {n : Normalized} {w : World δ}
  {subject : Subject}

/-- Before a refresh the answer is about the principal if its profile is asked. -/
theorem Identified.cold (h : r.Identified Inv content found answer w subject key p n)
    {during : Nat → Prop} (hsteady : w.cache.Steady during) (attributeName : String) :
    (r.resolve subject attributeName).Achieves (World.Resting during) w fun cold _ =>
      ∃ i, during i ∧
        cold = r.answerTo answer (r.asked p n attributeName) attributeName i w.cache := by
  refine (resolve_answers h.healthy h.answers h.identifies
    (Cache.leadsTo_of_noAliases h.noAliases key n) hsteady h.sources h.key_eq attributeName).mono ?_
  rintro cold - ⟨i, hi, hanswer⟩
  exact ⟨i, hi, hanswer.resolve_right fun hwarm => hwarm.2 h.noAliases⟩

/-- Once a refresh has cached the principal the answer is about it, or about what is asked for. -/
theorem Identified.warm (h : r.Identified Inv content found answer w subject key p n)
    (hgroups : r.directory.catalog.GroupFree content key) (attributeName : String) :
    r.directory.refreshAll.Achieves World.Undisturbed w fun _ w' =>
      w'.cache.record? n.record.id = some n.record → ∀ during, w.cache.Steady during →
        (r.resolve subject attributeName).Achieves (World.Resting during) w' fun warm _ =>
          ∀ i, during i →
            warm = r.answerTo answer (r.asked p n attributeName) attributeName i w.cache ∨
              warm = r.answerTo answer (some n.record) attributeName i w.cache := by
  refine (r.directory.refreshAll_leadsTo h.healthy h.identifies hgroups h.sources h.unlocked
    h.noAliases).mono ?_
  rintro summary w' ⟨hleads, hunits, hsources⟩ hcached during hsteady
  have hsame : w.cache.SameUnits during w'.cache := ⟨hunits, hsteady⟩
  have hsteady' : w'.cache.Steady during := by rwa [Cache.Steady, hunits]
  refine (resolve_answers h.healthy h.answers h.identifies (hleads hcached) hsteady' hsources
    h.key_eq attributeName).mono ?_
  rintro warm - ⟨j, hj, hanswer⟩ i hi
  rcases hanswer with rfl | ⟨rfl, -⟩
  · exact .inl (answerTo_congr hsame hi hj ..)
  · exact .inr (answerTo_congr hsame hi hj ..)

/-- Where the profile of the principal is asked, and where the attribute is unknown for it, the
answer about what is asked for is that about the principal. -/
theorem answerTo_asked (hidentifies : r.directory.catalog.Identifies content found key p n)
    {attributeName : String}
    (hcandidate : r.directory.catalog.multiDomain = false ∨
      DirectoryCatalog.provides p attributeName .principal = true ∨
      r.routes.route p.name .principal attributeName = .unknown) (i : Nat) (c : Cache) :
    r.answerTo answer (r.asked p n attributeName) attributeName i c =
      r.answerTo answer (some n.record) attributeName i c := by
  have hasked := DirectoryCatalog.mem_providersOf_iff hidentifies.mem attributeName .principal
  unfold asked
  rcases hcandidate with hsingle | hprovides | hunknown
  · rw [if_pos (hasked.mpr (.inl hsingle))]
  · rw [if_pos (hasked.mpr (.inr hprovides))]
  · obtain ⟨hdomain, hkind⟩ := hidentifies.domain_kind
    have hnone : r.valueOf answer n.record attributeName i c = none := by
      rw [valueOf, hdomain, hkind, hunknown]
    split <;> simp [answerTo, hnone]

/-- **The principals in the cache do not show**, where the profile of the principal is asked and no
group goes by the value.

* If there is one domain only, or the profile of the principal pulls the attribute, or the attribute
  is unknown for it, then the answer is the same before and after a refresh.
* Otherwise the answer before the refresh is the null value: the principal is in none of the domains
  that pull the attribute. -/
theorem transparent_of_candidate (h : r.Identified Inv content found answer w subject key p n)
    (hgroups : r.directory.catalog.GroupFree content key) (attributeName : String) :
    (r.directory.catalog.multiDomain = false ∨
        DirectoryCatalog.provides p attributeName .principal = true ∨
        r.routes.route p.name .principal attributeName = .unknown →
      r.Transparent w n subject attributeName) ∧
    (r.directory.catalog.multiDomain = true →
      DirectoryCatalog.provides p attributeName .principal = false →
      ∀ during, w.cache.Steady during →
        (r.resolve subject attributeName).Achieves (World.Resting during) w fun cold _ =>
          cold = r.settings.nullValue) := by
  refine ⟨fun hcandidate => ?_, fun hmulti hprovides during hsteady => ?_⟩
  · refine (h.warm hgroups attributeName).mono fun _ w' hrefreshed hcached during hsteady => ?_
    refine (h.cold hsteady attributeName).mono ?_
    rintro cold - ⟨i, hi, rfl⟩
    refine (hrefreshed hcached during hsteady).mono fun warm _ hwarm => ?_
    rw [answerTo_asked h.identifies hcandidate]
    rcases hwarm i hi with rfl | rfl
    · exact answerTo_asked h.identifies hcandidate ..
    · rfl
  · refine (h.cold hsteady attributeName).mono ?_
    rintro cold - ⟨i, -, rfl⟩
    have hasked := DirectoryCatalog.mem_providersOf_iff h.identifies.mem attributeName .principal
    rw [asked, if_neg (hasked.not.mpr (by simp [hmulti, hprovides]))]
    rfl

end Identified

/-- The record of a principal after a refresh, and the answers before and after it, when the
resolver runs alone. -/
def coldAndWarm (r : Resolver δ) (w : World δ) (n : Normalized) (subject : Subject)
    (attributeName : String) : Option (Option Record × AttributeValue × AttributeValue) :=
  (r.directory.refreshAll.alone w 0).bind fun refreshed =>
  ((r.resolve subject attributeName).alone w 0).bind fun cold =>
  ((r.resolve subject attributeName).alone refreshed.2.1 0).map fun warm =>
    (refreshed.2.1.cache.record? n.record.id, cold.1, warm.1)

/-- Different answers while it runs alone show the refresh. -/
theorem Transparent.eq_of_coldAndWarm {r : Resolver δ} {w : World δ} {n : Normalized}
    {subject : Subject} {attributeName : String} (h : r.Transparent w n subject attributeName)
    (hsteady : w.cache.Steady fun _ => True) {cold warm : AttributeValue}
    (hruns : r.coldAndWarm w n subject attributeName = some (some n.record, cold, warm)) :
    warm = cold := by
  have hrefl : ∀ v : World δ, World.Resting (fun _ => True) v v :=
    fun v => ⟨World.undisturbed_refl v, trivial⟩
  obtain ⟨⟨summary, w', time⟩, hrefresh, hruns⟩ := Option.bind_eq_some_iff.mp hruns
  obtain ⟨⟨cold', v, coldTime⟩, hcold, hruns⟩ := Option.bind_eq_some_iff.mp hruns
  obtain ⟨⟨warm', v', warmTime⟩, hwarm, hruns⟩ := Option.map_eq_some_iff.mp hruns
  simp only [Prod.mk.injEq] at hruns
  obtain ⟨hcached, rfl, rfl⟩ := hruns
  exact ((h.of_alone World.undisturbed_refl hrefresh hcached _ hsteady).of_alone hrefl
    hcold).of_alone hrefl hwarm

end Resolver

/-! ## Two branches -/

namespace Branches

/-- The north knows of mail and org units, the south of phones and teams; locations are in the
backend. -/
def props : Properties where
  entries :=
    [("profile_names", "NORTH,SOUTH"), ("correlation_key", "uid"),
      ("cache_refresh_period", "1_DAYS"), ("sap_server_prefix", "SERV1_"), ("sap_handler", "Z_AOR"),
      ("aor_attributes_to_pull", "multi:sloc"),
      ("NORTH_host", "north.example"), ("NORTH_port", "389"), ("NORTH_authentication", "none"),
      ("NORTH_user_search_base", "ou=people"), ("NORTH_user_filter", "objectClass=person"),
      ("NORTH_user_key_attributes", "cs:uid"),
      ("NORTH_user_attributes_to_pull", "single:mail,multi:ammoarea"),
      ("SOUTH_host", "south.example"), ("SOUTH_port", "389"), ("SOUTH_authentication", "none"),
      ("SOUTH_user_search_base", "ou=people"), ("SOUTH_user_filter", "objectClass=person"),
      ("SOUTH_user_key_attributes", "cs:uid"), ("SOUTH_user_attributes_to_pull", "single:phone"),
      ("SOUTH_group_search_base", "ou=teams"), ("SOUTH_group_filter", "objectClass=group"),
      ("SOUTH_group_key_attributes", "ci:cn"), ("SOUTH_group_attributes_to_pull", "single:phone")]

/-- People are known by their `uid`. -/
def people (pulls : List PullAttribute) : ObjectClass where
  searchBases := ["ou=people"]
  filter := "objectClass=person"
  keys := [⟨"uid", true⟩]
  pulls := ⟨pulls⟩

/-- Teams are known by their `cn`, in any case. -/
def teams : ObjectClass where
  searchBases := ["ou=teams"]
  filter := "objectClass=group"
  keys := [⟨"cn", false⟩]
  pulls := ⟨[⟨"phone", .single⟩]⟩

def branch (name host : String) (users : ObjectClass) (groups : Option ObjectClass) :
    DirectoryProfile where
  name
  host
  port := 389
  useTls := false
  authentication := "none"
  username := none
  encryptedPassword := none
  includeDisabled := false
  users
  groups

def north : DirectoryProfile :=
  branch "NORTH" "north.example" (people [⟨"mail", .single⟩, ⟨"ammoarea", .multi⟩]) none

def south : DirectoryProfile :=
  branch "SOUTH" "south.example" (people [⟨"phone", .single⟩]) (some teams)

/-- The client of a directory in memory. -/
def directoryClient : DirectoryClient (World MemorySources) :=
  MemoryDirectory.client (World.sourcesField.comp MemorySources.directoryField)

/-- The client of a backend in memory. -/
def backendClient : BackendClient (World MemorySources) :=
  MemoryBackend.client (World.sourcesField.comp MemorySources.backendField)

/-- The service of the branches. -/
def service : Service MemorySources where
  settings :=
    { correlationKey := "uid", directoryRefreshPeriod := some (.ofNanos 86400000000000),
      profileNames := ["NORTH", "SOUTH"] }
  directory :=
    { client := directoryClient
      catalog := ⟨[north, south], true⟩
      pageSize := 1000
      retry := {}
      refreshEnabled := true }
  backend :=
    { client := backendClient
      profile := some ⟨"SERV1_", "Z_AOR", ⟨[⟨"sloc", .multi⟩]⟩⟩
      retry := {}
      reloadEnabled := true }

theorem build_eq :
    Service.build props (some directoryClient) (some backendClient) = .ok service := by
  have hsettings : Settings.ofProperties props = service.settings := by decide +kernel
  have hcatalog : DirectoryCatalog.load props service.settings.profileNames =
      service.directory.catalog := by decide +kernel
  have hprofile : (BackendProfile.parse props).toOption = service.backend.profile := by
    decide +kernel
  rw [Service.build, hsettings, hcatalog, hprofile]
  rfl

/-- Jake is in the north and belongs to the org unit `u1`. -/
def jake : Entry :=
  .of "uid=jake"
    [("uid", [.text "jake"]), ("mail", [.text "jake@example"]), ("ammoarea", [.text "u1"])]

/-- A team in the south of the same name. -/
def team : Entry :=
  .of "cn=Jake" [("cn", [.text "Jake"])]

/-- What Jake's entry becomes. -/
def jakeNormalized : Normalized where
  record := Normalized.insertAll { domain := "NORTH", id := "NORTH#jake", kind := .principal }
    [("mail", .single "jake@example"), ("ammoarea", .multi ["u1"]), ("uid", .single "jake")]
  aliases := ["jake"]

/-- The sources with some teams in the south. -/
def sources (teams : List Entry) : MemorySources where
  directory := teams.foldl (·.addEntry "SOUTH" "ou=teams" ·)
    (MemoryDirectory.addEntry {} "NORTH" "ou=people" jake)
  backend :=
    { serverPrefix := "SERV1_", function := "Z_AOR", details := [⟨"u1", "sloc", "L1"⟩] }

def state (teams : List Entry) : World MemorySources :=
  Service.initial service.settings (sources teams)

def subject : Subject := .of "x" [("uid", "jake")]

/-- What the directory delivers. -/
def content (teams : List Entry) : DirectoryContent := fun settings =>
  (sources teams).directory.delivered 1000 settings.domain

/-- What searches find. -/
def found (teams : List Entry) : DirectoryContent := fun settings =>
  (sources teams).directory.found settings.domain

/-- Jake is known to the service, if searches find him and nobody else. -/
def Knows (teams : List Entry) : Prop :=
  service.Identified (sources teams).Calm (content teams) (found teams)
    (sources teams).backend.answer (state teams) subject "jake" north jakeNormalized

theorem calm (teams : List Entry) : (sources teams).Calm (sources teams) where
  entries _ := rfl
  outage name := by
    induction teams using List.reverseRecOn with
    | nil => exact (MemoryDirectory.outage_addEntry {} "NORTH" "ou=people" jake name).trans rfl
    | append_singleton teams e ih =>
        rw [sources, List.foldl_concat, MemoryDirectory.outage_addEntry]
        exact ih
  answer := rfl
  failures := rfl

theorem knows {teams : List Entry}
    (h : service.directory.catalog.Identifies (content teams) (found teams) "jake" north
      jakeNormalized) : Knows teams where
  healthy := (sources teams).client_healthy _
  answers := (sources teams).client_answers
  key_eq := by decide +kernel
  identifies := h
  sources := calm teams
  unlocked := rfl
  noAliases := rfl

theorem identifies_nil :
    service.directory.catalog.Identifies (content []) (found []) "jake" north jakeNormalized where
  mem := by decide +kernel
  exists_found := by decide +kernel
  found_eq := by decide +kernel
  listed_eq := by decide +kernel

theorem identifies_team :
    service.directory.catalog.Identifies (content [team]) (found [team]) "jake" north
      jakeNormalized where
  mem := by decide +kernel
  exists_found := by decide +kernel
  found_eq := by decide +kernel
  listed_eq := by decide +kernel

theorem steady (teams : List Entry) (during : Nat → Prop) : (state teams).cache.Steady during := by
  rintro region ⟨rfl⟩ key slot hslot
  contradiction

end Branches

open Branches in
/-- Mail is pulled in the north, and Jake's is the same before and after a refresh; his locations
are asked of the backend, and cannot be found before. -/
theorem Resolver.transparent_of_candidate_for_jake :
    Knows [] ∧ service.directory.catalog.GroupFree (content []) "jake" ∧
      service.Transparent (state []) jakeNormalized subject "mail" ∧
      ((service.resolve subject "sloc").Achieves (World.Resting fun _ => True) (state [])
        fun cold _ => cold = .null) := by
  have hknows := knows identifies_nil
  have hgroups : service.directory.catalog.GroupFree (content []) "jake" := by
    unfold DirectoryCatalog.GroupFree
    decide +kernel
  refine ⟨hknows, hgroups, ?_, ?_⟩
  · exact (transparent_of_candidate hknows hgroups "mail").1 (by decide +kernel)
  · exact (transparent_of_candidate hknows hgroups "sloc").2 (by decide +kernel) (by decide +kernel)
      _ (steady [] _)

open Branches in
/-- Jake's locations are found after a refresh only, since no profile pulls them.  A team of his
name takes the alias from him, and after a refresh his mail is not found. -/
theorem Resolver.not_transparent_for_jake :
    Service.build props (some directoryClient) (some backendClient) = .ok service ∧
      (Knows [] ∧ ¬ service.Transparent (state []) jakeNormalized subject "sloc") ∧
      Knows [team] ∧ ¬ service.Transparent (state [team]) jakeNormalized subject "mail" := by
  refine ⟨build_eq, ⟨knows identifies_nil, fun h => ?_⟩, knows identifies_team, fun h => ?_⟩
  · have hruns : coldAndWarm service (state []) jakeNormalized subject "sloc" =
        some (some jakeNormalized.record, .null, .multi ["L1"]) := by decide +kernel
    exact absurd (h.eq_of_coldAndWarm (steady [] _) hruns) (by decide)
  · have hruns : coldAndWarm service (state [team]) jakeNormalized subject "mail" =
        some (some jakeNormalized.record, .single "jake@example", .null) := by decide +kernel
    exact absurd (h.eq_of_coldAndWarm (steady [team] _) hruns) (by decide)

end AttrFederation
