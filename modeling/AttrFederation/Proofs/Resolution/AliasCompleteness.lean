import AttrFederation.Proofs.Region.PutAll
import AttrFederation.Proofs.Resolution.PrincipalLookup

/-!
# Finding what was refreshed

After a refresh every entry is found in the cache under each of its key values, as it stands in the
directory: the alias is the value itself or its lower-case form, and these are the names that a
look-up tries.  A later entry may have taken the alias, but every alias leads to a record that is
there (`Cache.AliasesLive`), as long as the region can hold one record for each identifier all at
once (`RegionSettings.HoldsAll`).

What the stores of a refresh leave is followed in the region and in the alias index
(`Stores.aliasesLive`, `Stores.exists_target`), then the look-up (`findPrincipal_hits`).  Main
result: `DirectorySource.refreshAll_answers_keys`.
-/

namespace AttrFederation

variable {δ : Type}

/-! ## Capacity -/

/-- A region with the settings can hold all at once one of the records for each identifier,
whichever these are. -/
def RegionSettings.HoldsAll (settings : RegionSettings) (records : List Record) : Prop :=
  ∀ values : Assoc Record, values.WellKeyed →
    (∀ id record, values.get? id = some record → record ∈ records ∧ record.id = id) →
      settings.Holds values

/-- It can if it can hold all of them, each taken as often as it comes. -/
theorem RegionSettings.holdsAll_of_total {settings : RegionSettings} {records : List Record}
    (hsize : records.length ≤ settings.maxObjects.toNat)
    (hbytes : total (records.map fun record => Region.slotSize record.id record) ≤
      settings.heapBytes) : settings.HoldsAll records := by
  intro values hkeyed hmem
  have hentries : ∀ entry ∈ values.entries, entry.2 ∈ records ∧ entry.2.id = entry.1 :=
    fun entry hentry => hmem entry.1 entry.2 ((Assoc.mem_entries_iff hkeyed).mp hentry)
  have hids : (values.entries.map Prod.snd).map Record.id = values.keys := by
    rw [List.map_map]
    exact List.map_congr_left fun entry hentry => (hentries entry hentry).2
  have hnodup : (values.entries.map Prod.snd).Nodup := by
    refine List.Nodup.of_map Record.id ?_
    rw [hids]
    exact hkeyed
  have hsubset : values.entries.map Prod.snd ⊆ records := by
    intro record hrecord
    obtain ⟨entry, hentry, rfl⟩ := List.mem_map.mp hrecord
    exact (hentries entry hentry).1
  refine ⟨Nat.le_trans ?_ hsize, Nat.le_trans ?_ hbytes⟩
  · have := (List.subperm_of_subset hnodup hsubset).length_le
    rwa [List.length_map] at this
  · refine Nat.le_trans (Nat.le_of_eq ?_)
      (total_map_le_of_subset hnodup hsubset fun record => Region.slotSize record.id record)
    rw [Region.bytesFor, List.map_map]
    refine congrArg total (List.map_congr_left fun entry hentry => ?_)
    rw [Function.comp_apply, (hentries entry hentry).2]

/-- The records of stored entries by their identifiers. -/
def Stored.pairs (stored : List Stored) : List (String × Record) :=
  stored.map fun x => (x.record.id, x.record)

theorem Stored.fits_pairs {settings : RegionSettings} {records : List Record}
    (h : settings.HoldsAll records) {stored : List Stored}
    (hstored : ∀ x ∈ stored, x.record ∈ records) : settings.Fits (pairs stored) := by
  intro begun hbegun
  refine h _ (Assoc.wellKeyed_ofList begun) fun id record hrecord => ?_
  obtain ⟨x, hx, heq⟩ := List.mem_map.mp (hbegun.subset (Assoc.mem_of_get?_ofList hrecord))
  obtain ⟨rfl, rfl⟩ := Prod.mk.inj heq
  exact ⟨hstored x hx, rfl⟩

/-! ## What stores leave -/

namespace Cache

/-- Every alias leads to a record that is there. -/
def AliasesLive (c : Cache) : Prop :=
  ∀ name target, c.aliases.targets.get? name = some target → (c.record? target.id).isSome = true

theorem principals_storeAll (c : Cache) (timed : List (Nat × Stored)) :
    (c.storeAll timed).principals = c.principals.map fun region =>
      region.putAll (timed.map fun x => (x.1, x.2.record.id, x.2.record)) := by
  induction timed using List.reverseRecOn with
  | nil => exact Option.map_id'.symm
  | append_singleton timed x ih =>
      rw [storeAll_concat]
      refine (x.2.normalized.principals_storeIn ..).trans ?_
      rw [ih, Option.map_map]
      refine congrArg (c.principals.map ·) (funext fun region => ?_)
      simp only [List.map_append, Region.putAll, List.foldl_append]
      rfl

namespace Stores

variable {c c' : Cache} {stored : List Stored} {region : Region Record}

/-- Under the identifier of every entry that was stored there is a record. -/
theorem record?_isSome (h : c.Stores stored c') (hregion : c.principals = some region)
    (hconsistent : region.Consistent) (hfits : region.settings.Fits (Stored.pairs stored))
    {x : Stored} (hx : x ∈ stored) : (c'.record? x.record.id).isSome = true := by
  obtain ⟨timed, rfl, rfl⟩ := h
  have hpairs : (timed.map fun x => (x.1, x.2.record.id, x.2.record)).map Prod.snd =
      Stored.pairs (timed.map Prod.snd) := by
    simp [Stored.pairs, Function.comp_def]
  have hfilled := Region.filled_putAll hconsistent (hpairs.symm ▸ hfits)
  rw [hpairs] at hfilled
  have hpair : (x.record.id, x.record) ∈ Stored.pairs (timed.map Prod.snd) :=
    List.mem_map_of_mem hx
  obtain ⟨record, hrecord⟩ := Assoc.exists_get?_ofList hpair
  have hvalue := hfilled.value?_of_get? hrecord
  rw [record?, principals_storeAll, hregion, Option.map_some, Option.bind_some]
  exact Option.isSome_of_eq_some hvalue

/-- Every alias of an entry that was stored leads somewhere. -/
theorem exists_target (h : c.Stores stored c') {x : Stored} (hx : x ∈ stored) {name : String}
    (hname : name ∈ x.normalized.aliases) :
    ∃ target, c'.aliases.targets.get? name = some target := by
  obtain ⟨timed, rfl, rfl⟩ := h
  have hlast : (Stored.lastNamed? (timed.map Prod.snd) name).isSome = true := by
    rw [Stored.lastNamed?, List.findRev?_eq_find?_reverse, List.find?_isSome]
    exact ⟨x, List.mem_reverse.mpr hx, by simpa using hname⟩
  obtain ⟨y, hy⟩ := Option.isSome_iff_exists.mp hlast
  exact ⟨_, by rw [target?_storeAll, hy]; rfl⟩

/-- **Live aliases**: where there were no aliases before, each leads to a record that was stored. -/
theorem aliasesLive (h : c.Stores stored c') (haliases : c.aliases = {})
    (hregion : c.principals = some region) (hconsistent : region.Consistent)
    (hfits : region.settings.Fits (Stored.pairs stored)) : c'.AliasesLive := by
  intro name target htarget
  obtain ⟨timed, rfl, rfl⟩ := id h
  have hnone : c.aliases.targets.get? name = none := by rw [haliases]; rfl
  rw [target?_storeAll, hnone, Option.or_none, Option.map_eq_some_iff] at htarget
  obtain ⟨x, hlast, rfl⟩ := htarget
  exact h.record?_isSome hregion hconsistent hfits (Stored.mem_of_lastNamed? hlast).1

end Stores

/-! ## Looking up -/

/-- At an instant none of the records is too old. -/
def Unexpired (c : Cache) (now : Nat) : Prop :=
  ∀ region, c.principals = some region → ∀ id slot, region.slots.get? id = some slot →
    region.expired now slot.cachedAt = false

variable {c : Cache} {now : Nat}

/-- No record has expired before a lifetime has passed on the clock. -/
theorem unexpired_of_le {settings : RegionSettings} {lifetime : Span}
    (hsettings : c.principals.map Region.settings = some settings)
    (hlifetime : settings.ttl = .finite lifetime) (hnow : now ≤ lifetime.toNanos) :
    c.Unexpired now := by
  intro region hregion id slot _
  rw [hregion, Option.map_some, Option.some.injEq] at hsettings
  simp only [Region.expired, hsettings, hlifetime, TimeToLive.lifetime?, decide_eq_false_iff_not]
  omega

/-- An alias that leads to a record finds it. -/
theorem getByAlias_of_live (hnow : c.Unexpired now) {name : String} {target : AliasTarget}
    {record : Record} (htarget : c.aliases.targets.get? name = some target)
    (hrecord : c.record? target.id = some record) : (c.getByAlias now name).1 = some record := by
  obtain ⟨region, hregion, hvalue⟩ := Option.bind_eq_some_iff.mp hrecord
  obtain ⟨slot, hslot, rfl⟩ := Option.map_eq_some_iff.mp hvalue
  have hresolve : c.aliases.resolve? name = some target.id := by
    rw [AliasIndex.resolve?, htarget, Option.map_some]
  rw [getByAlias, hresolve]
  dsimp only
  rw [getPrincipal, hregion]
  dsimp only
  rw [Region.get_of_live hslot (hnow region hregion _ slot hslot)]

/-- **A hit**: where every alias leads to a record, a look-up finds one of them if the key or its
lower-case form is an alias. -/
theorem findPrincipal_hits (hlive : c.AliasesLive) (hnow : c.Unexpired now) {key : String}
    (hkey : ∃ target, c.aliases.targets.get? key = some target ∨
      c.aliases.targets.get? (Text.lowercase key) = some target) :
    ∃ record, (c.findPrincipal now key).1 = some record ∧ ∃ id, c.record? id = some record := by
  unfold findPrincipal
  cases hfirst : c.aliases.targets.get? key with
  | some target =>
      obtain ⟨record, hrecord⟩ := Option.isSome_iff_exists.mp (hlive key target hfirst)
      have hfound := getByAlias_of_live hnow hfirst hrecord
      revert hfound
      generalize c.getByAlias now key = first
      obtain ⟨found, c'⟩ := first
      rintro ⟨rfl⟩
      exact ⟨record, rfl, target.id, hrecord⟩
  | none =>
      have hmiss : c.getByAlias now key = (none, c) := by
        rw [getByAlias, AliasIndex.resolve?, hfirst, Option.map_none]
      obtain ⟨target, htarget⟩ := hkey
      have hlower := htarget.resolve_left (by simp [hfirst])
      have hne : Text.lowercase key ≠ key := by
        intro heq
        rw [heq, hfirst] at hlower
        contradiction
      obtain ⟨record, hrecord⟩ := Option.isSome_iff_exists.mp (hlive _ target hlower)
      rw [hmiss]
      dsimp only
      rw [if_neg hne]
      exact ⟨record, getByAlias_of_live hnow hlower hrecord, target.id, hrecord⟩

end Cache

/-- The alias of a key value is the value or its lower-case form. -/
theorem KeyAttribute.normalize_eq_or (key : KeyAttribute) (text : String) :
    key.normalize text = text ∨ key.normalize text = Text.lowercase text := by
  unfold normalize
  split
  · exact .inl rfl
  · exact .inr rfl

/-- What would be stored of the content of all domains. -/
def DirectoryCatalog.stored (catalog : DirectoryCatalog) (content : DirectoryContent) :
    List Stored :=
  catalog.profiles.flatMap fun q => Listing.stores (q.listing (content q.connectionSettings))

/-- At some instants a principal with a key value is found in the cache.  That it is so for every
resolver, whatever its directory would answer, says that no directory is asked. -/
def World.FindsCached (w : World δ) (during : Nat → Prop) (key : String) : Prop :=
  ∀ (r : Resolver δ) (attributeName : String),
    (r.findPrincipal key attributeName).Achieves (World.Resting during) w fun found w' =>
      (∃ record, found = some record ∧ ∃ id, w.cache.record? id = some record) ∧
        w'.sources = w.sources

/-- **Answered from the cache**: where a look-up hits, no directory is asked. -/
theorem World.findsCached_of_target {w : World δ} {during : Nat → Prop}
    (hlive : w.cache.AliasesLive) (hnow : ∀ now, during now → w.cache.Unexpired now) {key : String}
    (hkey : ∃ target, w.cache.aliases.targets.get? key = some target ∨
      w.cache.aliases.targets.get? (Text.lowercase key) = some target) :
    w.FindsCached during key := by
  intro r attributeName
  refine Activity.achieves_bind.mpr (Activity.achieves_modifyGet.mpr fun w₁ hw₁ => ?_)
  rw [← hw₁.1.1] at hlive hnow hkey ⊢
  obtain ⟨record, hfound, hcached⟩ :=
    Cache.findPrincipal_hits hlive (hnow w₁.now hw₁.2) hkey
  have hresult : (Resolver.lookUp key w₁).1 = some record := hfound
  rw [hresult]
  exact ⟨⟨record, rfl, hcached⟩, hw₁.1.2.1⟩

namespace DirectorySource

/-- **After a refresh every key value is answered from the cache.**  Take a directory that serves
its content, however it pages and whichever calls fail, a store without aliases and a region that
can hold the records of all entries.  After a refresh of all domains, while nothing else touches the
cache:

* every alias leads to a record that is there;
* for every entry of a domain that was not given up, if it can be normalized, and the first value of
  each of its key attributes, a principal is found in the cache under just that text, as long as no
  record has expired;
* no domain is given up unless a call fails. -/
theorem refreshAll_answers_keys {Inv : δ → Prop} {Fault : SourceError → Prop}
    {d : DirectorySource δ} {content : DirectoryContent} {region : Region Record} {w : World δ}
    (hserves : d.client.Serves Inv Fault d.pageSize content) (henabled : d.refreshEnabled = true)
    (hw : Inv w.sources) (hlock : w.directoryLock.queue = []) (haliases : w.cache.aliases = {})
    (hregion : w.cache.principals = some region) (hconsistent : region.Consistent)
    (hcapacity : region.settings.HoldsAll ((d.catalog.stored content).map Stored.record)) :
    d.refreshAll.Achieves World.Undisturbed w fun summary w' =>
      w'.cache.AliasesLive ∧
      (∀ q ∈ d.catalog.profiles, q.name ∉ summary.failed →
        ∀ x ∈ Listing.stores (q.listing (content q.connectionSettings)),
          ∀ key ∈ x.objectClass.keys, ∀ datum text, x.entry.first? key.name = some datum →
            Normalized.valueText key.name datum = .ok text →
              ∀ during : Nat → Prop, (∀ now, during now → w'.cache.Unexpired now) →
                w'.FindsCached during text) ∧
      (summary.failed ≠ [] → ∃ e, Fault e) := by
  refine (refreshAll_read hserves hlock hw).mono ?_
  rintro summary w' ⟨stored, hstores, hlisted, hall, hfault, -⟩
  have hmem : ∀ x ∈ stored, x.record ∈ (d.catalog.stored content).map Stored.record := by
    intro x hx
    obtain ⟨q, hq, hx⟩ := hlisted x hx
    exact List.mem_map_of_mem (List.mem_flatMap.mpr ⟨q, hq, hx⟩)
  have hlive := hstores.aliasesLive haliases hregion hconsistent
    (Stored.fits_pairs hcapacity hmem)
  refine ⟨hlive, fun q hq hreached x hx key hkey datum text hdatum htext during hnow => ?_, hfault⟩
  have hcarries : x.Carries (key.normalize text) := ⟨key, hkey, datum, text, hdatum, htext, rfl⟩
  obtain ⟨target, htarget⟩ := hstores.exists_target (hall henabled q hq hreached x hx)
    (x.mem_aliases_iff.mpr hcarries)
  refine World.findsCached_of_target hlive hnow ⟨target, ?_⟩
  rcases key.normalize_eq_or text with hsame | hlower
  · exact .inl (hsame ▸ htarget)
  · exact .inr (hlower ▸ htarget)

open BrittleDirectory in
/-- The connection to the office breaks twice while it is read.  Then the team Night, which goes by
its name in lower case, is found in the cache all day. -/
theorem refreshAll_answers_keys_of_breaks :
    ∃ summary w' time,
      (source (Office.directory.domain "NORTH")).refreshAll.alone (state [3, 4]) 0 =
        some (summary, w', time) ∧
      summary.failed = [] ∧ w'.cache.AliasesLive ∧
      w'.FindsCached (fun now => now ≤ TimeToLive.daySecs * 1000000000) "Night" := by
  have hcapacity : RegionSettings.HoldsAll {}
      (((source (Office.directory.domain "NORTH")).catalog.stored fun _ request =>
        MemoryDomain.pagesFrom 1 ((Office.directory.domain "NORTH").under request.base)
          DirectorySource.maxPages 0).map Stored.record) :=
    RegionSettings.holdsAll_of_total (by decide +kernel) (by decide +kernel)
  have hanswers := refreshAll_answers_keys (d := source (Office.directory.domain "NORTH"))
    (w := state [3, 4]) (client_serves (Office.directory.domain "NORTH") 1) rfl trivial rfl rfl rfl
    (Region.consistent_empty _) hcapacity
  have hrun : ((source (Office.directory.domain "NORTH")).refreshAll.alone (state [3, 4]) 0).map
      (fun r => (r.1.failed, r.2.1.cache.principals.map Region.settings)) =
        some ([], some {}) := by decide +kernel
  have hteam : (Office.teams, Entry.of "cn=night" [("cn", [.text "Night"])]) ∈
      (Listing.stores ((Office.branch "NORTH").listing fun request =>
        MemoryDomain.pagesFrom 1 ((Office.directory.domain "NORTH").under request.base)
          DirectorySource.maxPages 0)).map fun x => (x.objectClass, x.entry) := by decide +kernel
  rw [Option.map_eq_some_iff] at hrun
  obtain ⟨⟨summary, w', time⟩, hrun, houtcome⟩ := hrun
  simp only [Prod.mk.injEq] at houtcome
  obtain ⟨hfailed, hsettings⟩ := houtcome
  obtain ⟨x, hx, hteam⟩ := List.mem_map.mp hteam
  obtain ⟨hclass, hentry⟩ := Prod.mk.inj hteam
  obtain ⟨hlive, hfinds, -⟩ := hanswers.of_alone World.undisturbed_refl hrun
  refine ⟨summary, w', time, hrun, hfailed, hlive, ?_⟩
  refine hfinds (Office.branch "NORTH") (by decide +kernel) (by simp [hfailed]) x hx
    ⟨"cn", false⟩ (by rw [hclass]; decide) (.text "Night") "Night"
    (by rw [hentry]; decide +kernel) (by decide +kernel) _ fun now hnow => ?_
  exact Cache.unexpired_of_le hsettings rfl hnow

end DirectorySource

end AttrFederation
