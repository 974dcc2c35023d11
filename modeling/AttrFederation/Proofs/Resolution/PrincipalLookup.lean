import AttrFederation.Proofs.Cache.AliasSoundness
import AttrFederation.Proofs.Resolution.Identity
import AttrFederation.Proofs.Source.RetriedEnumeration

/-!
# Finding a principal in the cache or in the directory

A cache leads to a principal when a name and its lower-case form have no other alias targets than
the principal (`Cache.LeadsTo`).  An empty cache does, and so does one after a refresh, if the name
identifies the principal and no group goes by it (`DirectorySource.refreshAll_leadsTo`).

Looking there, and then in the directory, gives the principal or what the directory is asked for
(`findPrincipal_finds`); the answer follows from what was found (`resolve_answers`).
-/

namespace AttrFederation

variable {δ : Type}

/-! ## What a cache leads to -/

namespace Cache

/-- As far as a name or its lower-case form is an alias, it leads to a principal, and the record
there, if there is one, is that of the principal. -/
def LeadsTo (c : Cache) (key : String) (n : Normalized) : Prop :=
  ∀ name, name = key ∨ name = Text.lowercase key →
    ∀ target, c.aliases.targets.get? name = some target →
      target = ⟨n.record.id, .principal⟩ ∧
        ∀ record, c.record? n.record.id = some record → record = n.record

/-- What is not taken away was there before. -/
theorem Shrinks.record?_of_some {c c' : Cache} (h : Shrinks c c') {id : String} {record : Record}
    (hrecord : c'.record? id = some record) : c.record? id = some record := by
  obtain ⟨-, f, hprincipals, hslots⟩ := h
  unfold record? at hrecord ⊢
  rw [hprincipals] at hrecord
  cases hregion : c.principals with
  | none =>
      rw [hregion] at hrecord
      contradiction
  | some region =>
      rw [hregion] at hrecord
      obtain ⟨slot, hslot, hvalue⟩ := Option.map_eq_some_iff.mp hrecord
      exact Option.map_eq_some_iff.mpr ⟨slot, hslots region id slot hslot, hvalue⟩

theorem orgUnits_getByAlias (c : Cache) (now : Nat) (name : String) :
    (c.getByAlias now name).2.orgUnits = c.orgUnits := by
  unfold getByAlias getPrincipal
  split
  · rfl
  · split <;> rfl

theorem orgUnits_findPrincipal (c : Cache) (now : Nat) (key : String) :
    (c.findPrincipal now key).2.orgUnits = c.orgUnits := by
  have hunits := c.orgUnits_getByAlias now key
  unfold findPrincipal
  cases hfirst : c.getByAlias now key with
  | mk found c' =>
      rw [hfirst] at hunits
      cases found with
      | some record => exact hunits
      | none =>
          dsimp only
          split
          · exact hunits
          · exact (c'.orgUnits_getByAlias now _).trans hunits

section LeadsTo

variable {c : Cache} {key : String} {n : Normalized}

/-- A look-up under a name finds the principal or nothing. -/
theorem LeadsTo.getByAlias (h : c.LeadsTo key n) (now : Nat) {name : String}
    (hname : name = key ∨ name = Text.lowercase key) :
    (c.getByAlias now name).1 = none ∨ (c.getByAlias now name).1 = some n.record := by
  cases hfound : (c.getByAlias now name).1 with
  | none => exact .inl rfl
  | some record =>
      obtain ⟨target, region, slot, htarget, hregion, hslot, rfl⟩ :=
        exists_slot_of_getByAlias hfound
      obtain ⟨rfl, hrecord⟩ := h name hname target htarget
      refine .inr (congrArg some (hrecord slot.value ?_))
      rw [record?, hregion, Option.bind_some, hslot]
      rfl

theorem LeadsTo.shrinks (h : c.LeadsTo key n) {c' : Cache} (hshrinks : Shrinks c c') :
    c'.LeadsTo key n := by
  intro name hname target htarget
  rw [hshrinks.1] at htarget
  obtain ⟨heq, hrecord⟩ := h name hname target htarget
  exact ⟨heq, fun record hafter => hrecord record (hshrinks.record?_of_some hafter)⟩

/-- **A look-up of a principal** finds it or nothing, and leaves aliases and org units alone. -/
theorem LeadsTo.findPrincipal (h : c.LeadsTo key n) (now : Nat) :
    ((c.findPrincipal now key).1 = none ∨ (c.findPrincipal now key).1 = some n.record) ∧
      (c.findPrincipal now key).2.aliases = c.aliases ∧
      (c.findPrincipal now key).2.orgUnits = c.orgUnits := by
  refine and_assoc.mp ⟨?_, c.orgUnits_findPrincipal now key⟩
  have hfirst := h.getByAlias now (.inl rfl)
  have hshrinks := c.shrinks_getByAlias now key
  unfold Cache.findPrincipal
  revert hfirst hshrinks
  generalize c.getByAlias now key = first
  obtain ⟨found, c'⟩ := first
  rintro hfirst hshrinks
  cases found with
  | some record => exact ⟨hfirst, hshrinks.1⟩
  | none =>
      dsimp only
      split
      · exact ⟨.inl rfl, hshrinks.1⟩
      · exact ⟨(h.shrinks hshrinks).getByAlias now (.inr rfl),
          (c'.shrinks_getByAlias now _).1.trans hshrinks.1⟩

/-- Without aliases it finds nothing. -/
theorem findPrincipal_of_noAliases (h : c.aliases = {}) (now : Nat) (key : String) :
    (c.findPrincipal now key).1 = none := by
  have hnone : ∀ name, c.getByAlias now name = (none, c) := by
    intro name
    unfold Cache.getByAlias
    rw [h]
    rfl
  unfold Cache.findPrincipal
  simp only [hnone]
  split <;> rfl

theorem leadsTo_of_noAliases (h : c.aliases = {}) (key : String) (n : Normalized) :
    c.LeadsTo key n := by
  intro name _ target htarget
  rw [h] at htarget
  contradiction

end LeadsTo

theorem Stores.orgUnits_eq {c c' : Cache} {xs : List Stored} (h : c.Stores xs c') :
    c'.orgUnits = c.orgUnits := by
  obtain ⟨timed, rfl, rfl⟩ := h
  induction timed using List.reverseRecOn with
  | nil => rfl
  | append_singleton timed x ih =>
      rw [storeAll_concat]
      exact (x.2.normalized.orgUnits_storeIn ..).trans ih

/-- Stores into a cache without aliases lead to a principal if it is the only one of them that goes
by the name. -/
theorem Stores.leadsTo {c c' : Cache} {xs : List Stored} {key : String} {n : Normalized}
    (h : c.Stores xs c') (haliases : c.aliases = {})
    (hlisted : ∀ x ∈ xs, key ∈ x.normalized.aliases ∨ Text.lowercase key ∈ x.normalized.aliases →
      x.normalized = n ∧ x.kind = .principal)
    (hcached : c'.record? n.record.id = some n.record) : c'.LeadsTo key n := by
  obtain ⟨timed, rfl, rfl⟩ := h
  intro name hname target htarget
  refine ⟨?_, fun record hrecord => Option.some.inj (hrecord.symm.trans hcached)⟩
  have hnone : c.aliases.targets.get? name = none := by rw [haliases]; rfl
  rw [target?_storeAll, hnone, Option.or_none, Option.map_eq_some_iff] at htarget
  obtain ⟨x, hlast, rfl⟩ := htarget
  obtain ⟨hmem, hcarries⟩ := Stored.mem_of_lastNamed? hlast
  have hgoesBy : key ∈ x.normalized.aliases ∨ Text.lowercase key ∈ x.normalized.aliases := by
    rw [x.mem_aliases_iff, x.mem_aliases_iff]
    rcases hname with rfl | rfl
    · exact .inl hcarries
    · exact .inr hcarries
  obtain ⟨hnormalized, hkind⟩ := hlisted x hmem hgoesBy
  rw [Stored.record, hnormalized, hkind]

end Cache

/-! ## What a refresh leads to -/

/-- What is read of one class is stored as of that class. -/
theorem Listing.kind_of_mem_stores {q : DirectoryProfile} {content : SearchRequest → List Entry}
    {kind : ObjectKind} {x : Stored} (hx : x ∈ stores (q.listings content kind)) :
    x.kind = kind := by
  obtain ⟨listing, hlisting, hstored⟩ := List.mem_filterMap.mp hx
  have hkind : listing.kind = kind := by
    unfold DirectoryProfile.listings at hlisting
    split at hlisting
    · contradiction
    · obtain ⟨base, -, hbase⟩ := List.mem_flatMap.mp hlisting
      obtain ⟨e, -, rfl⟩ := List.mem_map.mp hbase
      rfl
  unfold stored? Stored.of? at hstored
  split at hstored
  · cases hstored
    exact hkind
  · contradiction

/-- No group is listed under a value or its lower-case form. -/
def DirectoryCatalog.GroupFree (catalog : DirectoryCatalog) (content : DirectoryContent)
    (value : String) : Prop :=
  ∀ q ∈ catalog.profiles, ∀ x ∈ Listing.stores (q.listings (content q.connectionSettings) .group),
    value ∉ x.normalized.aliases ∧ Text.lowercase value ∉ x.normalized.aliases

/-- **A refresh** leads to the principal, if it has cached it and no group goes by the value. -/
theorem DirectorySource.refreshAll_leadsTo {d : DirectorySource δ} {Inv : δ → Prop}
    {content found : DirectoryContent} {key : String} {p : DirectoryProfile} {n : Normalized}
    {w : World δ} (hdirectory : d.client.Healthy Inv d.pageSize content found)
    (hidentifies : d.catalog.Identifies content found key p n)
    (hgroups : d.catalog.GroupFree content key) (hw : Inv w.sources)
    (hlock : w.directoryLock.queue = []) (haliases : w.cache.aliases = {}) :
    d.refreshAll.Achieves World.Undisturbed w fun _ w' =>
      (w'.cache.record? n.record.id = some n.record → w'.cache.LeadsTo key n) ∧
        w'.cache.orgUnits = w.cache.orgUnits ∧ Inv w'.sources := by
  refine (refreshAll_read hdirectory.serves hlock hw).mono ?_
  rintro summary w' ⟨stored, hstores, hread, -, -, hinv⟩
  refine ⟨hstores.leadsTo haliases fun x hx hgoesBy => ?_, hstores.orgUnits_eq, hinv⟩
  obtain ⟨q, hq, hlisted⟩ := hread x hx
  rw [DirectoryProfile.listing, Listing.stores_append, List.mem_append] at hlisted
  rcases hlisted with hprincipal | hgroup
  · exact ⟨hidentifies.listed_eq q hq x hprincipal hgoesBy, Listing.kind_of_mem_stores hprincipal⟩
  · obtain ⟨hkey, hlower⟩ := hgroups q hq x hgroup
    exact absurd hgoesBy (by simp [hkey, hlower])

/-! ## Resolving -/

namespace Resolver

variable {r : Resolver δ} {Inv : δ → Prop} {during : Nat → Prop}
  {content found : DirectoryContent} {answer : BackendAnswer} {key : String}
  {p : DirectoryProfile} {n : Normalized} {w : World δ}

/-- The principal, where the directory is asked for it. -/
def asked (r : Resolver δ) (p : DirectoryProfile) (n : Normalized) (attributeName : String) :
    Option Record :=
  if p ∈ r.directory.catalog.providersOf attributeName .principal then some n.record else none

/-- The answer about what was found: its value, and the null value if there is none. -/
def answerTo (r : Resolver δ) (answer : BackendAnswer) (found : Option Record)
    (attributeName : String) (now : Nat) (c : Cache) : AttributeValue :=
  (found.bind fun record => r.valueOf answer record attributeName now c).getD r.settings.nullValue

theorem answerTo_congr {c c' : Cache} {i j : Nat} (h : c.SameUnits during c') (hi : during i)
    (hj : during j) (found : Option Record) (attributeName : String) :
    r.answerTo answer found attributeName j c' = r.answerTo answer found attributeName i c := by
  simp only [answerTo, r.valueOf_congr answer h hi hj]

/-- **Finding the principal**: a cache without aliases leaves it to the directory, and another one
may give the principal at once. -/
theorem findPrincipal_finds
    (hdirectory : r.directory.client.Healthy Inv r.directory.pageSize content found)
    (hidentifies : r.directory.catalog.Identifies content found key p n)
    (hleads : w.cache.LeadsTo key n) (hw : Inv w.sources) (attributeName : String) :
    (r.findPrincipal key attributeName).Achieves (World.Resting during) w fun result w' =>
      (result = r.asked p n attributeName ∨ result = some n.record ∧ w.cache.aliases ≠ {}) ∧
        w'.cache.orgUnits = w.cache.orgUnits ∧ Inv w'.sources := by
  refine Activity.achieves_bind.mpr (Activity.achieves_modifyGet.mpr fun w₁ hw₁ => ?_)
  rw [← hw₁.1.1] at hleads ⊢
  have hinv : Inv w₁.sources := hw₁.1.2.1 ▸ hw
  obtain ⟨hresult, haliases, hunits⟩ := hleads.findPrincipal w₁.now
  have hfound : (lookUp key w₁).1 = (w₁.cache.findPrincipal w₁.now key).1 := rfl
  rw [hfound]
  cases hfirst : (w₁.cache.findPrincipal w₁.now key).1 with
  | some record =>
      have hrecord := hfirst ▸ hresult.resolve_left (by simp [hfirst])
      refine ⟨.inr ⟨hrecord, fun hnone => ?_⟩, hunits, hinv⟩
      rw [Cache.findPrincipal_of_noAliases hnone] at hfirst
      contradiction
  | none =>
      have hkind : ∀ kind, (lookUp key w₁).2.cache.aliases.kindOf? key = some kind →
          kind = .principal := by
        intro kind hkind
        obtain ⟨target, htarget, rfl⟩ := Option.map_eq_some_iff.mp (haliases ▸ hkind)
        rw [(hleads key (.inl rfl) target htarget).1]
      refine Activity.achieves_bind.mpr
        ((DirectorySource.queryIdentity_finds hdirectory hidentifies hkind hinv).mono ?_)
      rintro outcome w₂ ⟨rfl, hunits₂, hinv₂⟩
      exact ⟨.inl rfl, hunits₂.trans hunits, hinv₂⟩

/-- What is answered about what was found. -/
def Answer (r : Resolver δ) (answer : BackendAnswer) (p : DirectoryProfile) (n : Normalized)
    (attributeName : String) (i : Nat) (c : Cache) (value : AttributeValue) : Prop :=
  value = r.answerTo answer (r.asked p n attributeName) attributeName i c ∨
    value = r.answerTo answer (some n.record) attributeName i c ∧ c.aliases ≠ {}

variable (hdirectory : r.directory.client.Healthy Inv r.directory.pageSize content found)
  (hbackend : r.backend.client.Answers Inv answer)
  (hidentifies : r.directory.catalog.Identifies content found key p n)
  (hleads : w.cache.LeadsTo key n) (hsteady : w.cache.Steady during) (hw : Inv w.sources)
  {subject : Subject} (hkey : subject.get? r.settings.correlationKey = some key)
  (attributeName : String)

include hdirectory hbackend hidentifies hleads hsteady hw hkey

theorem resolve?_answers :
    (r.resolve? subject attributeName).Achieves (World.Resting during) w fun result _ =>
      ∀ i, during i →
        r.Answer answer p n attributeName i w.cache (result.2.getD r.settings.nullValue) := by
  unfold resolve?
  rw [hkey]
  refine Activity.achieves_bind.mpr
    ((findPrincipal_finds hdirectory hidentifies hleads hw attributeName).mono ?_)
  rintro result w₁ ⟨hresult, hunits, hinv⟩
  have hanswer : ∀ value i, value = r.answerTo answer result attributeName i w.cache →
      r.Answer answer p n attributeName i w.cache value := by
    rintro value i rfl
    rcases hresult with rfl | ⟨rfl, haliases⟩
    · exact .inl rfl
    · exact .inr ⟨rfl, haliases⟩
  cases result with
  | none => exact fun i _ => hanswer _ i rfl
  | some record =>
      have hsame : w.cache.SameUnits during w₁.cache := ⟨hunits, hsteady⟩
      have hsteady₁ : w₁.cache.Steady during := by rwa [Cache.Steady, hunits]
      refine (resolveFor_answers hbackend hsteady₁ record attributeName hinv).mono ?_
      intro answered w₂ h i hi
      refine hanswer _ i ?_
      rw [h i hi, ← answerTo_congr hsame hi hi]
      rfl

/-- **Resolving** answers about what is found. -/
theorem resolve_answers :
    (r.resolve subject attributeName).Achieves (World.Resting during) w fun value _ =>
      ∃ i, during i ∧ r.Answer answer p n attributeName i w.cache value := by
  intro w₁ hw₁
  rw [← hw₁.1.1] at hleads hsteady ⊢
  show ((r.resolve? subject attributeName).bind _).Achieves _ w₁ _
  refine Activity.achieves_bind.mpr ((resolve?_answers hdirectory hbackend hidentifies hleads
    hsteady (hw₁.1.2.1 ▸ hw) hkey attributeName).mono fun result w₂ h w₃ hw₃ => ?_)
  exact ⟨w₁.now, hw₁.2, h w₁.now hw₁.2⟩

end Resolver

end AttrFederation
