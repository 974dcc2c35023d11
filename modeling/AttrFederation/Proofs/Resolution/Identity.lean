import AttrFederation.Proofs.Cache.Records
import AttrFederation.Proofs.Cache.Run
import AttrFederation.Proofs.Resolution.OrgUnits

/-!
# Finding a principal in the directory

A value identifies a principal when looking for it in the directory finds that principal and nobody
else, and no other principal is listed under it (`Identifies`).  A directory that is healthy answers
every search, and then a query finds the principal exactly if its profile is among the candidates
(`queryIdentity_finds`).
-/

namespace AttrFederation

/-- The search for the objects of a class with an identity under a base. -/
def DirectoryProfile.identitySearch (p : DirectoryProfile) (c : ObjectClass) (base id : String) :
    SearchRequest where
  base
  filter := Filter.identity c p.includeDisabled id
  attributes := c.requested

/-- What a directory delivers, or finds, in the domain of some settings. -/
abbrev DirectoryContent := ConnectionSettings → SearchRequest → List Entry

variable {δ : Type}

/-- No call fails: searches by page deliver the content and other searches find what is there. -/
def DirectoryClient.Healthy (client : DirectoryClient (World δ)) (Inv : δ → Prop)
    (pageSize : UInt32) (content found : DirectoryContent) : Prop :=
  ∀ settings, (client.connect settings).Responds Inv fun outcome =>
    ∃ connection, outcome = .ok connection ∧
      connection.Serves Inv (fun _ => False) pageSize (content settings) ∧
      ∀ request, (connection.search request).Responds Inv fun outcome =>
        outcome = .ok (found settings request)

theorem DirectoryClient.Healthy.serves {client : DirectoryClient (World δ)} {Inv : δ → Prop}
    {pageSize : UInt32} {content found : DirectoryContent}
    (h : client.Healthy Inv pageSize content found) :
    client.Serves Inv (fun _ => False) pageSize content := by
  intro settings w hw
  refine (h settings w hw).mono ?_
  rintro outcome w' ⟨⟨connection, rfl, hserves, -⟩, hkept⟩
  exact ⟨hserves, hkept⟩

/-- Of the principals of a catalog just one, of the profile `p` and normalized to `n`, has a value
as its identity. -/
structure DirectoryCatalog.Identifies (catalog : DirectoryCatalog)
    (content found : DirectoryContent) (value : String) (p : DirectoryProfile) (n : Normalized) :
    Prop where
  mem : p ∈ catalog.profiles
  /-- Looking for the value finds an entry. -/
  exists_found : ∃ base ∈ p.users.searchBases,
    found p.connectionSettings (p.identitySearch p.users base value) ≠ []
  /-- Whatever it finds is the principal. -/
  found_eq : ∀ q ∈ catalog.profiles, ∀ base ∈ q.users.searchBases,
    ∀ e ∈ found q.connectionSettings (q.identitySearch q.users base value),
      q = p ∧ Normalized.ofEntry p.name p.users .principal e = .ok n
  /-- Every principal listed under the value, or under its lower-case form, is the principal. -/
  listed_eq : ∀ q ∈ catalog.profiles,
    ∀ x ∈ Listing.stores (q.listings (content q.connectionSettings) .principal),
      value ∈ x.normalized.aliases ∨ Text.lowercase value ∈ x.normalized.aliases →
        x.normalized = n

/-! ## Queries -/

/-- Storing a record leaves the org units alone. -/
theorem Normalized.orgUnits_storeIn (n : Normalized) (kind : ObjectKind) (now : Nat) (c : Cache) :
    (n.storeIn kind now c).orgUnits = c.orgUnits := by
  have hadd : ∀ (names : List String) (d : Cache),
      (names.foldl (fun d name => d.addAlias name n.record.id kind) d).orgUnits = d.orgUnits := by
    intro names
    induction names with
    | nil => exact fun _ => rfl
    | cons name names ih => exact fun d => ih (d.addAlias name n.record.id kind)
  exact hadd n.aliases (c.putPrincipal now n.record)

namespace DirectorySource

variable {during : Nat → Prop} {Inv : δ → Prop} {d : DirectorySource δ}
  {content found : DirectoryContent} {key : String} {p : DirectoryProfile} {n : Normalized}
  {w : World δ}

/-- A query ended with a result and left the org units alone. -/
def Found (Inv : δ → Prop) (w : World δ) (result : Option Record)
    (outcome : Except SourceError (Option Record)) (w' : World δ) : Prop :=
  outcome = .ok result ∧ w'.cache.orgUnits = w.cache.orgUnits ∧ Inv w'.sources

/-- Under some bases the principal is found if one of them has an entry. -/
theorem findUnder_finds {connection : DirectoryConnection (World δ)} {q : DirectoryProfile}
    {c : ObjectClass} {kind : ObjectKind} {found : SearchRequest → List Entry}
    (hsearch : ∀ request, (connection.search request).Responds Inv fun outcome =>
      outcome = .ok (found request))
    (bases : List String)
    (hfound : ∀ base ∈ bases, ∀ e ∈ found (q.identitySearch c base key),
      Normalized.ofEntry q.name c kind e = .ok n) (hw : Inv w.sources) :
    (findUnder connection q c kind key bases).Achieves (World.Resting during) w
      (Found Inv w (if bases.any fun base => !(found (q.identitySearch c base key)).isEmpty
        then some n.record else none)) := by
  induction bases generalizing w with
  | nil => exact ⟨rfl, rfl, hw⟩
  | cons base bases ih =>
      refine Activity.achieves_bind.mpr (((hsearch _).resting hw).mono ?_)
      rintro outcome w₁ ⟨rfl, hcache, hinv⟩
      have hentries : ∀ e ∈ found ⟨base, Filter.identity c q.includeDisabled key, c.requested⟩,
          Normalized.ofEntry q.name c kind e = .ok n := hfound base List.mem_cons_self
      rw [List.any_cons, DirectoryProfile.identitySearch]
      cases hbase : found ⟨base, Filter.identity c q.includeDisabled key, c.requested⟩ with
      | nil =>
          refine (ih (fun base hbase => hfound base (List.mem_cons_of_mem _ hbase)) hinv).mono ?_
          rintro outcome w' ⟨rfl, horgUnits, hinv'⟩
          exact ⟨rfl, by rw [horgUnits, hcache], hinv'⟩
      | cons e entries =>
          rw [hbase] at hentries
          simp only [hentries e List.mem_cons_self]
          intro w₂ hw₂
          refine ⟨rfl, ?_, ?_⟩
          · rw [← hcache, ← hw₂.1.1]
            exact Normalized.orgUnits_storeIn ..
          · show Inv w₂.sources
            rw [hw₂.1.2.1]
            exact hinv

variable (hhealthy : d.client.Healthy Inv d.pageSize content found)
  (hidentifies : d.catalog.Identifies content found key p n)

include hhealthy hidentifies

/-- In a domain the principal is found if it is there. -/
theorem queryDomain_finds {q : DirectoryProfile} (hq : q ∈ d.catalog.profiles)
    (hw : Inv w.sources) :
    (d.queryDomain q .principal key).Achieves (World.Resting during) w
      (Found Inv w (if q = p then some n.record else none)) := by
  unfold queryDomain
  refine Activity.achieves_bind.mpr (((hhealthy q.connectionSettings).resting hw).mono ?_)
  rintro outcome w₁ ⟨⟨connection, rfl, hserves, hsearch⟩, hcache, hinv⟩
  have hfound : ∀ base ∈ q.users.searchBases,
      ∀ e ∈ found q.connectionSettings (q.identitySearch q.users base key),
        Normalized.ofEntry q.name q.users .principal e = .ok n := by
    intro base hbase e he
    obtain ⟨rfl, hn⟩ := hidentifies.found_eq q hq base hbase e he
    exact hn
  refine Activity.achieves_bind.mpr
    ((findUnder_finds hsearch q.users.searchBases hfound hinv).mono ?_)
  rintro outcome w₂ ⟨rfl, horgUnits, hinv₂⟩
  refine Activity.achieves_bind.mpr ((hserves.close.resting hinv₂).mono ?_)
  rintro - w₃ ⟨-, hcache₃, hinv₃⟩
  refine ⟨congrArg _ ?_, by rw [hcache₃, horgUnits, hcache], hinv₃⟩
  -- Some base of the principal's own profile has an entry, and no base of another profile has.
  by_cases hown : q = p
  · subst hown
    obtain ⟨base, hbase, hsome⟩ := hidentifies.exists_found
    rw [if_pos rfl, if_pos]
    exact List.any_eq_true.mpr ⟨base, hbase, by simpa using hsome⟩
  · rw [if_neg hown, if_neg]
    rw [List.any_eq_true]
    rintro ⟨base, hbase, hsome⟩
    obtain ⟨e, he⟩ := List.exists_mem_of_ne_nil _ (by simpa using hsome)
    exact hown (hidentifies.found_eq q hq base hbase e he).1

/-- In domains one after another the principal is found if its own is among them. -/
theorem queryDomains_finds {qs : List DirectoryProfile} (hqs : ∀ q ∈ qs, q ∈ d.catalog.profiles)
    (hw : Inv w.sources) :
    (d.queryDomains .principal key qs).Achieves (World.Resting during) w
      (Found Inv w (if p ∈ qs then some n.record else none)) := by
  induction qs generalizing w with
  | nil => exact ⟨rfl, rfl, hw⟩
  | cons q qs ih =>
      refine Activity.achieves_bind.mpr
        ((queryDomain_finds hhealthy hidentifies (hqs q List.mem_cons_self) hw).mono ?_)
      rintro outcome w₁ ⟨rfl, horgUnits, hinv⟩
      by_cases hown : q = p
      · subst hown
        simp only [if_true, List.mem_cons_self]
        exact ⟨rfl, horgUnits, hinv⟩
      · have hiff : p ∈ q :: qs ↔ p ∈ qs := by simp [Ne.symm hown]
        simp only [if_neg hown, hiff]
        refine (ih (fun q hq => hqs q (List.mem_cons_of_mem _ hq)) hinv).mono ?_
        rintro outcome w' ⟨rfl, horgUnits', hinv'⟩
        exact ⟨rfl, horgUnits'.trans horgUnits, hinv'⟩

/-- **A query** for a value that is not known for a group finds the principal if its profile is
among the candidates. -/
theorem queryIdentity_finds {attributeName : String}
    (hkind : ∀ kind, w.cache.aliases.kindOf? key = some kind → kind = .principal)
    (hw : Inv w.sources) :
    (d.queryIdentity key attributeName).Achieves (World.Resting during) w
      (Found Inv w (if p ∈ d.catalog.providersOf attributeName .principal
        then some n.record else none)) := by
  intro w₁ hw₁
  have hprincipal : (w₁.cache.aliases.kindOf? key).getD .principal = .principal := by
    rw [hw₁.1.1]
    cases h : w.cache.aliases.kindOf? key with
    | none => rfl
    | some kind => exact hkind kind h
  dsimp only [Activity.done_bind]
  rw [hprincipal]
  have hproviders : ∀ q ∈ d.catalog.providersOf attributeName .principal,
      q ∈ d.catalog.profiles := by
    intro q hq
    unfold DirectoryCatalog.providersOf at hq
    split at hq
    · exact (List.mem_filter.mp hq).1
    · exact hq
  refine (queryDomains_finds hhealthy hidentifies hproviders (hw₁.1.2.1 ▸ hw)).mono ?_
  rintro outcome w' ⟨rfl, horgUnits, hinv⟩
  exact ⟨rfl, by rw [horgUnits]; exact congrArg _ hw₁.1.1, hinv⟩

end DirectorySource

end AttrFederation
