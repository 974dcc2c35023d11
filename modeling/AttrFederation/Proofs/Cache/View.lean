import AttrFederation.Proofs.Backend.Batch
import AttrFederation.Proofs.Cache.Records
import AttrFederation.Proofs.Resolution.OrgUnits

/-!
# What a cache shows

Reading changes a cache: it counts, and it drops what is too old.  What a cache shows does not
change by that, as long as nothing becomes too old meanwhile.  So a cache is described by what reads
return at some instants (`Region.Shows`, `Cache.Shows`), and each operation by what it does to that:

* reads leave it as it is (`Region.Shows.get`, `Cache.Shows.collect`);
* a batch that is stored without evictions is shown in front of what was shown before
  (`Region.Shows.putAll`, `Cache.Shows.storeIn`).
-/

namespace AttrFederation

variable {during : Nat → Prop} {i : Nat}

/-! ## Regions -/

namespace Region

variable {V : Type} {r : Region V} {shown : String → Option V}

/-- At some instants, reads return what is shown. -/
def Shows (during : Nat → Prop) (r : Region V) (shown : String → Option V) : Prop :=
  ∀ i, during i → ∀ key, (r.get i key).1 = shown key

/-- What is stored at one of some instants is not too old at another. -/
def Fresh (during : Nat → Prop) (r : Region V) : Prop :=
  ∀ i j, during i → during j → r.expired j i = false

theorem expired_eq_of_settings {r' : Region V} (h : r'.settings = r.settings) :
    r'.expired = r.expired := by
  funext now since
  rw [expired, expired, h]

/-- A read returns the value that is there, unless it is too old. -/
theorem get_fst (r : Region V) (now : Nat) (key : String) :
    (r.get now key).1 = (r.slots.get? key).bind fun slot =>
      if r.expired now slot.cachedAt then none else some slot.value := by
  unfold get
  cases r.slots.get? key with
  | none => rfl
  | some slot => cases h : r.expired now slot.cachedAt <;> simp [h]

/-- A region in which the same entries are too old at all instants shows what it shows at one. -/
theorem Steady.shows (h : r.Steady during) (hi : during i) :
    r.Shows during fun key => (r.get i key).1 :=
  fun _ hj key => congrArg Prod.fst (h.get_eq hj hi key)

namespace Shows

/-- **Reading** leaves what is shown. -/
theorem get (h : r.Shows during shown) (hi : during i) (key : String) :
    (r.get i key).2.Shows during shown := by
  intro j hj other
  rw [← h j hj other, get_fst, get_fst, expired_eq_of_settings (settings_get r i key)]
  rcases get?_get r i key other with hsame | ⟨rfl, hnone, slot, hslot, hold⟩
  · rw [hsame]
  · -- An entry that was dropped was too old, so it was not shown.
    have hhidden := (h i hi other).symm.trans (congrArg Prod.fst (get_of_expired hslot hold))
    rw [← h j hj other, get_fst] at hhidden
    rw [hnone, hhidden]
    rfl

variable [Measured V]

/-- A put without evictions shows its value under its key. -/
theorem put (h : r.Shows during shown) (hfresh : r.Fresh during) (hi : during i) (key : String)
    (value : V) (hkept : (r.put i key value).counts.evictions = r.counts.evictions) :
    (r.put i key value).Shows during fun other => if other = key then some value else shown other := by
  intro j hj other
  rw [get_fst, expired_eq_of_settings (settings_put r i key value)]
  by_cases hother : other = key
  · obtain ⟨seq, hslot⟩ := r.get?_put_self i key value
    have hlive := hfresh i j hi hj
    simp [hother, hslot, hlive]
  · rw [(r.put_evictions i key value).2 hkept other hother, ← get_fst, h j hj other]
    exact (if_neg hother).symm

end Shows

/-- Where entries live for ever, none becomes too old. -/
theorem expired_of_infinite (h : r.settings.ttl = .infinite) (now since : Nat) :
    r.expired now since = false := by
  rw [expired, h]
  rfl

theorem steady_of_infinite (h : r.settings.ttl = .infinite) : r.Steady during := by
  intro key slot _ i j _ _
  rw [expired_of_infinite h, expired_of_infinite h]

theorem fresh_of_infinite (h : r.settings.ttl = .infinite) : r.Fresh during :=
  fun i j _ _ => expired_of_infinite h j i

theorem Fresh.of_settings_eq {r' : Region V} (h : r.Fresh during)
    (hsettings : r'.settings = r.settings) : r'.Fresh during := by
  unfold Fresh
  rw [expired_eq_of_settings hsettings]
  exact h

variable [Measured V]

theorem settings_putAll (r : Region V) (timed : List (Nat × String × V)) :
    (r.putAll timed).settings = r.settings := by
  induction timed using List.reverseRecOn with
  | nil => rfl
  | append_singleton timed put ih => simpa [putAll] using ih

theorem putAll_evictions (r : Region V) (timed : List (Nat × String × V)) :
    r.counts.evictions ≤ (r.putAll timed).counts.evictions := by
  induction timed using List.reverseRecOn with
  | nil => exact Nat.le_refl _
  | append_singleton timed put ih =>
      have hput := ((r.putAll timed).put_evictions put.1 put.2.1 put.2.2).1
      simpa [putAll] using Nat.le_trans ih hput

/-- **Puts without evictions** show the last value of each key in front of what was shown. -/
theorem Shows.putAll (h : r.Shows during shown) (hfresh : r.Fresh during) (hi : during i)
    (pairs : List (String × V))
    (hkept : (r.putAll (pairs.map (i, ·))).counts.evictions = r.counts.evictions) :
    (r.putAll (pairs.map (i, ·))).Shows during fun key =>
      ((Assoc.ofList pairs).get? key).or (shown key) := by
  induction pairs using List.reverseRecOn with
  | nil => exact h
  | append_singleton pairs pair ih =>
      rw [putAll_concat] at hkept ⊢
      have hle := r.putAll_evictions (pairs.map (i, ·))
      have hle' := ((r.putAll (pairs.map (i, ·))).put_evictions i pair.1 pair.2).1
      have hshows := (ih (by omega)).put (hfresh.of_settings_eq (r.settings_putAll _)) hi pair.1
        pair.2 (by omega)
      intro j hj key
      rw [hshows j hj key, Assoc.ofList_concat]
      by_cases hkey : key = pair.1 <;> simp [Assoc.get?_set, hkey]

end Region

/-! ## Caches -/

namespace Cache

/-- The org units that were evicted so far. -/
def unitEvictions (c : Cache) : Nat :=
  (c.stats .orgUnit).counts.evictions

/-- What reads of a cache return, and the org units evicted so far. -/
structure View where
  aliases : AliasIndex
  record? : String → Option Record
  unit? : String → Option OrgUnit
  evictions : Nat

namespace View

variable (v : View)

/-- The record that an alias leads to. -/
def lead? (name : String) : Option Record :=
  (v.aliases.resolve? name).bind v.record?

/-- The record that a key leads to, as it is or in lower case. -/
def principal? (key : String) : Option Record :=
  (v.lead? key).or (v.lead? (Text.lowercase key))

/-- The org unit of an id, as it is or in lower case. -/
def found? (id : String) : Option OrgUnit :=
  (v.unit? id).or (v.unit? (Text.lowercase id))

/-- The ids for which there is no org unit. -/
def misses (ids : List String) : List String :=
  ids.filter fun id => (v.found? id).isNone

/-- What the org units of ids supply for an attribute. -/
def values (attributeName : String) (ids : List String) : List String :=
  ids.flatMap fun id => ((v.found? id).map (·.supply attributeName)).getD []

/-- The view with the units of a batch in front. -/
def withBatch (batch : Batch) : View :=
  { v with unit? := fun id => (batch.unit? id).or (v.unit? id) }

end View

/-- At some instants, reads return what is shown, and no org unit stored meanwhile is too old. -/
structure Shows (during : Nat → Prop) (c : Cache) (v : View) : Prop where
  aliases : c.aliases = v.aliases
  records : ∀ i, during i → ∀ id,
    (c.principals.bind fun region => (region.get i id).1) = v.record? id
  region : ∃ region, c.orgUnits = some region ∧ region.Shows during v.unit? ∧
    region.Fresh during ∧ region.counts.evictions = v.evictions

/-- At some instants nothing becomes too old, neither what is there nor an org unit stored
meanwhile. -/
structure Unexpiring (during : Nat → Prop) (c : Cache) : Prop where
  principals : ∀ region, c.principals = some region → region.Steady during
  orgUnits : ∃ region, c.orgUnits = some region ∧ region.Steady during ∧ region.Fresh during

/-- Where entries live for ever, nothing becomes too old. -/
theorem unexpiring_of_infinite {during : Nat → Prop} {c : Cache}
    (hprincipals : c.principals.map (fun region => region.settings.ttl) = some .infinite)
    (hunits : c.orgUnits.map (fun region => region.settings.ttl) = some .infinite) :
    c.Unexpiring during := by
  obtain ⟨records, hrecords, hrecordsTtl⟩ := Option.map_eq_some_iff.mp hprincipals
  obtain ⟨units, hunits, hunitsTtl⟩ := Option.map_eq_some_iff.mp hunits
  constructor
  · intro region hregion
    rw [hrecords] at hregion
    obtain rfl := Option.some.inj hregion
    exact Region.steady_of_infinite hrecordsTtl
  · exact ⟨units, hunits, Region.steady_of_infinite hunitsTtl, Region.fresh_of_infinite hunitsTtl⟩

/-- At a single instant nothing becomes too old. -/
theorem unexpiring_of_instant {c : Cache} {region : Region OrgUnit}
    (hregion : c.orgUnits = some region) (i : Nat) : c.Unexpiring (· = i) := by
  refine ⟨fun region _ => region.steady_of_instant i, region, hregion,
    region.steady_of_instant i, ?_⟩
  rintro _ _ rfl rfl
  unfold Region.expired
  split <;> simp

/-- What reads return at an instant. -/
def viewAt (c : Cache) (i : Nat) : View where
  aliases := c.aliases
  record? id := c.principals.bind fun region => (region.get i id).1
  unit? id := c.orgUnits.bind fun region => (region.get i id).1
  evictions := c.unitEvictions

theorem unitEvictions_of_some {c : Cache} {region : Region OrgUnit}
    (h : c.orgUnits = some region) : c.unitEvictions = region.counts.evictions := by
  rw [unitEvictions, stats, h, Option.map_some, Option.getD_some, Region.stats]

/-- **While nothing becomes too old**, a cache shows what it shows at one instant. -/
theorem Unexpiring.shows {c : Cache} (h : c.Unexpiring during) (hi : during i) :
    c.Shows during (c.viewAt i) := by
  obtain ⟨region, hregion, hsteady, hfresh⟩ := h.orgUnits
  have hrecords : ∀ j, during j → ∀ id, (c.principals.bind fun region => (region.get j id).1) =
      (c.viewAt i).record? id := by
    intro j hj id
    unfold viewAt
    cases hprincipals : c.principals with
    | none => simp
    | some region => exact (h.principals region hprincipals).shows hi j hj id
  have hunits : (c.viewAt i).unit? = fun id => (region.get i id).1 := by
    funext id
    simp [viewAt, hregion]
  have hshows : region.Shows during (c.viewAt i).unit? := hunits ▸ hsteady.shows hi
  exact ⟨rfl, hrecords, region, hregion, hshows, hfresh, (unitEvictions_of_some hregion).symm⟩

namespace Shows

variable {c : Cache} {v : View}

/-! ### Reading -/

theorem getPrincipal (h : c.Shows during v) (hi : during i) (id : String) :
    (c.getPrincipal i id).1 = v.record? id ∧ (c.getPrincipal i id).2.Shows during v := by
  have hrecord := h.records i hi id
  unfold Cache.getPrincipal
  cases hprincipals : c.principals with
  | none => exact ⟨by rw [← hrecord, hprincipals]; rfl, h⟩
  | some region =>
      have hshows : region.Shows during v.record? := by
        intro j hj other
        simpa [hprincipals] using h.records j hj other
      refine ⟨hshows i hi id, h.aliases, ?_, h.region⟩
      exact fun j hj other => hshows.get hi id j hj other

theorem getByAlias (h : c.Shows during v) (hi : during i) (name : String) :
    (c.getByAlias i name).1 = v.lead? name ∧ (c.getByAlias i name).2.Shows during v := by
  unfold Cache.getByAlias View.lead?
  rw [h.aliases]
  cases v.aliases.resolve? name with
  | none => exact ⟨rfl, h⟩
  | some id => exact h.getPrincipal hi id

theorem findPrincipal (h : c.Shows during v) (hi : during i) (key : String) :
    (c.findPrincipal i key).1 = v.principal? key ∧ (c.findPrincipal i key).2.Shows during v := by
  obtain ⟨hlead, hshows⟩ := h.getByAlias hi key
  unfold Cache.findPrincipal View.principal?
  cases hfirst : c.getByAlias i key with
  | mk found c' =>
      rw [hfirst] at hlead hshows
      cases found with
      | some record => exact ⟨by simp [← hlead], hshows⟩
      | none =>
          obtain ⟨hlead', hshows'⟩ := hshows.getByAlias hi (Text.lowercase key)
          rw [← hlead, Option.none_or, ← hlead']
          dsimp only
          split
          · next hsame =>
              have hnone : (c'.getByAlias i (Text.lowercase key)).1 = none := by
                rw [hlead', hsame, ← hlead]
              exact ⟨hnone.symm, hshows⟩
          · exact ⟨rfl, hshows'⟩

theorem getOrgUnit (h : c.Shows during v) (hi : during i) (id : String) :
    (c.getOrgUnit i id).1 = v.unit? id ∧ (c.getOrgUnit i id).2.Shows during v := by
  obtain ⟨region, hregion, hshows, hfresh, hevictions⟩ := h.region
  unfold Cache.getOrgUnit
  rw [hregion]
  have hkept : (region.get i id).2.counts.evictions = region.counts.evictions := by
    unfold Region.get
    split
    · rfl
    · split <;> rfl
  exact ⟨hshows i hi id, h.aliases, h.records, _, rfl, hshows.get hi id,
    hfresh.of_settings_eq (region.settings_get i id), hkept.trans hevictions⟩

theorem findOrgUnit (h : c.Shows during v) (hi : during i) (id : String) :
    (c.findOrgUnit i id).1 = v.found? id ∧ (c.findOrgUnit i id).2.Shows during v := by
  obtain ⟨hunit, hshows⟩ := h.getOrgUnit hi id
  unfold Cache.findOrgUnit View.found?
  cases hfirst : c.getOrgUnit i id with
  | mk found c' =>
      rw [hfirst] at hunit hshows
      cases found with
      | some unit => exact ⟨by simp [← hunit], hshows⟩
      | none =>
          obtain ⟨hunit', hshows'⟩ := hshows.getOrgUnit hi (Text.lowercase id)
          exact ⟨by rw [← hunit, Option.none_or]; exact hunit', hshows'⟩

/-- **Collecting** finds the values and the misses that are shown. -/
theorem collect (h : c.Shows during v) (hi : during i) (attributeName : String)
    (ids : List String) :
    (CachedValues.collect attributeName i ids c).1 = ⟨v.values attributeName ids, v.misses ids⟩ ∧
      (CachedValues.collect attributeName i ids c).2.Shows during v := by
  induction ids generalizing c with
  | nil => exact ⟨rfl, h⟩
  | cons id ids ih =>
      obtain ⟨hfound, hshows⟩ := h.findOrgUnit hi id
      obtain ⟨hrest, hshows'⟩ := ih hshows
      simp only [CachedValues.collect, hfound, hrest]
      cases hid : v.found? id with
      | some unit => exact ⟨by simp [View.values, View.misses, hid], hshows'⟩
      | none => exact ⟨by simp [View.values, View.misses, hid], hshows'⟩

/-! ### Storing -/

/-- **A batch that is stored without evictions** is shown in front. -/
theorem storeIn (h : c.Shows during v) (hi : during i) (batch : Batch)
    (hkept : (batch.storeIn i c).unitEvictions = v.evictions) :
    (batch.storeIn i c).Shows during (v.withBatch batch) := by
  obtain ⟨region, hregion, hshows, hfresh, hevictions⟩ := h.region
  rw [Batch.storeIn_eq, hregion] at hkept ⊢
  have hevicted : (region.putAll (batch.pairs.map (i, ·))).counts.evictions = v.evictions := hkept
  have hshown := hshows.putAll hfresh hi batch.pairs (hevicted.trans hevictions.symm)
  simp only [Batch.get?_ofList_pairs] at hshown
  exact ⟨h.aliases, h.records, _, rfl, hshown, hfresh.of_settings_eq (region.settings_putAll _),
    hevicted⟩

end Shows

end Cache

end AttrFederation
