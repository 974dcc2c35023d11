import AttrFederation.Proofs.Cache.View
import AttrFederation.Proofs.Resolution.Repetition

/-!
# Negative units and lower case

A response may have the details of an org unit under the lower-case form of the id that was asked
for.  The cache looks for an id as it is and then in lower case, but a batch has a negative unit for
every id that was asked for and has no details of its own, whatever there is in lower case.

* `Batch.unit?_viewAt_storeIn` — a batch that fits is shown after it was stored;
* `BackendResponse.collect_storeIn` — after a response was stored, an id that was asked for supplies
  the values of its own details;
* `BackendResponse.supplies_iff` — so the unit in lower case counts for nothing: an id supplies what
  is meant exactly if it has details of its own, or if nothing is meant;
* `BackendResponse.not_supplies_in_capitals` — one id in capitals whose details are in lower case.
-/

namespace AttrFederation

/-! ## Batches that were just stored -/

/-- **A batch that fits** is shown after it was stored, until it is too old. -/
theorem Batch.unit?_viewAt_storeIn {c : Cache} {region : Region OrgUnit} {batch : Batch}
    (hregion : c.orgUnits = some region) (hconsistent : region.Consistent)
    (hfits : region.settings.Fits batch.pairs) {now later : Nat}
    (hlive : region.expired later now = false) {id : String} {unit : OrgUnit}
    (hunit : batch.unit? id = some unit) :
    ((batch.storeIn now c).viewAt later).unit? id = some unit := by
  have hfilled := Batch.filled_putAll hconsistent hfits now
  obtain ⟨slot, hslot, rfl, hnew⟩ :=
    hfilled.filled id unit ((batch.get?_ofList_pairs id).trans hunit)
  have hcached : slot.cachedAt = now := Region.cachedAt_putAll hconsistent now _ hslot hnew
  have hfresh : (region.putAll (batch.pairs.map (now, ·))).expired later slot.cachedAt = false := by
    rw [Region.expired_eq_of_settings hfilled.settings, hcached, hlive]
  rw [Cache.viewAt, Batch.orgUnits_storeIn, hregion]
  exact congrArg Prod.fst (Region.get_of_live hslot hfresh)

/-- An id of such a batch supplies the values of its unit, and is not missed. -/
theorem Batch.collect_storeIn {c : Cache} {region : Region OrgUnit} {batch : Batch}
    (hregion : c.orgUnits = some region) (hconsistent : region.Consistent)
    (hfits : region.settings.Fits batch.pairs) {now later : Nat}
    (hlive : region.expired later now = false) {ids : List String}
    (hids : ∀ id ∈ ids, (batch.unit? id).isSome = true) (attributeName : String) :
    (CachedValues.collect attributeName later ids (batch.storeIn now c)).1 =
      ⟨ids.flatMap fun id => ((batch.unit? id).map (·.supply attributeName)).getD [], []⟩ := by
  have hstored : (batch.storeIn now c).orgUnits =
      some (region.putAll (batch.pairs.map (now, ·))) := by
    rw [Batch.orgUnits_storeIn, hregion, Option.map_some]
  have hshows := (Cache.unexpiring_of_instant hstored later).shows rfl
  have hfound : ∀ id ∈ ids, ((batch.storeIn now c).viewAt later).found? id = batch.unit? id := by
    intro id hid
    obtain ⟨unit, hunit⟩ := Option.isSome_iff_exists.mp (hids id hid)
    have hshown := unit?_viewAt_storeIn hregion hconsistent hfits hlive hunit
    rw [Cache.View.found?, hshown, Option.some_or, hunit]
  rw [(hshows.collect rfl attributeName ids).1, Cache.View.values, Cache.View.misses]
  congr 1
  · exact List.flatMap_congr fun id hid => by rw [hfound id hid]
  · refine List.filter_eq_nil_iff.mpr fun id hid => ?_
    have hsome := hids id hid
    rw [← hfound id hid, Option.isSome_iff_ne_none] at hsome
    simpa using hsome

/-! ## What a response says of an id -/

namespace BackendResponse

/-- The details that a response has. -/
def details (r : BackendResponse) : List Detail :=
  ((r.tables.get? BackendRequest.detailTable).getD []).filterMap Detail.ofRow?

/-- The unit made of the details of an id, if there are any. -/
def unitOf? (r : BackendResponse) (id : String) : Option OrgUnit :=
  if id ∈ r.details.map Detail.id then some (.ofDetails r.details id) else none

/-- The values of the unit of an id. -/
def ownValues (r : BackendResponse) (attributeName id : String) : List String :=
  ((r.unitOf? id).map (·.supply attributeName)).getD []

/-- What an id is meant to supply: the values of its own unit or, if it has none, those of the unit
of the id in lower case. -/
def meantValues (r : BackendResponse) (attributeName id : String) : List String :=
  (((r.unitOf? id).or (r.unitOf? (Text.lowercase id))).map (·.supply attributeName)).getD []

variable {response : BackendResponse} {requested : List String}

/-- The batch of a response without errors and with details. -/
theorem ofResponse_eq (hreturn : response.tables.get? BackendRequest.returnTable = some [])
    (hdetails : (response.tables.get? BackendRequest.detailTable).isSome = true) :
    Batch.ofResponse response requested = .ofDetails response.details requested := by
  obtain ⟨rows, hrows⟩ := Option.isSome_iff_exists.mp hdetails
  simp only [Batch.ofResponse, hreturn, hrows, details, Option.getD_some]

/-- Such a batch has a unit for each id with details, and a negative one for each other id that was
asked for. -/
theorem unit?_ofDetails_details (id : String) :
    (Batch.ofDetails response.details requested).unit? id =
      (response.unitOf? id).or (if id ∈ requested then some (.negative id) else none) := by
  rw [Batch.unit?_ofDetails, unitOf?]
  by_cases h : id ∈ response.details.map Detail.id <;> simp [h, -List.mem_map]

/-! ## After the response was stored -/

/-- **Own values only**: an id that was asked for supplies the values of its own details. -/
theorem collect_storeIn (hreturn : response.tables.get? BackendRequest.returnTable = some [])
    (hdetails : (response.tables.get? BackendRequest.detailTable).isSome = true)
    {c : Cache} {region : Region OrgUnit} (hregion : c.orgUnits = some region)
    (hconsistent : region.Consistent)
    (hholds : region.settings.Holds (.ofList (Batch.ofResponse response requested).pairs))
    {now later : Nat} (hlive : region.expired later now = false) {ids : List String}
    (hids : ids ⊆ requested) (attributeName : String) :
    (CachedValues.collect attributeName later ids
        ((Batch.ofResponse response requested).storeIn now c)).1 =
      ⟨ids.flatMap (response.ownValues attributeName), []⟩ := by
  have hunit : ∀ id, (Batch.ofDetails response.details requested).unit? id =
      (response.unitOf? id).or (if id ∈ requested then some (.negative id) else none) :=
    unit?_ofDetails_details
  rw [ofResponse_eq hreturn hdetails] at hholds ⊢
  -- each id that was asked for has a unit, so none is looked for in lower case
  have hcovered : ∀ id ∈ ids,
      ((Batch.ofDetails response.details requested).unit? id).isSome = true := by
    intro id hid
    rw [hunit, if_pos (hids hid)]
    cases response.unitOf? id <;> rfl
  rw [Batch.collect_storeIn hregion hconsistent (Batch.fits_pairs hholds) hlive hcovered]
  congr 1
  refine List.flatMap_congr fun id hid => ?_
  rw [hunit, if_pos (hids hid), ownValues]
  cases response.unitOf? id with
  | some unit => rfl
  | none =>
      rw [Option.none_or, Option.map_some, Option.getD_some, OrgUnit.supply_negative]
      rfl

/-- **Negative units hide lower case**: let a response without errors and with details be stored in
a region that can hold its batch, and let the batch not be too old when it is read.  Then the ids
that were asked for supply the values of their own details, in their order, and none is missed.  So
an id supplies what is meant exactly if it has details of its own, or if nothing is meant. -/
theorem supplies_iff (hreturn : response.tables.get? BackendRequest.returnTable = some [])
    (hdetails : (response.tables.get? BackendRequest.detailTable).isSome = true)
    {c : Cache} {region : Region OrgUnit} (hregion : c.orgUnits = some region)
    (hconsistent : region.Consistent)
    (hholds : region.settings.Holds (.ofList (Batch.ofResponse response requested).pairs))
    {now later : Nat} (hlive : region.expired later now = false) (attributeName : String) :
    let collected := fun ids => (CachedValues.collect attributeName later ids
      ((Batch.ofResponse response requested).storeIn now c)).1
    (∀ ids ⊆ requested,
      collected ids = ⟨ids.flatMap (response.ownValues attributeName), []⟩) ∧
    (∀ id ∈ requested, ((collected [id]).values = response.meantValues attributeName id ↔
      (response.unitOf? id).isSome = true ∨ response.meantValues attributeName id = [])) := by
  intro collected
  have hcollected : ∀ ids ⊆ requested,
      collected ids = ⟨ids.flatMap (response.ownValues attributeName), []⟩ := fun ids hids =>
    collect_storeIn hreturn hdetails hregion hconsistent hholds hlive hids attributeName
  refine ⟨hcollected, fun id hid => ?_⟩
  rw [hcollected [id] (by simpa using hid), List.flatMap_singleton]
  cases hown : response.unitOf? id with
  | some unit => simp [ownValues, meantValues, hown]
  | none =>
      have hnothing : response.ownValues attributeName id = [] := by rw [ownValues, hown]; rfl
      rw [hnothing, Option.isSome_none, or_iff_right Bool.false_ne_true, eq_comm]

/-- An empty region that keeps org units for ever. -/
def lastingUnits : Region OrgUnit := .empty { ttl := .infinite }

/-- A response without errors that has a storage location for each of some ids. -/
def locations (values : List (String × String)) : BackendResponse where
  tables := .ofList
    [(BackendRequest.returnTable, []),
      (BackendRequest.detailTable, values.map fun (id, value) => Detail.toRow ⟨id, "sloc", value⟩)]

/-- Two ids with details, of which one was asked for in capitals. -/
theorem supplies_iff_of_locations :
    let response := locations [("u1", "L1"), ("u2", "L2")]
    let collected := fun ids => (CachedValues.collect "sloc" 5 ids
      ((Batch.ofResponse response ["u1", "U2"]).storeIn 3 { orgUnits := some lastingUnits })).1
    collected ["U2", "u1"] = ⟨["L1"], []⟩ ∧
      (collected ["u1"]).values = response.meantValues "sloc" "u1" := by
  intro response collected
  have hreturn : response.tables.get? BackendRequest.returnTable = some [] := by decide +kernel
  have hdetails : (response.tables.get? BackendRequest.detailTable).isSome = true := by
    decide +kernel
  have hholds : lastingUnits.settings.Holds
      (.ofList (Batch.ofResponse response ["u1", "U2"]).pairs) := by decide +kernel
  have hlive : lastingUnits.expired 5 3 = false := Region.expired_of_infinite rfl 5 3
  obtain ⟨hcollected, hsupplies⟩ := supplies_iff (c := { orgUnits := some lastingUnits }) hreturn
    hdetails rfl (Region.consistent_empty _) hholds hlive "sloc"
  have hvalues : ["U2", "u1"].flatMap (response.ownValues "sloc") = ["L1"] := by decide +kernel
  have hown : (response.unitOf? "u1").isSome = true := by decide +kernel
  exact ⟨hvalues ▸ hcollected ["U2", "u1"] (by decide), (hsupplies "u1" (by decide)).mpr (.inl hown)⟩

/-- **An id in capitals** was asked for, and the response has details under its lower-case form.  A
region with room for both units has nothing to supply for the id after the response was stored. -/
theorem not_supplies_in_capitals :
    let response := locations [("a1", "L1")]
    let batch := Batch.ofResponse response ["A1"]
    response.tables.get? BackendRequest.returnTable = some [] ∧
      (response.unitOf? (Text.lowercase "A1")).isSome = true ∧
      lastingUnits.settings.Holds (.ofList batch.pairs) ∧
      (CachedValues.collect "sloc" 0 ["A1"]
        (batch.storeIn 0 { orgUnits := some lastingUnits })).1.values = [] ∧
      response.meantValues "sloc" "A1" = ["L1"] := by
  decide +kernel

end BackendResponse

end AttrFederation
