import AttrFederation.Proofs.Cache.Records
import AttrFederation.Proofs.Region.PutAll
import AttrFederation.Proofs.Source.StoreLog
import AttrFederation.Source.Memory

/-!
# What a detail table says

The unit of an id is made of the details with that id, in their order (`OrgUnit.ofDetails`).  A
batch has one for each id in the table, in the order in which the ids first come
(`records_ofDetails`), and a negative unit for each id asked for that is not in the table.  The two
have no id in common, so each id has at most one unit (`unit?_ofDetails`).

A backend in memory without errors to report responds with the details of the ids asked for
(`MemoryBackend.ofResponse_response`).
-/

namespace AttrFederation

/-! ## Units -/

namespace OrgUnit

/-- A unit is not negative if one of its columns is present. -/
theorem isNegative_eq_false_iff {u : OrgUnit} :
    u.isNegative = false ↔ ∃ c, (u.column c).isSome = true := by
  simp only [isNegative, List.all_eq_false, Bool.not_eq_true, Option.isNone_eq_false_iff]
  exact ⟨fun ⟨c, _, h⟩ => ⟨c, h⟩, fun ⟨c, h⟩ => ⟨c, c.mem_all, h⟩⟩

/-- The unit that details make for an id. -/
def ofDetails (details : List Detail) (id : String) : OrgUnit :=
  (details.filter fun d => d.id = id).foldl (fun u d => d.addTo u) (.blank id)

end OrgUnit

namespace Detail

theorem id_addTo (d : Detail) (u : OrgUnit) : (d.addTo u).id = u.id := by
  unfold addTo
  split
  · rfl
  · split <;> rfl

theorem isNegative_addTo (d : Detail) {u : OrgUnit} (h : u.isNegative = false) :
    (d.addTo u).isNegative = false := by
  unfold addTo
  split
  · exact h
  · next column _ =>
      split
      · exact h
      · refine OrgUnit.isNegative_eq_false_iff.mpr ⟨column, ?_⟩
        simp [OrgUnit.push, OrgUnit.withColumn]

end Detail

namespace OrgUnit

theorem ofDetails_concat (details : List Detail) (d : Detail) (id : String) :
    ofDetails (details ++ [d]) id =
      if d.id = id then d.addTo (ofDetails details id) else ofDetails details id := by
  unfold ofDetails
  by_cases h : d.id = id <;> simp [List.filter_append, h]

/-- Without details the unit is blank. -/
theorem ofDetails_of_not_mem {details : List Detail} {id : String}
    (h : id ∉ details.map Detail.id) : ofDetails details id = .blank id := by
  have hnone : (details.filter fun d => d.id = id) = [] := by
    rw [List.filter_eq_nil_iff]
    rintro d hd hid
    exact h (List.mem_map.mpr ⟨d, hd, of_decide_eq_true hid⟩)
  rw [ofDetails, hnone]
  rfl

/-- The unit of an id has that id, and is not negative. -/
theorem id_isNegative_ofDetails (details : List Detail) (id : String) :
    (ofDetails details id).id = id ∧ (ofDetails details id).isNegative = false := by
  induction details using List.reverseRecOn with
  | nil => exact ⟨rfl, rfl⟩
  | append_singleton details d ih =>
      rw [ofDetails_concat]
      split
      · exact ⟨(d.id_addTo _).trans ih.1, d.isNegative_addTo ih.2⟩
      · exact ih

/-- Details of other ids do not count for the unit of an id. -/
theorem ofDetails_filter {p : String → Bool} {id : String} (h : p id = true)
    (details : List Detail) : ofDetails (details.filter fun d => p d.id) id = ofDetails details id := by
  have hsame : ((details.filter fun d => p d.id).filter fun d => d.id = id) =
      details.filter fun d => d.id = id := by
    rw [List.filter_filter]
    refine List.filter_congr fun d _ => ?_
    by_cases hid : d.id = id <;> simp [hid, h]
  rw [ofDetails, hsame, ofDetails]

end OrgUnit

/-! ## Values made for keys -/

/-- What is made for keys is found under them. -/
theorem findRev?_map_keyed {β : Type} {key : β → String} {make : String → β}
    (hkey : ∀ id, key (make id) = id) (ids : List String) (id : String) :
    ((ids.map make).findRev? fun x => key x = id) = if id ∈ ids then some (make id) else none := by
  induction ids using List.reverseRecOn with
  | nil => rfl
  | append_singleton ids other ih =>
      rw [List.map_append, List.map_singleton, findRev?_concat, hkey, ih]
      by_cases h : other = id
      · subst h
        simp
      · simp [h, Ne.symm h]

theorem Assoc.get?_ofList_map {β : Type} (value : String → β) (ids : List String) (id : String) :
    (ofList (ids.map fun id => (id, value id))).get? id =
      if id ∈ ids then some (value id) else none := by
  rw [get?_ofList, findRev?_map_keyed fun _ => rfl]
  split <;> rfl

/-! ## Batches -/

/-- The units collected from details: one for each id, made of its own details. -/
theorem Detail.get?_foldl_collect (details : List Detail) (id : String) :
    (details.foldl collect ∅).get? id =
      if id ∈ details.map Detail.id then some (OrgUnit.ofDetails details id) else none := by
  induction details using List.reverseRecOn with
  | nil => rfl
  | append_singleton details d ih =>
      rw [List.foldl_append, OrgUnit.ofDetails_concat]
      simp only [List.foldl_cons, List.foldl_nil, collect, Assoc.get?_set, List.map_append,
        List.map_cons, List.map_nil, List.mem_append, List.mem_singleton]
      by_cases h : id = d.id
      · subst h
        have hsofar : ((details.foldl collect ∅).get? d.id).getD (.blank d.id) =
            OrgUnit.ofDetails details d.id := by
          rw [ih]
          split
          · rfl
          · next hnew => exact (OrgUnit.ofDetails_of_not_mem hnew).symm
        simp [hsofar]
      · simp [h, Ne.symm h, ih]

namespace Batch

theorem keys_collected (details : List Detail) :
    (details.foldl Detail.collect ∅).keys = (details.map Detail.id).eraseDups :=
  Assoc.keys_foldl_set Detail.id (fun units d => d.addTo ((units.get? d.id).getD (.blank d.id)))
    details

/-- **Records**: a unit for each id of the details, in the order in which the ids first come. -/
theorem records_ofDetails (details : List Detail) (requested : List String) :
    (ofDetails details requested).records =
      (details.map Detail.id).eraseDups.map (OrgUnit.ofDetails details) := by
  have hkeyed : (details.foldl Detail.collect ∅).WellKeyed := by
    rw [Assoc.WellKeyed, keys_collected]
    exact nodup_eraseDups _
  rw [← keys_collected, Assoc.keys, List.map_map]
  refine List.map_congr_left fun entry hmem => ?_
  have hget := (Assoc.mem_entries_iff hkeyed).mp hmem
  rw [Detail.get?_foldl_collect] at hget
  split at hget
  · exact (Option.some.inj hget).symm
  · contradiction

/-- **Negatives**: a negative unit for each id asked for without details. -/
theorem negatives_ofDetails (details : List Detail) (requested : List String) :
    (ofDetails details requested).negatives =
      (requested.filter fun id => id ∉ details.map Detail.id).map .negative := by
  refine congrArg (List.map OrgUnit.negative) (List.filter_congr fun id _ => ?_)
  rw [Assoc.contains, Detail.get?_foldl_collect]
  by_cases h : id ∈ details.map Detail.id <;> simp [h]

/-- What is taken from the reply to a call for some ids: nothing from a failure. -/
def ofReply (requested : List String) : Except SourceError BackendResponse → Batch
  | .ok response => .ofResponse response requested
  | .error _ => {}

/-- The units of a batch by their ids, in the order in which they are stored. -/
def pairs (b : Batch) : List (String × OrgUnit) :=
  (b.negatives ++ b.records).map fun unit => (unit.id, unit)

theorem get?_ofList_pairs (b : Batch) (id : String) :
    (Assoc.ofList b.pairs).get? id = b.unit? id := by
  rw [Assoc.get?_ofList, unit?, pairs, List.findRev?_eq_find?_reverse, ← List.map_reverse,
    List.find?_map, Option.map_map, List.findRev?_eq_find?_reverse]
  exact Option.map_id_apply

/-- **The unit of an id** is made of its details; without any it is negative if it was asked for. -/
theorem unit?_ofDetails (details : List Detail) (requested : List String) (id : String) :
    (ofDetails details requested).unit? id =
      if id ∈ details.map Detail.id then some (OrgUnit.ofDetails details id)
      else if id ∈ requested then some (.negative id) else none := by
  rw [unit?, findRev?_append, records_ofDetails, negatives_ofDetails,
    findRev?_map_keyed fun id => (OrgUnit.id_isNegative_ofDetails details id).1,
    findRev?_map_keyed fun _ => rfl]
  by_cases h : id ∈ details.map Detail.id <;> simp [h, List.mem_eraseDups, -List.mem_map]

/-- Each unit of a batch is that of its id. -/
theorem unit?_of_mem {details : List Detail} {requested : List String} {unit : OrgUnit}
    (h : unit ∈ (ofDetails details requested).negatives ++ (ofDetails details requested).records) :
    (ofDetails details requested).unit? unit.id = some unit := by
  rw [negatives_ofDetails, records_ofDetails, List.mem_append] at h
  rcases h with hnegative | hrecord
  · obtain ⟨id, hid, rfl⟩ := List.mem_map.mp hnegative
    obtain ⟨hasked, hnone⟩ := List.mem_filter.mp hid
    rw [show (OrgUnit.negative id).id = id from rfl, unit?_ofDetails,
      if_neg (of_decide_eq_true hnone), if_pos hasked]
  · obtain ⟨id, hid, rfl⟩ := List.mem_map.mp hrecord
    rw [(OrgUnit.id_isNegative_ofDetails details id).1, unit?_ofDetails,
      if_pos (List.mem_eraseDups.mp hid)]

/-- A batch that a region can hold all at once fits it. -/
theorem fits_pairs {settings : RegionSettings} {details : List Detail} {requested : List String}
    (h : settings.Holds (.ofList (ofDetails details requested).pairs)) :
    settings.Fits (ofDetails details requested).pairs := by
  refine Region.fits_of_holds (Assoc.wellKeyed_ofList _) h fun pair hpair => ?_
  obtain ⟨unit, hunit, rfl⟩ := List.mem_map.mp hpair
  rw [get?_ofList_pairs, unit?_of_mem hunit]

end Batch

/-! ## Storing -/

/-- Storing a batch puts its units into the region of org units, and nothing else. -/
theorem Batch.storeIn_eq (b : Batch) (now : Nat) (c : Cache) :
    b.storeIn now c = { c with
      orgUnits := c.orgUnits.map fun region => region.putAll (b.pairs.map (now, ·)) } := by
  have hunits : ∀ (units : List OrgUnit) (c : Cache),
      units.foldl (fun c unit => c.putOrgUnit now unit) c = { c with
        orgUnits := c.orgUnits.map fun region =>
          region.putAll ((units.map fun unit => (unit.id, unit)).map (now, ·)) } := by
    intro units
    induction units with
    | nil =>
        intro c
        have hsame : c.orgUnits.map (fun region => region.putAll []) = c.orgUnits := Option.map_id'
        exact congrArg (fun orgUnits => { c with orgUnits }) hsame.symm
    | cons unit units ih =>
        intro c
        rw [List.foldl_cons, ih, Cache.putOrgUnit, Option.map_map]
        rfl
  exact hunits _ c

theorem Batch.orgUnits_storeIn (b : Batch) (now : Nat) (c : Cache) :
    (b.storeIn now c).orgUnits =
      c.orgUnits.map fun region => region.putAll (b.pairs.map (now, ·)) := by
  rw [storeIn_eq]

/-- **A batch that fits** is in the region when it has been stored. -/
theorem Batch.filled_putAll {b : Batch} {region : Region OrgUnit} (hregion : region.Consistent)
    (hfits : region.settings.Fits b.pairs) (now : Nat) :
    Region.Filled region (.ofList b.pairs) (region.putAll (b.pairs.map (now, ·))) := by
  have hpairs : (b.pairs.map (now, ·)).map Prod.snd = b.pairs := by simp [Function.comp_def]
  rw [← hpairs] at hfits
  have hfilled := Region.filled_putAll hregion hfits
  rwa [hpairs] at hfilled

/-! ## Backends in memory -/

namespace MemoryBackend

variable (m : MemoryBackend)

/-- The details of the ids asked for. -/
def detailsOf (ids : List String) : List Detail :=
  m.details.filter fun d => ids.contains d.id

/-- What is known of an id. -/
def unitOf (id : String) : OrgUnit :=
  if id ∈ m.details.map Detail.id then .ofDetails m.details id else .negative id

theorem wanted_imports (ids : List String) : wanted (BackendRequest.only ids).imports = ids := by
  show (ids.map fun id => (Assoc.ofList [(BackendRequest.idColumn, id)] : TableRow)).filterMap
    (·.get? BackendRequest.idColumn) = ids
  rw [List.filterMap_map]
  exact List.filterMap_some

/-- **A response** says nothing without tables, nothing is known with errors to report, and otherwise
the details asked for are said. -/
theorem ofResponse_response_eq (imports : BackendImports) (requested : List String) :
    Batch.ofResponse (m.response imports) requested =
      if m.silent then {}
      else if m.returnRows = [] then
        .ofDetails (m.details.filter fun d => wantsAll imports || (wanted imports).contains d.id)
          requested
      else { negatives := requested.map .negative } := by
  unfold response
  cases m.silent with
  | true => rfl
  | false =>
      cases hreturn : m.returnRows with
      | cons row rows => rfl
      | nil =>
          simp only [Bool.false_eq_true, if_false, if_true]
          generalize m.details.filter _ = chosen
          show Batch.ofDetails ((chosen.map Detail.toRow).filterMap Detail.ofRow?) requested = _
          rw [List.filterMap_map]
          -- A row tells the detail that it was made of.
          exact congrArg (Batch.ofDetails · requested) List.filterMap_some

/-- A response without tables says nothing. -/
theorem ofResponse_response_of_silent (h : m.silent = true) (imports : BackendImports)
    (ids : List String) : Batch.ofResponse (m.response imports) ids = {} := by
  rw [ofResponse_response_eq, if_pos h]

/-- A response without errors to report says what the details of the ids say. -/
theorem ofResponse_response (hreturn : m.returnRows = []) (hsilent : m.silent = false)
    (ids : List String) :
    Batch.ofResponse (m.response (BackendRequest.only ids).imports) ids =
      .ofDetails (m.detailsOf ids) ids := by
  have hall : wantsAll (BackendRequest.only ids).imports = false := rfl
  rw [ofResponse_response_eq, if_neg (by simp [hsilent]), if_pos hreturn, hall, wanted_imports]
  simp [detailsOf]

variable {m} {ids : List String} {id : String}

theorem mem_detailsOf_iff :
    id ∈ (m.detailsOf ids).map Detail.id ↔ id ∈ ids ∧ id ∈ m.details.map Detail.id := by
  simp only [detailsOf, List.mem_map, List.mem_filter, List.contains_iff_mem]
  constructor
  · rintro ⟨d, ⟨hd, hids⟩, rfl⟩
    exact ⟨hids, d, hd, rfl⟩
  · rintro ⟨hids, d, hd, rfl⟩
    exact ⟨d, ⟨hd, hids⟩, rfl⟩

/-- For an id asked for, its details are all there. -/
theorem ofDetails_detailsOf (h : id ∈ ids) :
    OrgUnit.ofDetails (m.detailsOf ids) id = .ofDetails m.details id :=
  OrgUnit.ofDetails_filter (by simpa using h) m.details

/-- **The batch of some ids** has for each of them what is known of it, and nothing else. -/
theorem unit?_batch (m : MemoryBackend) (ids : List String) (id : String) :
    (Batch.ofDetails (m.detailsOf ids) ids).unit? id =
      if id ∈ ids then some (m.unitOf id) else none := by
  rw [Batch.unit?_ofDetails]
  simp only [mem_detailsOf_iff]
  by_cases h : id ∈ ids
  · rw [ofDetails_detailsOf h, unitOf]
    by_cases hd : id ∈ m.details.map Detail.id <;> simp [h, hd, -List.mem_map]
  · simp [h]

/-- It fits a region that can hold all at once what is known of the ids. -/
theorem fits_batch {settings : RegionSettings}
    (h : settings.Holds (.ofList (ids.map fun id => (id, m.unitOf id)))) :
    settings.Fits (Batch.ofDetails (m.detailsOf ids) ids).pairs := by
  refine Region.fits_of_holds (Assoc.wellKeyed_ofList _) h fun pair hpair => ?_
  obtain ⟨unit, hunit, rfl⟩ := List.mem_map.mp hpair
  exact (Assoc.get?_ofList_map ..).trans
    ((unit?_batch m ids unit.id).symm.trans (Batch.unit?_of_mem hunit))

end MemoryBackend

end AttrFederation
