import AttrFederation.Proofs.Backend.Batch

/-!
# What a response says, column by column

A response without errors to report says something for each detail of its detail table.  The rows
may come in any order, so that those of one id need not stand together, with keys in any spelling
and with repetitions.

* `OrgUnitColumn.ofKey?_eq_some_iff` — a key names one column at most;
* `OrgUnit.column_ofDetails` — a column of a unit has the values that the details of the id have for
  it, each once, in the order in which they first come;
* `Batch.ofResponse_decodes` — the whole batch of a response.
-/

namespace AttrFederation

/-! ## Columns -/

namespace OrgUnitColumn

/-- A key names a column, blanks around it and the case of the letters A to Z aside. -/
def NamedBy (column : OrgUnitColumn) (key : String) : Prop :=
  Text.asciiEq column.key (Text.trim key) = true

instance (column : OrgUnitColumn) (key : String) : Decidable (column.NamedBy key) :=
  inferInstanceAs (Decidable (_ = true))

/-- The keys of the columns differ, and not only in the case of letters. -/
theorem eq_of_asciiEq_key {a b : OrgUnitColumn} (h : Text.asciiEq a.key b.key = true) : a = b := by
  revert h
  cases a <;> cases b <;> decide +kernel

/-- **A key names one column at most**, and that is the one it stands for. -/
theorem ofKey?_eq_some_iff {key : String} {column : OrgUnitColumn} :
    ofKey? key = some column ↔ column.NamedBy key := by
  unfold ofKey? NamedBy
  constructor
  · intro h
    simpa only using List.find?_some h
  · intro h
    cases hfound : all.find? fun other => Text.asciiEq other.key (Text.trim key) with
    | none => exact absurd h (List.find?_eq_none.mp hfound column column.mem_all)
    | some other =>
        have hother : Text.asciiEq other.key (Text.trim key) = true := by
          simpa only using List.find?_some hfound
        rw [Text.asciiEq_iff] at h hother
        rw [eq_of_asciiEq_key (Text.asciiEq_iff.mpr (hother.trans h.symm))]

end OrgUnitColumn

/-! ## Units -/

namespace Detail

/-- The values that details give an id in a column, each once, in the order in which they first
come. -/
def valuesOf (details : List Detail) (id : String) (column : OrgUnitColumn) : List String :=
  ((details.filter fun d => d.id = id ∧ column.NamedBy d.key).map value).eraseDups

theorem valuesOf_concat (details : List Detail) (d : Detail) (id : String)
    (column : OrgUnitColumn) :
    valuesOf (details ++ [d]) id column =
      if d.id = id ∧ column.NamedBy d.key ∧ d.value ∉ valuesOf details id column then
        valuesOf details id column ++ [d.value]
      else valuesOf details id column := by
  unfold valuesOf
  by_cases h : d.id = id ∧ column.NamedBy d.key
  · rw [List.filter_append, List.filter_singleton, decide_eq_true h, cond_true, List.map_append,
      List.map_singleton, eraseDups_concat]
    simp only [h, true_and, List.mem_eraseDups, ite_not]
  · rw [List.filter_append, List.filter_singleton, decide_eq_false h, cond_false, List.append_nil,
      if_neg fun hall => h ⟨hall.1, hall.2.1⟩]

/-- A detail changes only the column that its key names, and that only by a new value. -/
theorem column_addTo (d : Detail) (u : OrgUnit) (column : OrgUnitColumn) :
    (d.addTo u).column column =
      if column.NamedBy d.key ∧ d.value ∉ (u.column column).getD [] then
        some ((u.column column).getD [] ++ [d.value])
      else u.column column := by
  simp only [← OrgUnitColumn.ofKey?_eq_some_iff]
  unfold addTo
  cases OrgUnitColumn.ofKey? d.key with
  | none => simp
  | some named =>
      by_cases hnamed : named = column
      · subst hnamed
        by_cases hvalue : d.value ∈ (u.column named).getD [] <;>
          simp [hvalue, OrgUnit.push, OrgUnit.withColumn]
      · by_cases hvalue : d.value ∈ (u.column named).getD [] <;>
          simp [hvalue, hnamed, Ne.symm hnamed, OrgUnit.push, OrgUnit.withColumn]

end Detail

/-- **The columns of a unit** are all present, each with the values of the details of its id. -/
theorem OrgUnit.column_ofDetails (details : List Detail) (id : String) (column : OrgUnitColumn) :
    (ofDetails details id).column column = some (Detail.valuesOf details id column) := by
  induction details using List.reverseRecOn with
  | nil => exact column_ofColumns id (fun _ => some []) column
  | append_singleton details d ih =>
      rw [ofDetails_concat, Detail.valuesOf_concat]
      by_cases hid : d.id = id
      · rw [if_pos hid, Detail.column_addTo, ih, Option.getD_some]
        simp only [hid, true_and]
        split <;> rfl
      · rw [if_neg hid, ih, if_neg fun h => hid h.1]

/-! ## Batches -/

/-- The batch says what the details of a response to a request for some ids say. -/
structure Batch.Decodes (b : Batch) (details : List Detail) (requested : List String) : Prop where
  /-- There is one record for each id of the details, in the order in which the ids first come. -/
  recordIds : b.records.map OrgUnit.id = (details.map Detail.id).eraseDups
  /-- All columns of a record are present, with the values of the details of its id. -/
  columns : ∀ u ∈ b.records, ∀ column, u.column column = some (Detail.valuesOf details u.id column)
  /-- There is a negative for each id asked for without details, in the order asked, as often as it
  was asked for. -/
  negativeIds : b.negatives.map OrgUnit.id = requested.filter fun id => id ∉ details.map Detail.id
  /-- No column of a negative is present. -/
  absent : ∀ u ∈ b.negatives, ∀ column, u.column column = none
  /-- No id has both a record and a negative. -/
  disjoint : ∀ u ∈ b.records, ∀ v ∈ b.negatives, u.id ≠ v.id
  /-- Every id asked for has one of them. -/
  answered : ∀ id ∈ requested, ∃ u ∈ b.records ++ b.negatives, u.id = id

/-- The batch of some details says what they say. -/
theorem Batch.ofDetails_decodes (details : List Detail) (requested : List String) :
    (ofDetails details requested).Decodes details requested := by
  have hid : ∀ id, (OrgUnit.ofDetails details id).id = id := fun id =>
    (OrgUnit.id_isNegative_ofDetails details id).1
  have hrecordIds : (ofDetails details requested).records.map OrgUnit.id =
      (details.map Detail.id).eraseDups := by
    rw [records_ofDetails, List.map_map]
    exact (List.map_congr_left fun id _ => hid id).trans (List.map_id _)
  have hnegativeIds : (ofDetails details requested).negatives.map OrgUnit.id =
      requested.filter fun id => id ∉ details.map Detail.id := by
    rw [negatives_ofDetails, List.map_map]
    exact (List.map_congr_left fun id _ => rfl).trans (List.map_id _)
  refine ⟨hrecordIds, ?_, hnegativeIds, ?_, ?_, ?_⟩
  · intro u hu column
    rw [records_ofDetails] at hu
    obtain ⟨id, -, rfl⟩ := List.mem_map.mp hu
    rw [OrgUnit.column_ofDetails, hid]
  · intro u hu column
    rw [negatives_ofDetails] at hu
    obtain ⟨id, -, rfl⟩ := List.mem_map.mp hu
    exact OrgUnit.column_ofColumns ..
  · intro u hu v hv hsame
    have hlisted := List.mem_map_of_mem (f := OrgUnit.id) hu
    have hunlisted := List.mem_map_of_mem (f := OrgUnit.id) hv
    rw [hrecordIds, List.mem_eraseDups, hsame] at hlisted
    rw [hnegativeIds, List.mem_filter] at hunlisted
    exact of_decide_eq_true hunlisted.2 hlisted
  · intro id hrequested
    rw [← List.mem_map, List.map_append, hrecordIds, hnegativeIds, List.mem_append,
      List.mem_eraseDups, List.mem_filter]
    by_cases h : id ∈ details.map Detail.id
    · exact .inl h
    · exact .inr ⟨hrequested, decide_eq_true h⟩

/-- **Decoding a response** that reports no errors and has a detail table: its batch says what the
complete rows of the table say about the ids asked for, and whatever else the rows are about. -/
theorem Batch.ofResponse_decodes {response : BackendResponse} {rows : Table}
    (hreturn : response.tables.get? BackendRequest.returnTable = some [])
    (hdetails : response.tables.get? BackendRequest.detailTable = some rows)
    (requested : List String) :
    (ofResponse response requested).Decodes (rows.filterMap Detail.ofRow?) requested := by
  have hresponse : ofResponse response requested =
      ofDetails (rows.filterMap Detail.ofRow?) requested := by
    simp only [ofResponse, hreturn, hdetails]
  rw [hresponse]
  exact ofDetails_decodes ..

namespace Depot

/-- The rows of two units between one another, with keys in several spellings, an unknown key, a
repeated value, and a row without a value. -/
def mixedRows : Table :=
  [Detail.toRow ⟨"Z", "whnum", "1"⟩, Detail.toRow ⟨"A", " SLOC ", "L1"⟩,
    Detail.toRow ⟨"Z", "color", "blue"⟩, Detail.toRow ⟨"A", "sloc", "L2"⟩,
    .ofList [(BackendRequest.idColumn, "C"), (BackendRequest.keyColumn, "sloc")],
    Detail.toRow ⟨"A", "Sloc", "L1"⟩, Detail.toRow ⟨"Z", "WHNUM", "2"⟩]

def mixedResponse : BackendResponse where
  tables := .ofList [(BackendRequest.returnTable, []), (BackendRequest.detailTable, mixedRows)]

end Depot

open Depot in
/-- Of the mixed rows each unit gets its own values, and the one with the incomplete row none. -/
theorem Batch.ofResponse_decodes_mixed :
    (ofResponse mixedResponse ["C", "A", "C"]).Decodes (mixedRows.filterMap Detail.ofRow?)
        ["C", "A", "C"] ∧
      (ofResponse mixedResponse ["C", "A", "C"]).records.map OrgUnit.id = ["Z", "A"] ∧
      Detail.valuesOf (mixedRows.filterMap Detail.ofRow?) "A" .storageLocation = ["L1", "L2"] := by
  have hreturn : mixedResponse.tables.get? BackendRequest.returnTable = some [] := by decide
  have hdetails : mixedResponse.tables.get? BackendRequest.detailTable = some mixedRows := by decide
  exact ⟨ofResponse_decodes hreturn hdetails _, by decide, by decide⟩

end AttrFederation
