import AttrFederation.Proofs.Text
import AttrFederation.Record

/-!
# Combined identifiers

The characters of an identifier are those of the profile and of the sorted key values, joined by
separators (`toList_combinedId`).  When no part has a separator in it, splitting takes the parts
apart again.  Sorting leaves nothing of the order in which the values came (`sorted_eq_of_perm`).

* `eq_and_perm_of_combinedId_eq` — the identifier tells the profile and the key values, up to their
  order.
* `combinedId_tells_parts` — it tells nothing else.

With a separator inside a part it does not: the parts `7`, `amy#jake` and `7#amy`, `jake` have one
identifier.
-/

namespace AttrFederation

namespace Record

theorem sorted_perm (values : List String) : (sorted values).Perm values :=
  List.mergeSort_perm values _

theorem sorted_pair (a b : String) : sorted [a, b] = if a ≤ b then [a, b] else [b, a] := by
  simp [sorted, List.mergeSort, List.merge, List.MergeSort.Internal.splitInTwo]

/-- Texts in order are the same in whatever order they came. -/
theorem sorted_eq_of_perm {values others : List String} (h : values.Perm others) :
    sorted values = sorted others := by
  have hordered : ∀ texts : List String,
      (sorted texts).Pairwise fun a b => decide (a ≤ b) = true := fun texts =>
    List.pairwise_mergeSort (by simpa using fun _ _ _ => String.le_trans)
      (by simpa using fun a b => String.le_total a b) texts
  have hperm : (sorted values).Perm (sorted others) :=
    ((sorted_perm values).trans h).trans (sorted_perm others).symm
  refine hperm.eq_of_pairwise (fun a b _ _ hab hba => ?_) (hordered values) (hordered others)
  exact String.le_antisymm (of_decide_eq_true hab) (of_decide_eq_true hba)

/-- The order of the key values does not count. -/
theorem combinedId_eq_of_perm (profile : String) {values others : List String}
    (h : values.Perm others) : combinedId profile values = combinedId profile others := by
  rw [combinedId, combinedId, sorted_eq_of_perm h]

/-- The parts of an identifier, as characters. -/
def idParts (profile : String) (values : List String) : List (List Char) :=
  profile.toList :: (sorted values).map String.toList

/-- An identifier is its parts, joined. -/
theorem toList_combinedId (profile : String) (values : List String) :
    (combinedId profile values).toList = Text.joinChars separator (idParts profile values) := by
  rw [combinedId, idParts, Text.joinChars_cons_eq_append, String.toList_append, String.toList_join,
    List.flatMap_map, List.flatMap_map]
  congr 2
  funext value
  rw [String.toList_append]
  rfl

/-- Without separators in them, the parts are what splitting an identifier gives. -/
theorem splitChars_combinedId {profile : String} {values : List String}
    (hfree : ∀ part ∈ profile :: values, separator ∉ part.toList) :
    Text.splitChars separator (combinedId profile values).toList = idParts profile values := by
  rw [toList_combinedId]
  refine Text.splitChars_joinChars (List.cons_ne_nil _ _) fun piece hpiece => ?_
  rw [idParts, ← List.map_cons, List.mem_map] at hpiece
  obtain ⟨part, hpart, rfl⟩ := hpiece
  exact hfree part (((sorted_perm values).cons profile).mem_iff.mp hpart)

/-- **An identifier tells its parts**: the profile, and the key values up to their order, if neither
has a separator in it. -/
theorem eq_and_perm_of_combinedId_eq {profile other : String} {values others : List String}
    (hfree : ∀ part ∈ profile :: values, separator ∉ part.toList)
    (hfree' : ∀ part ∈ other :: others, separator ∉ part.toList)
    (h : combinedId profile values = combinedId other others) :
    profile = other ∧ values.Perm others := by
  have hparts : idParts profile values = idParts other others := by
    rw [← splitChars_combinedId hfree, ← splitChars_combinedId hfree', h]
  rw [idParts, idParts, List.cons.injEq] at hparts
  have hsorted : sorted values = sorted others :=
    (List.map_inj_right fun _ _ => String.toList_inj.mp).mp hparts.2
  refine ⟨String.toList_inj.mp hparts.1, ?_⟩
  exact (sorted_perm values).symm.trans (hsorted ▸ sorted_perm others)

/-- The profile is read off an identifier if it has no separator in it, whatever the key values
have. -/
theorem profileOf_combinedId {profile : String} (h : separator ∉ profile.toList)
    (values : List String) : profileOf (combinedId profile values) = profile := by
  have hid := toList_combinedId profile values
  rw [idParts, Text.joinChars_cons_eq_append] at hid
  cases hvalues : (sorted values).map String.toList with
  | nil =>
      rw [hvalues, List.flatMap_nil, List.append_nil, String.toList_inj] at hid
      rw [hid, profileOf, Text.cutAtFirst_eq_none_iff.mpr h]
  | cons first rest =>
      rw [hvalues, List.flatMap_cons, List.cons_append] at hid
      rw [profileOf, Text.cutAtFirst, Text.cutCharsAtFirst_eq_some_iff.mpr ⟨hid, h⟩,
        Option.map_some]
      exact String.ofList_toList

/-- **An identifier tells its parts and nothing else.**  Among profiles and key values without a
separator in them, two identifiers are the same exactly if the profiles are and the key values are
up to their order, each as often; the profile is what stands before the first separator.  Whatever the
key values have in them, their order does not count. -/
theorem combinedId_tells_parts :
    (∀ (profile other : String) (values others : List String),
      (∀ part ∈ profile :: values, separator ∉ part.toList) →
      (∀ part ∈ other :: others, separator ∉ part.toList) →
      (combinedId profile values = combinedId other others ↔
        profile = other ∧ values.Perm others)) ∧
    (∀ (profile : String) (values : List String), separator ∉ profile.toList →
      profileOf (combinedId profile values) = profile) ∧
    ∀ (profile : String) (values others : List String), values.Perm others →
      combinedId profile values = combinedId profile others := by
  refine ⟨fun profile other values others hfree hfree' => ⟨?_, ?_⟩,
    fun profile values hprofile => profileOf_combinedId hprofile values,
    fun profile values others => combinedId_eq_of_perm profile⟩
  · exact eq_and_perm_of_combinedId_eq hfree hfree'
  · rintro ⟨rfl, hperm⟩
    exact combinedId_eq_of_perm profile hperm

/-- An empty value counts, and so does a repeated one. -/
theorem combinedId_tells_parts_of_corp :
    (∀ part ∈ ["CORP", "zeta", "", "zeta"], separator ∉ part.toList) ∧
      combinedId "CORP" ["zeta", "", "zeta"] = combinedId "CORP" ["", "zeta", "zeta"] ∧
      combinedId "CORP" ["zeta", "", "zeta"] ≠ combinedId "CORP" ["zeta", ""] ∧
      combinedId "CORP" ["zeta", "", "zeta"] ≠ combinedId "CORP" ["zeta", "zeta"] ∧
      profileOf (combinedId "CORP" ["zeta", "", "zeta"]) = "CORP" := by
  obtain ⟨htells, hprofile, horder⟩ := combinedId_tells_parts
  have hfree : ∀ part ∈ ["CORP", "zeta", "", "zeta"], separator ∉ part.toList := by decide
  refine ⟨hfree, horder _ _ _ (by decide), fun h => ?_, fun h => ?_, hprofile _ _ (by decide)⟩
  · exact absurd ((htells _ _ _ _ hfree (by decide)).mp h).2 (by decide)
  · exact absurd ((htells _ _ _ _ hfree (by decide)).mp h).2 (by decide)

/-- A separator inside a value lets two lists of values have one identifier. -/
example : combinedId "P" ["7", "amy#jake"] = combinedId "P" ["7#amy", "jake"] := by
  simp only [combinedId, sorted_pair]
  decide

end Record

end AttrFederation
