import Mathlib.Data.List.Basic
import AttrFederation.Proofs.Directory.ReadValues
import AttrFederation.Proofs.Directory.RoutedAttributes

/-!
# The content of a record

A record is filled in two passes: with the pull attributes, then with the key attributes that are
present.  Both go by names in lower case, so that a later attribute replaces an earlier one whose
name differs in the case of letters only, beyond the letters A to Z too.

What a look-up gives can be said from the entry alone (`Normalized.ofEntry_content`): the text of the
last key attribute of the name that is present, and without one the value of the last pull attribute
of the name.
-/

namespace AttrFederation

/-- The last key attribute of a name that the entry has. -/
def ObjectClass.lastPresent? (c : ObjectClass) (e : Entry) (name : String) : Option KeyAttribute :=
  c.keys.findRev? fun key => e.has key.name && Text.lowercase key.name = Text.lowercase name

/-- What the record of an entry holds under a name. -/
def ObjectClass.content? (c : ObjectClass) (e : Entry) (name : String) : Option AttributeValue :=
  match c.lastPresent? e name with
  | some key => (key.textIn? e).map .single
  | none => (c.lastPulled? name).map fun pull => pull.valueIn e

namespace KeyAttribute

/-- A key attribute has a text if it is present. -/
theorem isSome_textIn? (key : KeyAttribute) (e : Entry) :
    (key.textIn? e).isSome = e.has key.name := by
  rw [textIn?, Option.isSome_map, Entry.has_eq_isSome_first?]

/-- The last text under a name is that of the last key attribute of the name that is present. -/
theorem findRev?_texts (keys : List KeyAttribute) (e : Entry) (name : String) :
    (keys.filterMap fun key =>
        (key.textIn? e).map fun text => (key.name, AttributeValue.single text)).findRev?
      (fun a => Text.lowercase a.1 = Text.lowercase name) =
    (keys.findRev? fun key =>
        e.has key.name && Text.lowercase key.name = Text.lowercase name).bind fun key =>
      (key.textIn? e).map fun text => (key.name, .single text) := by
  induction keys using List.reverseRecOn with
  | nil => rfl
  | append_singleton keys key ih =>
      rw [List.filterMap_append, findRev?_append, findRev?_concat, ih, ← isSome_textIn?]
      cases htext : key.textIn? e with
      | none => simp [htext]
      | some text =>
          by_cases hname : Text.lowercase key.name = Text.lowercase name <;>
            simp [htext, hname]

end KeyAttribute

namespace Normalized

variable {profile : String} {c : ObjectClass} {kind : ObjectKind} {e : Entry} {n : Normalized}

/-- **What a normalized entry is made of**, with the texts and values said from the entry. -/
theorem record_aliases_of_ofEntry (h : ofEntry profile c kind e = .ok n) :
    n.aliases = c.keys.filterMap (fun key => key.textIn? e) ∧
    n.record = insertAll
      { domain := profile
        id := Record.combinedId profile
          (c.keys.map fun key => (key.textIn? e).getD Record.undefinedKey)
        kind }
      ((c.pulls.attributes.map fun pull => (pull.name, pull.valueIn e)) ++
        c.keys.filterMap fun key =>
          (key.textIn? e).map fun text => (key.name, AttributeValue.single text)) := by
  obtain ⟨text?, value, htext, hvalue, haliases, hrecord⟩ := exists_texts_values h
  have hkeys : ∀ key ∈ c.keys, text? key = key.textIn? e := fun key hkey =>
    eq_textIn?_of_keyValue (htext key hkey)
  have hpulls : ∀ pull ∈ c.pulls.attributes, value pull = pull.valueIn e := fun pull hpull =>
    eq_valueIn_of_pulledValue (hvalue pull hpull)
  have hparts : (c.keys.map fun key => (text? key).getD Record.undefinedKey) =
      c.keys.map fun key => (key.textIn? e).getD Record.undefinedKey :=
    List.map_congr_left fun key hkey => by rw [hkeys key hkey]
  have hvalues : (c.pulls.attributes.map fun pull => (pull.name, value pull)) =
      c.pulls.attributes.map fun pull => (pull.name, pull.valueIn e) :=
    List.map_congr_left fun pull hpull => by rw [hpulls pull hpull]
  have htexts : (c.keys.filterMap fun key =>
      (text? key).map fun text => (key.name, AttributeValue.single text)) =
      c.keys.filterMap fun key => (key.textIn? e).map fun text => (key.name, .single text) :=
    List.filterMap_congr fun key hkey => by rw [hkeys key hkey]
  rw [haliases, hrecord, hparts, hvalues, htexts]
  exact ⟨List.filterMap_congr hkeys, rfl⟩

/-- **The content of a record**: for every name, the record holds the normalized first value of the
last key attribute of the name that is present; without one, of the last pull attribute of the name,
all values in order if it may have many, and otherwise the first one, or null; and nothing without
either.  The identifier is made of one value for each key attribute, and the aliases are the values
of those that are present, in their order. -/
theorem ofEntry_content (h : ofEntry profile c kind e = .ok n) :
    (∀ name, n.record.get? name = c.content? e name) ∧
    n.record.id = Record.combinedId profile
      (c.keys.map fun key => (key.textIn? e).getD Record.undefinedKey) ∧
    n.aliases = c.keys.filterMap fun key => key.textIn? e := by
  obtain ⟨haliases, hrecord⟩ := record_aliases_of_ofEntry h
  refine ⟨fun name => ?_, (congrArg Record.id hrecord).trans (id_insertAll _ _), haliases⟩
  rw [hrecord, get?_insertAll, findRev?_append, findRev?_values, KeyAttribute.findRev?_texts,
    ObjectClass.content?, ObjectClass.lastPresent?]
  cases hkey : c.keys.findRev? _ with
  | none => cases c.lastPulled? name <;> rfl
  | some key =>
      obtain ⟨-, hhas⟩ := mem_and_of_findRev? hkey
      rw [Bool.and_eq_true, ← KeyAttribute.isSome_textIn?, Option.isSome_iff_exists] at hhas
      obtain ⟨text, htext⟩ := hhas.1
      simp [htext]

end Normalized

namespace Reception

/-- People with two key attributes of one name and one that amy lacks.  The second of the pull
attributes for kin is written with the Kelvin sign. -/
def relatives : ObjectClass where
  searchBases := ["dc=local"]
  filter := "objectClass=person"
  keys := [⟨"uid", true⟩, ⟨"UID", false⟩, ⟨"badge", true⟩]
  pulls := ⟨[⟨"Kin", .single⟩, ⟨"\u212Ain", .multi⟩, ⟨"Uid", .multi⟩, ⟨"mail", .single⟩]⟩

def amy : Entry :=
  .of "uid=Amy" [("uid", [.text "Amy"]), ("kin", [.text "rosa", .binary [106, 105, 109]])]

end Reception

open Reception in
/-- Of the attributes for kin the last one counts, and of those for amy's name the last key. -/
theorem Normalized.ofEntry_content_for_amy :
    ∃ n, ofEntry "DOMAIN_1" relatives .principal amy = .ok n ∧
      n.record.get? "KIN" = some (.multi ["rosa", "jim"]) ∧
      n.record.get? "uid" = some (.single "amy") ∧
      n.record.get? "Mail" = some .null ∧
      n.record.get? "badge" = none ∧
      n.record.id = Record.combinedId "DOMAIN_1" ["Amy", "amy", "UNDEFINED"] ∧
      n.aliases = ["Amy", "amy"] := by
  have hreadable : ¬ relatives.Unreadable amy := by decide +kernel
  cases hn : ofEntry "DOMAIN_1" relatives .principal amy with
  | error fault => exact absurd (exists_fault_iff.mp ⟨fault, hn⟩) hreadable
  | ok n =>
      obtain ⟨hget, hid, haliases⟩ := ofEntry_content hn
      have hparts : (relatives.keys.map fun key =>
          (key.textIn? amy).getD Record.undefinedKey) = ["Amy", "amy", "UNDEFINED"] := by
        decide +kernel
      have hpresent : (relatives.keys.filterMap fun key => key.textIn? amy) = ["Amy", "amy"] := by
        decide +kernel
      refine ⟨n, rfl, ?_, ?_, ?_, ?_, hid.trans (congrArg _ hparts), haliases.trans hpresent⟩ <;>
        rw [hget] <;> decide +kernel

end AttrFederation
