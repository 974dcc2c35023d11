import AttrFederation.Proofs.Cache.Run
import AttrFederation.Proofs.CombinedId

/-!
# Whose record an alias leads to

An alias leads to an identifier, and under an identifier stands the record last stored there.  So a
look-up by a name finds the record that was last stored under the identifier of the entry that was
last stored with the name (`getByAlias_eq_latest`).

That is the record of an entry which goes by the name as long as entries of one identifier go by the
same names.  `aliasSound_iff_separated` says that nothing less will do, and that it holds when no
profile and no key value has the separator in it and no key value is the word for missing ones.
With a separator in a key value it can fail (`not_aliasSound_of_separator`).
-/

namespace AttrFederation

/-! ## Sound look-ups -/

namespace Stored

/-- Entries of one identifier go by the same names. -/
def Separated (allowed : Stored → Prop) : Prop :=
  ∀ x y, allowed x → allowed y → x.record.id = y.record.id → ∀ name, y.Carries name → x.Carries name

/-- Neither the profile nor a name of the entry has the separator in it, and no name is the word for
missing key values. -/
def Plain (x : Stored) : Prop :=
  Record.separator ∉ x.profile.toList ∧
    ∀ name, x.Carries name → Record.separator ∉ name.toList ∧ name ≠ Record.undefinedKey

end Stored

namespace Cache

open Stored (latest? lastNamed?)

/-- After a history, each look-up by a name that finds a record finds the one last stored under its
identifier, and the entry it was normalized from goes by the name. -/
def AliasSound (settings : Settings) (history : History) : Prop :=
  ∀ now name record,
    (((ofSettings settings).run history).getByAlias now name).1 = some record →
      ∃ x, latest? (stores history) record.id = some x ∧ x.record = record ∧ x.Carries name

/-! ## What the cache reflects -/

/-- Under an identifier stands the record last stored there, and a name leads to the entry last
stored with it. -/
structure Reflects (stores : List Stored) (c : Cache) : Prop where
  records : ∀ region, c.principals = some region → ∀ id slot, region.slots.get? id = some slot →
    ∃ x, latest? stores id = some x ∧ x.record = slot.value
  aliases : ∀ name target, c.aliases.targets.get? name = some target →
    ∃ y, lastNamed? stores name = some y ∧ target = ⟨y.record.id, y.kind⟩

namespace Reflects

variable {stored : List Stored} {c : Cache}

theorem ofSettings (settings : Settings) : Reflects [] (Cache.ofSettings settings) where
  records := by
    intro region hregion id slot hget
    cases hregion
    contradiction
  aliases := fun name target htarget => by contradiction

/-- Records that are gone need no explanation. -/
theorem shrinks (h : Reflects stored c) {d : Cache} (hshrinks : Shrinks c d) :
    Reflects stored d := by
  obtain ⟨haliases, f, hprincipals, hf⟩ := hshrinks
  constructor
  · intro region hregion id slot hget
    rw [hprincipals, Option.map_eq_some_iff] at hregion
    obtain ⟨before, hbefore, rfl⟩ := hregion
    exact h.records before hbefore id slot (hf before id slot hget)
  · rw [haliases]
    exact h.aliases

/-- Storing an entry makes it the last one of its identifier and of its names. -/
theorem storeIn (h : Reflects stored c) (x : Stored) (now : Nat) :
    Reflects (stored ++ [x]) (x.storeIn now c) := by
  constructor
  · intro region hregion id slot hget
    rw [Stored.storeIn, Normalized.principals_storeIn, Option.map_eq_some_iff] at hregion
    obtain ⟨before, hbefore, rfl⟩ := hregion
    rw [Stored.latest?_concat]
    by_cases hid : x.record.id = id
    · subst hid
      obtain ⟨seq, hput⟩ := Region.get?_put_self before now x.record.id x.record
      refine ⟨x, if_pos rfl, ?_⟩
      rw [show slot = _ from Option.some.inj (hget.symm.trans hput)]
    · rw [if_neg hid]
      exact h.records before hbefore id slot (Region.get?_of_get?_put (Ne.symm hid) hget)
  · intro name target htarget
    rw [Stored.storeIn, Normalized.get?_targets_storeIn] at htarget
    rw [Stored.lastNamed?_concat]
    by_cases hname : name ∈ x.normalized.aliases
    · rw [if_pos hname, Option.some.injEq] at htarget
      exact ⟨x, if_pos hname, htarget.symm⟩
    · rw [if_neg hname] at htarget ⊢
      exact h.aliases name target htarget

theorem foldl_storeIn (h : Reflects stored c) (xs : List Stored) (now : Nat) :
    Reflects (stored ++ xs) (xs.foldl (fun c x => x.storeIn now c) c) := by
  induction xs generalizing stored c with
  | nil => rwa [List.append_nil]
  | cons x xs ih =>
      rw [List.foldl_cons, ← List.singleton_append, ← List.append_assoc]
      exact ih (h.storeIn x now)

theorem step (h : Reflects stored c) (now : Nat) (request : Request) :
    Reflects (stored ++ request.stores) (c.step now request) := by
  rcases step_eq_foldl_or_shrinks c now request with heq | ⟨hnil, hshrinks⟩
  · rw [heq]
    exact h.foldl_storeIn request.stores now
  · rw [hnil, List.append_nil]
    exact h.shrinks hshrinks

theorem run (h : Reflects stored c) (history : History) :
    Reflects (stored ++ stores history) (c.run history) := by
  induction history generalizing stored c with
  | nil => rwa [stores, List.flatMap_nil, List.append_nil]
  | cons request history ih =>
      obtain ⟨now, request⟩ := request
      rw [stores, List.flatMap_cons, ← List.append_assoc]
      exact ih (h.step now request)

end Reflects

theorem reflects_run_ofSettings (settings : Settings) (history : History) :
    Reflects (stores history) ((ofSettings settings).run history) := by
  simpa using (Reflects.ofSettings settings).run history

/-! ## Look-ups -/

/-- A look-up that finds a record has followed an alias to an entry of the principal region. -/
theorem exists_slot_of_getByAlias {c : Cache} {now : Nat} {name : String} {record : Record}
    (h : (c.getByAlias now name).1 = some record) :
    ∃ target region slot, c.aliases.targets.get? name = some target ∧
      c.principals = some region ∧ region.slots.get? target.id = some slot ∧
      slot.value = record := by
  unfold getByAlias AliasIndex.resolve? at h
  cases htarget : c.aliases.targets.get? name with
  | none =>
      rw [htarget] at h
      contradiction
  | some target =>
      simp only [htarget, Option.map_some, getPrincipal] at h
      cases hregion : c.principals with
      | none =>
          rw [hregion] at h
          contradiction
      | some region =>
          simp only [hregion] at h
          cases hget : region.slots.get? target.id with
          | none =>
              rw [Region.get_of_absent now hget] at h
              contradiction
          | some slot =>
              refine ⟨target, region, slot, rfl, rfl, hget, ?_⟩
              cases hold : region.expired now slot.cachedAt with
              | true =>
                  rw [Region.get_of_expired hget hold] at h
                  contradiction
              | false =>
                  rw [Region.get_of_live hget hold] at h
                  exact Option.some.inj h

/-- **What a look-up finds**: the record last stored under the identifier of the entry that was last
stored with the name. -/
theorem getByAlias_eq_latest (settings : Settings) (history : History) {now : Nat} {name : String}
    {record : Record}
    (h : (((ofSettings settings).run history).getByAlias now name).1 = some record) :
    ∃ y x, lastNamed? (stores history) name = some y ∧
      latest? (stores history) y.record.id = some x ∧ x.record = record := by
  obtain ⟨target, region, slot, htarget, hregion, hget, rfl⟩ := exists_slot_of_getByAlias h
  have hreflects := reflects_run_ofSettings settings history
  obtain ⟨y, hy, rfl⟩ := hreflects.aliases name target htarget
  obtain ⟨x, hx, hrecord⟩ := hreflects.records region hregion y.record.id slot hget
  exact ⟨y, x, hy, hx, hrecord⟩

/-! ## When look-ups are sound -/

/-- The parts of a plain entry's identifier have no separator in them. -/
theorem separator_notMem_of_plain {x : Stored} (hx : x.Plain) {parts : List String}
    (hparts : ∀ part ∈ parts, x.Carries part ∨ part = Record.undefinedKey) :
    ∀ part ∈ x.profile :: parts, Record.separator ∉ part.toList := by
  intro part hpart
  rcases List.mem_cons.mp hpart with rfl | hpart
  · exact hx.1
  · rcases hparts part hpart with hcarries | rfl
    · exact (hx.2 part hcarries).1
    · decide

/-- Plain entries of one identifier go by the same names, for these are its parts. -/
theorem separated_plain : Stored.Separated Stored.Plain := by
  intro x y hx hy hid name hname
  obtain ⟨parts, hparts, -, hcarried⟩ := Normalized.exists_parts x.isNormalized
  obtain ⟨others, hothers, hnames, hcarried'⟩ := Normalized.exists_parts y.isNormalized
  have hperm := (Record.eq_and_perm_of_combinedId_eq (separator_notMem_of_plain hx hcarried)
    (separator_notMem_of_plain hy hcarried') (hparts.symm.trans (hid.trans hothers))).2
  rcases hcarried name (hperm.mem_iff.mpr (hnames name hname)) with hcarries | hundefined
  · exact hcarries
  · exact absurd hundefined (hy.2 name hname).2

/-- If entries of one identifier go by the same names, every look-up is sound. -/
theorem aliasSound_of_separated {allowed : Stored → Prop} (hseparated : Stored.Separated allowed)
    (settings : Settings) {history : History} (h : ∀ x ∈ stores history, allowed x) :
    AliasSound settings history := by
  intro now name record hget
  obtain ⟨y, x, hy, hx, rfl⟩ := getByAlias_eq_latest settings history hget
  obtain ⟨hymem, hname⟩ := Stored.mem_of_lastNamed? hy
  obtain ⟨hxmem, hid⟩ := Stored.mem_of_latest? hx
  refine ⟨x, by rw [hid, hx], rfl, ?_⟩
  exact hseparated x y (h x hxmem) (h y hymem) hid name hname

/-- An entry is stored, its record is removed under one of its names, and another entry is stored. -/
def replacement (y x : Stored) (name : String) : History :=
  [(0, .found y.profile y.objectClass y.kind y.entry), (0, .removePrincipal name),
    (0, .found x.profile x.objectClass x.kind x.entry)]

theorem stores_replacement (y x : Stored) (name : String) :
    stores (replacement y x name) = [y, x] := by
  simp [stores, replacement, Request.stores, Stored.of?_of_ok y.isNormalized,
    Stored.of?_of_ok x.isNormalized]

/-- A record that has just been stored is found under each name that leads to its identifier. -/
theorem getByAlias_storeIn (x : Stored) (now : Nat) {c : Cache} {region : Region Record}
    (hregion : c.principals = some region) {name : String} {target : AliasTarget}
    (htarget : (x.storeIn now c).aliases.targets.get? name = some target)
    (hid : target.id = x.record.id) :
    ((x.storeIn now c).getByAlias now name).1 = some x.record := by
  obtain ⟨seq, hget⟩ := Region.get?_put_self region now x.record.id x.record
  have hlive : (region.put now x.record.id x.record).expired now now = false := by
    unfold Region.expired
    cases (region.put now x.record.id x.record).settings.ttl.lifetime? with
    | none => rfl
    | some lifetime => simp
  have hprincipals : (x.storeIn now c).principals = some (region.put now x.record.id x.record) := by
    rw [Stored.storeIn, Normalized.principals_storeIn, hregion]
    rfl
  simp only [getByAlias, AliasIndex.resolve?, htarget, Option.map_some, getPrincipal, hprincipals]
  rw [hid, Region.get_of_live hget hlive]

/-- A replaced entry's name leads to the new record, if both have one identifier. -/
theorem getByAlias_replacement (settings : Settings) {y x : Stored} {name : String}
    (hname : y.Carries name) (hid : x.record.id = y.record.id) :
    (((ofSettings settings).run (replacement y x name)).getByAlias 0 name).1 = some x.record := by
  rw [replacement, run_cons, run_cons, run_cons, run_nil, step_found, step_found]
  have hfirst : (y.storeIn 0 (ofSettings settings)).aliases.targets.get? name =
      some ⟨y.record.id, y.kind⟩ := by
    rw [Stored.storeIn, Normalized.get?_targets_storeIn, if_pos (y.mem_aliases_iff.mpr hname)]
    rfl
  obtain ⟨haliases, f, hprincipals, -⟩ :=
    shrinks_removePrincipal (y.storeIn 0 (ofSettings settings)) name
  rw [Stored.storeIn, Normalized.principals_storeIn] at hprincipals
  -- the alias stays when the record is removed, and leads to the same identifier afterwards
  have htarget := Normalized.get?_targets_storeIn x.normalized x.kind 0
    ((y.storeIn 0 (ofSettings settings)).removePrincipal name).2 name
  rw [haliases, hfirst] at htarget
  by_cases hmem : name ∈ x.normalized.aliases
  · rw [if_pos hmem] at htarget
    exact getByAlias_storeIn x 0 hprincipals htarget rfl
  · rw [if_neg hmem] at htarget
    exact getByAlias_storeIn x 0 hprincipals htarget hid.symm

/-- If look-ups are sound after a replacement, the new entry goes by the replaced one's name. -/
theorem carries_of_aliasSound_replacement {settings : Settings} {y x : Stored} {name : String}
    (h : AliasSound settings (replacement y x name)) (hname : y.Carries name)
    (hid : x.record.id = y.record.id) : x.Carries name := by
  obtain ⟨z, hz, -, hcarries⟩ := h 0 name x.record (getByAlias_replacement settings hname hid)
  rw [stores_replacement, ← List.singleton_append, Stored.latest?_concat, if_pos rfl,
    Option.some.injEq] at hz
  exact hz ▸ hcarries

/-- If every look-up is sound, entries of one identifier go by the same names. -/
theorem separated_of_aliasSound {allowed : Stored → Prop} (settings : Settings)
    (h : ∀ history, (∀ x ∈ stores history, allowed x) → AliasSound settings history) :
    Stored.Separated allowed := by
  intro x y hx hy hid name hname
  refine carries_of_aliasSound_replacement (h (replacement y x name) ?_) hname hid
  simp [stores_replacement, hx, hy]

/-- **When look-ups are sound**: whatever kind of entries may be stored, every look-up after every
history of such entries finds the record of an entry that goes by the name, exactly if those of one
identifier go by the same names.  Plain entries do. -/
theorem aliasSound_iff_separated (settings : Settings) (allowed : Stored → Prop) :
    ((∀ history, (∀ x ∈ stores history, allowed x) → AliasSound settings history) ↔
      Stored.Separated allowed) ∧
    ((∀ x, allowed x → x.Plain) → Stored.Separated allowed) :=
  ⟨⟨separated_of_aliasSound settings, fun h _ => aliasSound_of_separated h settings⟩,
    fun h x y hx hy => separated_plain x y (h x hx) (h y hy)⟩

/-! ## Where they are not -/

/-- People with a user name and a number. -/
def staff : ObjectClass where
  searchBases := ["ou=people"]
  filter := "objectClass=person"
  keys := [⟨"uid", true⟩, ⟨"employeeNumber", true⟩]
  pulls := ⟨[]⟩

/-- Somebody with the number `7`. -/
def amy : Entry :=
  .of "uid=amy,ou=people" [("uid", [.text "amy#jake"]), ("employeeNumber", [.text "7"])]

/-- Somebody with another number. -/
def jake : Entry :=
  .of "uid=jake,ou=people" [("uid", [.text "jake"]), ("employeeNumber", [.text "7#amy"])]

theorem ofEntry_amy : ∃ n, Normalized.ofEntry "DOMAIN_1" staff .principal amy = .ok n ∧
    n.record.id = Record.combinedId "DOMAIN_1" ["amy#jake", "7"] ∧ n.aliases = ["amy#jake", "7"] :=
  ⟨_, rfl, rfl, rfl⟩

theorem ofEntry_jake : ∃ n, Normalized.ofEntry "DOMAIN_1" staff .principal jake = .ok n ∧
    n.record.id = Record.combinedId "DOMAIN_1" ["jake", "7#amy"] ∧ n.aliases = ["jake", "7#amy"] :=
  ⟨_, rfl, rfl, rfl⟩

theorem combinedId_jake_eq_amy :
    Record.combinedId "DOMAIN_1" ["jake", "7#amy"] =
      Record.combinedId "DOMAIN_1" ["amy#jake", "7"] := by
  simp only [Record.combinedId, Record.sorted_pair]
  decide

/-- The number `7` finds somebody who does not have it, after its owner's record was removed. -/
theorem not_aliasSound_of_separator :
    ¬ AliasSound {}
      [(0, .found "DOMAIN_1" staff .principal amy), (0, .removePrincipal "7"),
        (0, .found "DOMAIN_1" staff .principal jake)] := by
  intro h
  obtain ⟨n, hn, hnid, hnames⟩ := ofEntry_amy
  obtain ⟨m, hm, hmid, hmnames⟩ := ofEntry_jake
  have hid : m.record.id = n.record.id := by rw [hmid, hnid, combinedId_jake_eq_amy]
  have hname : staff.Carries amy "7" := by
    rw [← Normalized.mem_aliases_iff hn, hnames]
    decide
  have hcarries : staff.Carries jake "7" :=
    carries_of_aliasSound_replacement (y := ⟨_, _, _, _, n, hn⟩) (x := ⟨_, _, _, _, m, hm⟩) h hname
      hid
  rw [← Normalized.mem_aliases_iff hm, hmnames] at hcarries
  exact absurd hcarries (by decide)

end Cache

end AttrFederation
