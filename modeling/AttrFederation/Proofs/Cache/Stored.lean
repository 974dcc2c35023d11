import AttrFederation.Proofs.Directory.Normalized
import AttrFederation.Proofs.Region.Run
import AttrFederation.Source.Directory

/-!
# Stored entries

A `Stored` entry is a directory entry together with what it was normalized to.  Enumerations and
queries store such entries and skip those that cannot be normalized (`cache_foldl_absorb`).  Storing
one puts its record under its identifier (`principals_storeIn`) and lets the names it goes by lead
there (`get?_targets_storeIn`).
-/

namespace AttrFederation

/-- An entry that was normalized, with what it was read as and what it became. -/
structure Stored where
  profile : String
  objectClass : ObjectClass
  kind : ObjectKind
  entry : Entry
  normalized : Normalized
  /-- They are those of the entry. -/
  isNormalized : Normalized.ofEntry profile objectClass kind entry = .ok normalized

namespace Stored

def record (x : Stored) : Record := x.normalized.record

/-- The entry goes by the name: it is the normalized text of a key attribute. -/
def Carries (x : Stored) (name : String) : Prop :=
  x.objectClass.Carries x.entry name

theorem mem_aliases_iff (x : Stored) {name : String} :
    name ∈ x.normalized.aliases ↔ x.Carries name :=
  Normalized.mem_aliases_iff x.isNormalized

/-- The cache with the record and its aliases. -/
def storeIn (x : Stored) (now : Nat) (c : Cache) : Cache :=
  x.normalized.storeIn x.kind now c

/-- The entry with what it becomes, if it can be normalized. -/
def of? (profile : String) (cls : ObjectClass) (kind : ObjectKind) (e : Entry) : Option Stored :=
  match h : Normalized.ofEntry profile cls kind e with
  | .ok n => some ⟨profile, cls, kind, e, n, h⟩
  | .error _ => none

theorem of?_of_ok {profile : String} {cls : ObjectClass} {kind : ObjectKind} {e : Entry}
    {n : Normalized} (h : Normalized.ofEntry profile cls kind e = .ok n) :
    of? profile cls kind e = some ⟨profile, cls, kind, e, n, h⟩ := by
  unfold of?
  split
  · next other hother =>
      rw [h, Except.ok.injEq] at hother
      subst hother
      rfl
  · next fault hfault =>
      rw [h] at hfault
      contradiction

theorem of?_of_error {profile : String} {cls : ObjectClass} {kind : ObjectKind} {e : Entry}
    {fault : SourceError} (h : Normalized.ofEntry profile cls kind e = .error fault) :
    of? profile cls kind e = none := by
  unfold of?
  split
  · next n hn =>
      rw [h] at hn
      contradiction
  · rfl

/-- The last one that was stored under an identifier. -/
def latest? (stores : List Stored) (id : String) : Option Stored :=
  stores.findRev? fun x => x.record.id = id

/-- The last one that goes by a name. -/
def lastNamed? (stores : List Stored) (name : String) : Option Stored :=
  stores.findRev? fun x => name ∈ x.normalized.aliases

theorem latest?_concat (stores : List Stored) (x : Stored) (id : String) :
    latest? (stores ++ [x]) id = if x.record.id = id then some x else latest? stores id := by
  rw [latest?, findRev?_concat, latest?]
  simp only [decide_eq_true_eq]

theorem lastNamed?_concat (stores : List Stored) (x : Stored) (name : String) :
    lastNamed? (stores ++ [x]) name =
      if name ∈ x.normalized.aliases then some x else lastNamed? stores name := by
  rw [lastNamed?, findRev?_concat, lastNamed?]
  simp only [decide_eq_true_eq]

theorem mem_of_latest? {stores : List Stored} {id : String} {x : Stored}
    (h : latest? stores id = some x) : x ∈ stores ∧ x.record.id = id := by
  rw [latest?, List.findRev?_eq_find?_reverse] at h
  exact ⟨List.mem_reverse.mp (List.mem_of_find?_eq_some h), by simpa using List.find?_some h⟩

theorem mem_of_lastNamed? {stores : List Stored} {name : String} {x : Stored}
    (h : lastNamed? stores name = some x) : x ∈ stores ∧ x.Carries name := by
  rw [lastNamed?, List.findRev?_eq_find?_reverse] at h
  refine ⟨List.mem_reverse.mp (List.mem_of_find?_eq_some h), ?_⟩
  rw [← mem_aliases_iff]
  simpa using List.find?_some h

end Stored

/-! ## Storing -/

namespace Normalized

/-- An entry is stored, or skipped if it cannot be normalized. -/
theorem cache_absorb (profile : String) (cls : ObjectClass) (kind : ObjectKind) (now : Nat)
    (state : EntryCounts × Cache) (e : Entry) :
    (absorb profile cls kind now state e).2 =
      (Stored.of? profile cls kind e).toList.foldl (fun c x => x.storeIn now c) state.2 := by
  unfold absorb
  cases h : ofEntry profile cls kind e with
  | ok n =>
      rw [Stored.of?_of_ok h]
      rfl
  | error fault =>
      rw [Stored.of?_of_error h]
      rfl

/-- A page stores those of its entries that can be normalized, in order. -/
theorem cache_foldl_absorb (profile : String) (cls : ObjectClass) (kind : ObjectKind) (now : Nat)
    (entries : List Entry) (state : EntryCounts × Cache) :
    (entries.foldl (absorb profile cls kind now) state).2 =
      (entries.filterMap (Stored.of? profile cls kind)).foldl (fun c x => x.storeIn now c)
        state.2 := by
  induction entries generalizing state with
  | nil => rfl
  | cons e entries ih =>
      rw [List.foldl_cons, ih, cache_absorb, List.filterMap_cons]
      cases Stored.of? profile cls kind e <;> rfl

/-- The regions do not change while aliases are added. -/
theorem principals_foldl_addAlias (names : List String) (id : String) (kind : ObjectKind)
    (c : Cache) :
    (names.foldl (fun c name => c.addAlias name id kind) c).principals = c.principals := by
  induction names generalizing c with
  | nil => rfl
  | cons name names ih => exact ih (c.addAlias name id kind)

theorem get?_targets_foldl_addAlias (names : List String) (id : String) (kind : ObjectKind)
    (c : Cache) (name : String) :
    (names.foldl (fun c name => c.addAlias name id kind) c).aliases.targets.get? name =
      if name ∈ names then some ⟨id, kind⟩ else c.aliases.targets.get? name := by
  induction names generalizing c with
  | nil => rw [if_neg List.not_mem_nil]; rfl
  | cons first names ih =>
      rw [List.foldl_cons, ih, Cache.addAlias, AliasIndex.insert, Assoc.get?_set]
      by_cases hmem : name ∈ names
      · rw [if_pos hmem, if_pos (List.mem_cons_of_mem first hmem)]
      · rw [if_neg hmem]
        simp only [List.mem_cons, hmem, or_false]

/-- Storing puts the record under its identifier. -/
theorem principals_storeIn (n : Normalized) (kind : ObjectKind) (now : Nat) (c : Cache) :
    (n.storeIn kind now c).principals =
      c.principals.map fun region => region.put now n.record.id n.record :=
  principals_foldl_addAlias n.aliases n.record.id kind (c.putPrincipal now n.record)

/-- Storing lets the aliases lead to the record. -/
theorem get?_targets_storeIn (n : Normalized) (kind : ObjectKind) (now : Nat) (c : Cache)
    (name : String) :
    (n.storeIn kind now c).aliases.targets.get? name =
      if name ∈ n.aliases then some ⟨n.record.id, kind⟩ else c.aliases.targets.get? name :=
  get?_targets_foldl_addAlias n.aliases n.record.id kind (c.putPrincipal now n.record) name

end Normalized

end AttrFederation
