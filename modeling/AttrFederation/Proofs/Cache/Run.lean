import AttrFederation.Proofs.Cache.Stored
import AttrFederation.Proofs.Region.Operations

/-!
# Runs of the cache

A cache is driven by requests at instants, like a region: the pages of enumerations, the entries
found for identities, reads, removals and clears, for principals and for org units.  Nothing is
assumed about the instants.

A request changes the principal region in one of two ways (`step_eq_foldl_or_shrinks`): it stores
entries, or it only takes records away and leaves the aliases.
-/

namespace AttrFederation

namespace Cache

/-! ## Requests -/

/-- What can be asked of a cache. -/
inductive Request where
  /-- To store the entries of a page of an enumeration. -/
  | page (profile : String) (cls : ObjectClass) (kind : ObjectKind) (entries : List Entry)
  /-- To store the entry found for an identity. -/
  | found (profile : String) (cls : ObjectClass) (kind : ObjectKind) (e : Entry)
  /-- To read the record of an identifier. -/
  | getPrincipal (id : String)
  /-- To read the record that an alias leads to. -/
  | getByAlias (name : String)
  /-- To drop the record of an alias or of an identifier. -/
  | removePrincipal (key : String)
  | putOrgUnit (unit : OrgUnit)
  | getOrgUnit (id : String)
  | removeOrgUnit (id : String)
  | clear (region : RegionName)
deriving DecidableEq, Repr

/-- Requests with their instants, the first one first. -/
abbrev History := List (Nat × Request)

/-- What a request stores in the principal region, in order. -/
def Request.stores : Request → List Stored
  | .page profile cls kind entries => entries.filterMap (Stored.of? profile cls kind)
  | .found profile cls kind e => (Stored.of? profile cls kind e).toList
  | _ => []

/-- What a history stores in the principal region, in order. -/
def stores (history : History) : List Stored :=
  history.flatMap fun request => request.2.stores

def step (c : Cache) (now : Nat) : Request → Cache
  | .page profile cls kind entries =>
    (entries.foldl (Normalized.absorb profile cls kind now) ({}, c)).2
  | .found profile cls kind e =>
    match Normalized.ofEntry profile cls kind e with
    | .ok n => n.storeIn kind now c
    | .error _ => c
  | .getPrincipal id => (c.getPrincipal now id).2
  | .getByAlias name => (c.getByAlias now name).2
  | .removePrincipal key => (c.removePrincipal key).2
  | .putOrgUnit unit => c.putOrgUnit now unit
  | .getOrgUnit id => (c.getOrgUnit now id).2
  | .removeOrgUnit id => (c.removeOrgUnit id).2
  | .clear region => c.clear region

def run (c : Cache) (history : History) : Cache :=
  history.foldl (fun c request => c.step request.1 request.2) c

@[simp] theorem run_nil (c : Cache) : c.run [] = c := rfl

@[simp] theorem run_cons (c : Cache) (now : Nat) (request : Request) (rest : History) :
    c.run ((now, request) :: rest) = (c.step now request).run rest := rfl

theorem step_found (c : Cache) (now : Nat) (x : Stored) :
    c.step now (.found x.profile x.objectClass x.kind x.entry) = x.storeIn now c := by
  rw [step, x.isNormalized]
  rfl

/-! ## What a request does to principals -/

/-- The aliases stay, and the principal region has no records that were not there before. -/
def Shrinks (before after : Cache) : Prop :=
  after.aliases = before.aliases ∧
    ∃ f : Region Record → Region Record, after.principals = before.principals.map f ∧
      ∀ region id slot, (f region).slots.get? id = some slot → region.slots.get? id = some slot

theorem Shrinks.of_eq {before after : Cache} (haliases : after.aliases = before.aliases)
    (hprincipals : after.principals = before.principals) : Shrinks before after :=
  ⟨haliases, id, by rw [hprincipals, Option.map_id, id_eq], fun _ _ _ h => h⟩

/-- Reading only takes away a record that is too old. -/
theorem shrinks_getPrincipal (c : Cache) (now : Nat) (id : String) :
    Shrinks c (c.getPrincipal now id).2 := by
  unfold getPrincipal
  cases h : c.principals with
  | none => exact .of_eq rfl rfl
  | some region =>
      refine ⟨rfl, fun region => (region.get now id).2, by rw [h]; rfl, ?_⟩
      intro region other slot hget
      rcases Region.get?_get region now id other with hsame | ⟨-, hnone, -⟩
      · exact hsame ▸ hget
      · rw [hnone] at hget
        contradiction

theorem shrinks_getByAlias (c : Cache) (now : Nat) (name : String) :
    Shrinks c (c.getByAlias now name).2 := by
  unfold getByAlias
  cases c.aliases.resolve? name with
  | none => exact .of_eq rfl rfl
  | some id => exact shrinks_getPrincipal c now id

theorem shrinks_removePrincipal (c : Cache) (key : String) :
    Shrinks c (c.removePrincipal key).2 := by
  unfold removePrincipal
  cases h : c.principals with
  | none => exact .of_eq rfl rfl
  | some region =>
      refine ⟨rfl, fun region => (region.remove ((c.aliases.resolve? key).getD key)).2,
        by rw [h]; rfl, ?_⟩
      intro region other slot hget
      rw [Region.get?_remove] at hget
      split at hget
      · contradiction
      · exact hget

theorem shrinks_clear (c : Cache) (region : RegionName) : Shrinks c (c.clear region) := by
  cases region with
  | principal => exact ⟨rfl, Region.clear, rfl, fun _ _ _ h => by contradiction⟩
  | orgUnit => exact .of_eq rfl rfl

/-- **One request**: it stores its entries one after another, or it stores none and only takes
records away. -/
theorem step_eq_foldl_or_shrinks (c : Cache) (now : Nat) (request : Request) :
    c.step now request = request.stores.foldl (fun c x => x.storeIn now c) c ∨
      request.stores = [] ∧ Shrinks c (c.step now request) := by
  cases request with
  | page profile cls kind entries =>
      exact .inl (Normalized.cache_foldl_absorb profile cls kind now entries ({}, c))
  | found profile cls kind e =>
      left
      simp only [step, Request.stores]
      cases h : Normalized.ofEntry profile cls kind e with
      | ok n =>
          rw [Stored.of?_of_ok h]
          rfl
      | error fault =>
          rw [Stored.of?_of_error h]
          rfl
  | getPrincipal id => exact .inr ⟨rfl, shrinks_getPrincipal c now id⟩
  | getByAlias name => exact .inr ⟨rfl, shrinks_getByAlias c now name⟩
  | removePrincipal key => exact .inr ⟨rfl, shrinks_removePrincipal c key⟩
  | putOrgUnit unit => exact .inr ⟨rfl, .of_eq rfl rfl⟩
  | getOrgUnit id =>
      refine .inr ⟨rfl, ?_⟩
      simp only [step, getOrgUnit]
      split <;> exact .of_eq rfl rfl
  | removeOrgUnit id =>
      refine .inr ⟨rfl, ?_⟩
      simp only [step, removeOrgUnit]
      split <;> exact .of_eq rfl rfl
  | clear region => exact .inr ⟨rfl, shrinks_clear c region⟩

end Cache

/-- A page that an enumeration reads is a request of its cache. -/
theorem DirectorySource.cache_absorbPage {δ : Type} (profile : DirectoryProfile)
    (cls : ObjectClass) (kind : ObjectKind) (counts : EntryCounts) (page : SearchPage)
    (w : World δ) :
    (absorbPage profile cls kind counts page w).2.cache =
      w.cache.step w.now (.page profile.name cls kind page.entries) := by
  rw [Cache.step, Normalized.cache_foldl_absorb]
  exact Normalized.cache_foldl_absorb profile.name cls kind w.now page.entries (counts, w.cache)

end AttrFederation
