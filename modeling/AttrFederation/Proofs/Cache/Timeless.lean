import AttrFederation.Proofs.Source.Enumeration

/-!
# Caches up to instants

When an entry was stored decides how long it lives, and nothing else: not where it stands in the
order of eviction, nor what is evicted for it.  `timeless` forgets the instants, and storing
commutes with it (`timeless_put`, `timeless_storeIn`).

So what is stored, in which order, determines a cache up to instants (`Cache.Stores.timeless_eq`).
-/

namespace AttrFederation

namespace Assoc

variable {α β : Type} (f : α → β)

/-- The map with a function applied to each value. -/
def mapValues (m : Assoc α) : Assoc β :=
  ⟨m.entries.map fun (key, value) => (key, f value)⟩

@[simp] theorem size_mapValues (m : Assoc α) : (m.mapValues f).size = m.size :=
  List.length_map ..

@[simp] theorem get?_mapValues (m : Assoc α) (key : String) :
    (m.mapValues f).get? key = (m.get? key).map f := by
  obtain ⟨entries⟩ := m
  simp only [get?, mapValues]
  induction entries with
  | nil => rfl
  | cons entry rest ih =>
      rw [List.map_cons, lookup_cons_eq, lookup_cons_eq, ih]
      split <;> rfl

theorem mapValues_set (m : Assoc α) (key : String) (value : α) :
    (m.set key value).mapValues f = (m.mapValues f).set key (f value) := by
  obtain ⟨entries⟩ := m
  simp only [set, mapValues]
  induction entries with
  | nil => rfl
  | cons entry rest ih =>
      by_cases hkey : entry.1 = key
      · simp [setEntry, hkey]
      · simpa [setEntry, hkey] using ih

theorem mapValues_erase (m : Assoc α) (key : String) :
    (m.erase key).mapValues f = (m.mapValues f).erase key := by
  simp [erase, mapValues, List.filter_map, Function.comp_def]

end Assoc

/-! ## Regions -/

/-- A slot without its instant. -/
def Slot.timeless {V : Type} (slot : Slot V) : Slot V :=
  { slot with cachedAt := 0 }

namespace Region

variable {V : Type}

/-- The region without the instants at which its entries were stored. -/
def timeless (r : Region V) : Region V :=
  { r with slots := r.slots.mapValues Slot.timeless }

@[simp] theorem get?_timeless (r : Region V) (key : String) :
    r.timeless.slots.get? key = (r.slots.get? key).map Slot.timeless :=
  Assoc.get?_mapValues ..

@[simp] theorem contains_timeless (r : Region V) (key : String) :
    r.timeless.contains key = r.contains key := by
  simp only [contains, Assoc.contains, get?_timeless, Option.isSome_map]

@[simp] theorem hasRoom_timeless (r : Region V) (incoming : Nat) :
    r.timeless.hasRoom incoming = r.hasRoom incoming := by
  unfold hasRoom
  rw [show r.timeless.size = r.size from Assoc.size_mapValues ..]
  rfl

theorem timeless_evict (r : Region V) (seq : Nat) (key : String)
    (younger : List (Nat × String)) :
    (r.evict seq key younger).timeless = r.timeless.evict seq key younger := by
  unfold evict
  rw [get?_timeless]
  cases r.slots.get? key with
  | none => rfl
  | some slot =>
      simp only [Option.map_some, Slot.timeless]
      split
      · simp only [timeless, Assoc.mapValues_erase]
      · rfl

/-- The same entries are evicted, whenever they were stored. -/
theorem timeless_evictUntilRoom (incoming : Nat) (ages : List (Nat × String)) (r : Region V) :
    (evictUntilRoom incoming ages r).timeless = evictUntilRoom incoming ages r.timeless := by
  induction ages generalizing r with
  | nil => rfl
  | cons oldest younger ih =>
      simp only [evictUntilRoom, hasRoom_timeless]
      split
      · rfl
      · rw [ih, timeless_evict]

theorem timeless_makeRoom (r : Region V) (incoming : Nat) :
    (r.makeRoom incoming).timeless = r.timeless.makeRoom incoming :=
  timeless_evictUntilRoom incoming r.age r

theorem timeless_store (r : Region V) (now : Nat) (key : String) (value : V) (size : Nat) :
    (r.store now key value size).timeless = r.timeless.store 0 key value size := by
  unfold store
  rw [get?_timeless]
  cases r.slots.get? key <;> simp [timeless, Assoc.mapValues_set, Slot.timeless]

/-- **A put** does the same at any instant. -/
theorem timeless_put [Measured V] (r : Region V) (now : Nat) (key : String) (value : V) :
    (r.put now key value).timeless = r.timeless.put 0 key value := by
  simp only [put, contains_timeless]
  split
  · exact timeless_store ..
  · rw [timeless_store, timeless_makeRoom]

end Region

/-! ## Caches -/

namespace Cache

/-- The cache without the instants at which records were stored. -/
def timeless (c : Cache) : Cache :=
  { c with principals := c.principals.map Region.timeless }

theorem timeless_foldl_addAlias (names : List String) (id : String) (kind : ObjectKind)
    (c : Cache) : (names.foldl (fun c name => c.addAlias name id kind) c).timeless =
      names.foldl (fun c name => c.addAlias name id kind) c.timeless := by
  induction names generalizing c with
  | nil => rfl
  | cons name names ih => exact ih (c.addAlias name id kind)

theorem timeless_storeIn (x : Stored) (now : Nat) (c : Cache) :
    (x.storeIn now c).timeless = x.storeIn 0 c.timeless := by
  simp only [Stored.storeIn, Normalized.storeIn, timeless_foldl_addAlias]
  congr 1
  simp only [timeless, putPrincipal, Option.map_map]
  congr 2
  funext region
  exact Region.timeless_put ..

theorem timeless_storeAll (timed : List (Nat × Stored)) (c : Cache) :
    (c.storeAll timed).timeless =
      (timed.map Prod.snd).foldl (fun c x => x.storeIn 0 c) c.timeless := by
  induction timed generalizing c with
  | nil => rfl
  | cons first rest ih => exact (ih _).trans (by rw [timeless_storeIn]; rfl)

/-- **Stores of the same entries in the same order** lead from one cache to one cache, up to
instants. -/
theorem Stores.timeless_eq {c c₁ c₂ : Cache} {xs : List Stored} (h₁ : c.Stores xs c₁)
    (h₂ : c.Stores xs c₂) : c₂.timeless = c₁.timeless := by
  obtain ⟨timed₁, rfl, rfl⟩ := h₁
  obtain ⟨timed₂, hsame, rfl⟩ := h₂
  rw [timeless_storeAll, timeless_storeAll, hsame]

end Cache

end AttrFederation
