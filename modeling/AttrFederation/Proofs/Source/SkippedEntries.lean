import AttrFederation.Proofs.Directory.ReadValues
import AttrFederation.Proofs.Source.ConfinedDirectory
import AttrFederation.Proofs.Source.PageSize

/-!
# Entries that an enumeration skips

An enumeration takes the entries as the connection delivers them, page by page and base by base
(`DirectoryConnection.DeliveredPages`, `DirectoryConnection.DeliveredBases`), until all is read or a
call fails.  Nothing is assumed about the pages: they may come in any order, with any cookies, and
repeat entries.

* `readBases_delivers` — what an enumeration returns counts just the entries delivered;
* `DeliveredBases.stores` — while nobody else writes to the cache, just those of them are stored that
  can be normalized, in order;
* `enumerate_skips_unreadable` — which ones these are can be said from the entries alone: all but
  those with a value that is read and cannot be decoded.
-/

namespace AttrFederation

variable {δ : Type}

/-! ## Stored and skipped entries -/

/-- The entry as an enumeration came across it. -/
def Stored.listing (x : Stored) : Listing :=
  ⟨x.profile, x.objectClass, x.kind, x.entry⟩

namespace Listing

/-- An entry is skipped exactly if a value that is read of it cannot be decoded. -/
theorem stored?_eq_none_iff (x : Listing) :
    x.stored? = none ↔ x.objectClass.Unreadable x.entry := by
  have hnone : x.stored? = none ↔
      ∃ fault, Normalized.ofEntry x.profile x.objectClass x.kind x.entry = .error fault := by
    cases h : Normalized.ofEntry x.profile x.objectClass x.kind x.entry with
    | ok n => simp [stored?, Stored.of?_of_ok h]
    | error fault => simp [stored?, Stored.of?_of_error h]
  exact hnone.trans Normalized.exists_fault_iff

theorem listing_of_stored? {x : Listing} {y : Stored} (h : x.stored? = some y) : y.listing = x := by
  cases hx : Normalized.ofEntry x.profile x.objectClass x.kind x.entry with
  | ok n =>
      rw [stored?, Stored.of?_of_ok hx, Option.some.injEq] at h
      exact h ▸ rfl
  | error fault =>
      rw [stored?, Stored.of?_of_error hx] at h
      contradiction

/-- **Stored are the others**: all but the entries with a value that cannot be decoded, in order. -/
theorem map_listing_stores (xs : List Listing) :
    (stores xs).map Stored.listing = xs.filter fun x => ¬ x.objectClass.Unreadable x.entry := by
  induction xs with
  | nil => rfl
  | cons x xs ih =>
      rw [stores, List.filterMap_cons]
      cases hx : x.stored? with
      | none =>
          rw [List.filter_cons_of_neg (by simpa using (stored?_eq_none_iff x).mp hx)]
          exact ih
      | some y =>
          have hreadable : ¬ x.objectClass.Unreadable x.entry := by
            rw [← stored?_eq_none_iff, hx]
            exact Option.some_ne_none y
          rw [List.filter_cons_of_pos (by simpa using hreadable), List.map_cons,
            listing_of_stored? hx]
          exact congrArg _ ih

/-- What is stored of some entries of a class. -/
theorem map_listing_stores_ofEntries (profile : String) (c : ObjectClass) (kind : ObjectKind)
    (entries : List Entry) :
    (stores (ofEntries profile c kind entries)).map Stored.listing =
      ofEntries profile c kind (entries.filter fun e => ¬ c.Unreadable e) := by
  rw [map_listing_stores, ofEntries, List.filter_map]
  rfl

/-- Each entry is counted once, as stored or as skipped. -/
theorem counts_ofEntries (profile : String) (c : ObjectClass) (kind : ObjectKind)
    (entries : List Entry) :
    counts (ofEntries profile c kind entries) =
      { stored := entries.countP fun e => ¬ c.Unreadable e
        skipped := entries.countP fun e => c.Unreadable e } := by
  have hstored : (stores (ofEntries profile c kind entries)).length =
      entries.countP fun e => ¬ c.Unreadable e := by
    rw [← List.length_map Stored.listing, map_listing_stores_ofEntries, ofEntries,
      List.length_map, List.countP_eq_length_filter]
  have hskipped : (ofEntries profile c kind entries).countP (fun x => x.stored?.isNone) =
      entries.countP fun e => c.Unreadable e := by
    rw [ofEntries, List.countP_map]
    refine List.countP_congr fun e _ => ?_
    rw [Function.comp_apply, Option.isNone_iff_eq_none, stored?_eq_none_iff, decide_eq_true_iff]
  rw [counts, hstored, hskipped]

end Listing

/-! ## What was delivered -/

namespace DirectoryConnection

variable (connection : DirectoryConnection (World δ)) (p : DirectoryProfile) (c : ObjectClass)
  (kind : ObjectKind) (pageSize : UInt32)

/-- Asked for so many pages of a search at most, from a cookie on, the connection delivered just
these entries, each page being stored before the next one was asked for; possibly it failed then.
Others may act between the delivery of a page and its being stored. -/
inductive DeliveredPages (base : String) :
    Nat → Option (List UInt8) → List Entry → Option SourceError → World δ → World δ → Prop
  | bound {cookie : Option (List UInt8)} {w : World δ} : DeliveredPages base 0 cookie [] none w w
  | failed {pages : Nat} {cookie : Option (List UInt8)} {e : SourceError} {w w' : World δ} :
      (connection.searchPage ⟨p.enumeration c base, pageSize, cookie⟩).Ends World.AtRest w
        (.error e) w' →
      DeliveredPages base (pages + 1) cookie [] (some e) w w'
  | last {pages : Nat} {cookie : Option (List UInt8)} {page : SearchPage} {w w₁ w₂ : World δ} :
      (connection.searchPage ⟨p.enumeration c base, pageSize, cookie⟩).Ends World.AtRest w
        (.ok page) w₁ →
      w₁.AtRest w₂ → page.hasMore = false →
      DeliveredPages base (pages + 1) cookie page.entries none w (w₂.afterPage p c kind page)
  | next {pages : Nat} {cookie : Option (List UInt8)} {page : SearchPage} {entries : List Entry}
      {fault? : Option SourceError} {w w₁ w₂ w' : World δ} :
      (connection.searchPage ⟨p.enumeration c base, pageSize, cookie⟩).Ends World.AtRest w
        (.ok page) w₁ →
      w₁.AtRest w₂ → page.hasMore = true →
      DeliveredPages base pages page.cookie entries fault? (w₂.afterPage p c kind page) w' →
      DeliveredPages base (pages + 1) cookie (page.entries ++ entries) fault? w w'

/-- Searched under some bases, one after another, the connection delivered just these entries;
possibly it failed then. -/
inductive DeliveredBases :
    List String → List Entry → Option SourceError → World δ → World δ → Prop
  | nil {w : World δ} : DeliveredBases [] [] none w w
  | failed {base : String} {bases : List String} {entries : List Entry} {e : SourceError}
      {w w' : World δ} :
      connection.DeliveredPages p c kind pageSize base DirectorySource.maxPages none entries
        (some e) w w' →
      DeliveredBases (base :: bases) entries (some e) w w'
  | cons {base : String} {bases : List String} {entries rest : List Entry}
      {fault? : Option SourceError} {w w₁ w' : World δ} :
      connection.DeliveredPages p c kind pageSize base DirectorySource.maxPages none entries none
        w w₁ →
      DeliveredBases bases rest fault? w₁ w' →
      DeliveredBases (base :: bases) (entries ++ rest) fault? w w'

end DirectoryConnection

/-! ## What is stored -/

section Stores

variable {connection : DirectoryConnection (World δ)} {p : DirectoryProfile} {c : ObjectClass}
  {kind : ObjectKind} {pageSize : UInt32}

open DirectoryConnection

/-- Entries after others are stored after them. -/
theorem Cache.Stores.append_entries {a b d : Cache} {entries rest : List Entry}
    (h : a.Stores (Listing.stores (Listing.ofEntries p.name c kind entries)) b)
    (h' : b.Stores (Listing.stores (Listing.ofEntries p.name c kind rest)) d) :
    a.Stores (Listing.stores (Listing.ofEntries p.name c kind (entries ++ rest))) d := by
  rw [Listing.ofEntries_append, Listing.stores_append]
  exact h.trans h'

variable (hconnection : connection.Confined)

include hconnection

theorem DirectoryConnection.DeliveredPages.stores {base : String} {pages : Nat}
    {cookie : Option (List UInt8)} {entries : List Entry} {fault? : Option SourceError}
    {w w' : World δ}
    (h : connection.DeliveredPages p c kind pageSize base pages cookie entries fault? w w') :
    w.cache.Stores (Listing.stores (Listing.ofEntries p.name c kind entries)) w'.cache := by
  have hpage : ∀ {cookie page} {w w₁ w₂ : World δ},
      (connection.searchPage ⟨p.enumeration c base, pageSize, cookie⟩).Ends World.AtRest w
        (.ok page) w₁ → w₁.AtRest w₂ →
      w.cache.Stores (Listing.stores (Listing.ofEntries p.name c kind page.entries))
        (w₂.afterPage p c kind page).cache := by
    intro cookie page w w₁ w₂ hsearch hrest
    have hasked : w.AtRest w₁ := .of_ends (hconnection.searchPage _) hsearch
    rw [← (hasked.trans hrest).cache]
    exact w₂.stores_afterPage p c kind page
  induction h with
  | bound => exact .of_eq rfl
  | failed hsearch => exact .of_eq (World.AtRest.of_ends (hconnection.searchPage _) hsearch).cache
  | last hsearch hrest => exact hpage hsearch hrest
  | next hsearch hrest _ _ ih => exact (hpage hsearch hrest).append_entries ih

/-- **Base after base**, those entries delivered are stored that can be normalized. -/
theorem DirectoryConnection.DeliveredBases.stores {bases : List String} {entries : List Entry}
    {fault? : Option SourceError} {w w' : World δ}
    (h : connection.DeliveredBases p c kind pageSize bases entries fault? w w') :
    w.cache.Stores (Listing.stores (Listing.ofEntries p.name c kind entries)) w'.cache := by
  induction h with
  | nil => exact .of_eq rfl
  | failed hpages => exact hpages.stores hconnection
  | cons hpages _ ih => exact (hpages.stores hconnection).append_entries ih

end Stores

/-! ## What is returned -/

/-- The counts of the entries delivered, or the failure that came then. -/
def EntryCounts.outcome (counts : EntryCounts) : Option SourceError → Except SourceError EntryCounts
  | none => .ok counts
  | some e => .error e

namespace DirectorySource

variable {d : DirectorySource δ} {connection : DirectoryConnection (World δ)} {p : DirectoryProfile}
  {c : ObjectClass} {kind : ObjectKind} {pageSize : UInt32} {w w' : World δ}
  {outcome : Except SourceError EntryCounts}

/-- **Page after page**: the entries delivered are counted. -/
theorem readPages_delivers {base : String} {pages : Nat} {cookie : Option (List UInt8)}
    {counts : EntryCounts}
    (h : (readPages connection p c kind pageSize base pages cookie counts).Ends World.AtRest w
      outcome w') :
    ∃ entries fault?,
      connection.DeliveredPages p c kind pageSize base pages cookie entries fault? w w' ∧
      outcome = (counts.add (Listing.counts (Listing.ofEntries p.name c kind entries))).outcome
        fault? := by
  induction pages generalizing cookie counts w with
  | zero =>
      obtain ⟨rfl, rfl⟩ := Activity.ends_done.mp h
      exact ⟨[], none, .bound, rfl⟩
  | succ pages ih =>
      rcases Activity.ends_bindOk.mp h with ⟨page, w₁, hsearch, h⟩ | ⟨e, hsearch, rfl⟩
      · obtain ⟨_, _, hstore, h⟩ := Activity.ends_bind.mp h
        obtain ⟨w₂, hrest, rfl, rfl⟩ := Activity.ends_modifyGet.mp hstore
        rw [absorbPage_eq] at h
        cases hasMore : page.hasMore with
        | false =>
            rw [hasMore] at h
            obtain ⟨rfl, rfl⟩ := Activity.ends_done.mp h
            exact ⟨page.entries, none, .last hsearch hrest hasMore, rfl⟩
        | true =>
            rw [hasMore] at h
            obtain ⟨entries, fault?, hdelivered, rfl⟩ := ih h
            refine ⟨page.entries ++ entries, fault?, .next hsearch hrest hasMore hdelivered, ?_⟩
            rw [EntryCounts.add_assoc, ← Listing.counts_append, Listing.ofEntries_append]
      · exact ⟨[], some e, .failed hsearch, rfl⟩

/-- **Base after base**: the entries delivered are counted. -/
theorem readBases_delivers {bases : List String} {counts : EntryCounts}
    (h : (readBases connection p c kind pageSize bases counts).Ends World.AtRest w outcome w') :
    ∃ entries fault?, connection.DeliveredBases p c kind pageSize bases entries fault? w w' ∧
      outcome = (counts.add (Listing.counts (Listing.ofEntries p.name c kind entries))).outcome
        fault? := by
  induction bases generalizing counts w with
  | nil =>
      obtain ⟨rfl, rfl⟩ := Activity.ends_done.mp h
      exact ⟨[], none, .nil, rfl⟩
  | cons base bases ih =>
      rcases Activity.ends_bindOk.mp h with ⟨counts₁, w₁, hpages, h⟩ | ⟨e, hpages, rfl⟩
      · obtain ⟨entries, _ | e, hdelivered, hcounts⟩ := readPages_delivers hpages
        · obtain rfl := Except.ok.inj hcounts
          obtain ⟨rest, fault?, hrest, rfl⟩ := ih h
          refine ⟨entries ++ rest, fault?, .cons hdelivered hrest, ?_⟩
          rw [EntryCounts.add_assoc, ← Listing.counts_append, Listing.ofEntries_append]
        · contradiction
      · obtain ⟨entries, _ | e', hdelivered, hcounts⟩ := readPages_delivers hpages
        · contradiction
        · obtain rfl := Except.error.inj hcounts
          exact ⟨entries, some e, .failed hdelivered, rfl⟩

/-- **An enumeration skips what cannot be decoded, and nothing else.**

* An entry cannot be normalized exactly if a value that is read of it cannot be decoded: the first
  value of a key attribute or of a pull attribute that has one value, or any value of one that may
  have many.
* Whatever pages the directory delivers, and while nobody else writes to the cache, an enumeration
  stores just the entries delivered that can be normalized, in order, and counts each of the others
  once as skipped. -/
theorem enumerate_skips_unreadable (d : DirectorySource δ) :
    (∀ profile c kind e,
      (∃ fault, Normalized.ofEntry profile c kind e = .error fault) ↔ c.Unreadable e) ∧
    ∀ {connection : DirectoryConnection (World δ)} {p kind c},
      connection.Confined → p.objectClass? kind = some c →
      ∀ {w outcome w'}, (d.enumerate connection p kind).Ends World.AtRest w outcome w' →
        ∃ entries fault?,
          connection.DeliveredBases p c kind d.pageSize c.searchBases entries fault? w w' ∧
          (∃ stored, stored.map Stored.listing =
              Listing.ofEntries p.name c kind (entries.filter fun e => ¬ c.Unreadable e) ∧
            w.cache.Stores stored w'.cache) ∧
          outcome = EntryCounts.outcome
            { stored := entries.countP fun e => ¬ c.Unreadable e
              skipped := entries.countP fun e => c.Unreadable e } fault? := by
  refine ⟨fun _ _ _ _ => Normalized.exists_fault_iff, ?_⟩
  intro connection p kind c hconnection hclass w outcome w' h
  rw [enumerate, hclass] at h
  obtain ⟨entries, fault?, hdelivered, rfl⟩ := readBases_delivers h
  refine ⟨entries, fault?, hdelivered, ⟨_, ?_, hdelivered.stores hconnection⟩, ?_⟩
  · exact Listing.map_listing_stores_ofEntries ..
  · rw [EntryCounts.empty_add, Listing.counts_ofEntries]

end DirectorySource

namespace Office

/-- The connection to a branch of the office. -/
def connection (name : String) : DirectoryConnection (World MemoryDirectory) :=
  MemoryDirectory.connection (World.sourcesField.comp .whole) name

end Office

open Office in
/-- Of the people in the north, jake has one byte for a security identifier.  He is skipped, and the
others are stored: amy, who is on his page, bob on the next page, and kim under the next base. -/
theorem DirectorySource.enumerate_skips_jake :
    people.Unreadable ((person "jake").push "objectSid" (.binary [1])) ∧
    ∃ w', ((source ["NORTH"]).enumerate (connection "NORTH") (branch "NORTH") .principal).Ends
          World.AtRest state (.ok { stored := 3, skipped := 1 }) w' ∧
      w'.cache.aliases.pairs =
        [("amy", "NORTH#amy"), ("bob", "NORTH#bob"), ("kim", "NORTH#kim")] ∧
      ∃ entries : List Entry, (entries.countP fun e => people.Unreadable e) = 1 ∧
        ∃ stored, stored.map Stored.listing = Listing.ofEntries "NORTH" people .principal
            (entries.filter fun e => ¬ people.Unreadable e) ∧
          state.cache.Stores stored w'.cache := by
  have hrun : (((source ["NORTH"]).enumerate (connection "NORTH") (branch "NORTH")
      .principal).alone state 0).map (fun run => (run.1, run.2.1.cache.aliases.pairs)) =
      some (.ok { stored := 3, skipped := 1 },
        [("amy", "NORTH#amy"), ("bob", "NORTH#bob"), ("kim", "NORTH#kim")]) := by
    decide +kernel
  obtain ⟨⟨outcome, w', time⟩, hrun, hresult⟩ := Option.map_eq_some_iff.mp hrun
  obtain ⟨rfl, hpairs⟩ : outcome = .ok { stored := 3, skipped := 1 } ∧ _ := Prod.mk.inj hresult
  have hends := Activity.ends_of_alone World.AtRest.refl hrun
  obtain ⟨entries, fault?, -, hstored, houtcome⟩ :=
    (enumerate_skips_unreadable (source ["NORTH"])).2 (p := branch "NORTH") (c := people)
      (MemoryDirectory.confined_connection .whole "NORTH") rfl hends
  refine ⟨by decide +kernel, w', hends, hpairs, entries, ?_, hstored⟩
  cases fault? with
  | none => exact (EntryCounts.mk.inj (Except.ok.inj houtcome)).2.symm
  | some e => contradiction

end AttrFederation
