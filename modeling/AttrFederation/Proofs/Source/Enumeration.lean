import AttrFederation.Proofs.Activity.Achieves
import AttrFederation.Proofs.Cache.Stored

/-!
# What an enumeration reads

The entries of a domain, in the order in which an enumeration comes across them, are its listing:
everything under each base of the principals, then of the groups.  A directory serves its content
when it delivers each search page by page, in order and without repetition; it may cut the pages as
it likes and fail at any call.

Reading such a directory stores a prefix of the listing, and all of it when it succeeds
(`World.Reads`).  That holds of the pages of one search, and from there of bases, classes and
domains (`refreshDomain_reads`), with the counts of what was read.

A search ends with its last page, or when its pages have run out.  That they do not run out is said
by putting anything in the place of that end (`readPagesOr`).
-/

namespace AttrFederation

variable {δ α β : Type}

/-! ## Listings -/

/-- An entry as an enumeration comes across it. -/
structure Listing where
  /-- The name of the profile it is read for. -/
  profile : String
  objectClass : ObjectClass
  kind : ObjectKind
  entry : Entry
deriving DecidableEq

def EntryCounts.add (a b : EntryCounts) : EntryCounts where
  stored := a.stored + b.stored
  skipped := a.skipped + b.skipped

theorem EntryCounts.empty_add (a : EntryCounts) : EntryCounts.add {} a = a := by
  simp [add]

theorem EntryCounts.add_assoc (a b c : EntryCounts) : (a.add b).add c = a.add (b.add c) := by
  simp [add, Nat.add_assoc]

namespace Listing

/-- Entries as an enumeration comes across them for a profile and a class. -/
def ofEntries (profile : String) (c : ObjectClass) (kind : ObjectKind) (entries : List Entry) :
    List Listing :=
  entries.map (⟨profile, c, kind, ·⟩)

theorem ofEntries_append (profile : String) (c : ObjectClass) (kind : ObjectKind)
    (entries rest : List Entry) :
    ofEntries profile c kind (entries ++ rest) =
      ofEntries profile c kind entries ++ ofEntries profile c kind rest :=
  List.map_append

/-- The entry with what it becomes, if it can be normalized. -/
def stored? (x : Listing) : Option Stored :=
  Stored.of? x.profile x.objectClass x.kind x.entry

/-- What is stored of a listing, in order. -/
def stores (xs : List Listing) : List Stored :=
  xs.filterMap stored?

/-- How many entries of a listing are stored, and how many cannot be. -/
def counts (xs : List Listing) : EntryCounts where
  stored := (stores xs).length
  skipped := xs.countP fun x => x.stored?.isNone

@[simp] theorem stores_append (xs ys : List Listing) : stores (xs ++ ys) = stores xs ++ stores ys :=
  List.filterMap_append

theorem counts_append (xs ys : List Listing) : counts (xs ++ ys) = (counts xs).add (counts ys) := by
  simp [counts, EntryCounts.add]

/-- Every entry is stored or skipped. -/
theorem stored_add_skipped (xs : List Listing) :
    (counts xs).stored + (counts xs).skipped = xs.length := by
  induction xs with
  | nil => rfl
  | cons x xs ih =>
      simp only [counts, stores] at ih ⊢
      cases h : x.stored? <;> simp [h] <;> omega

end Listing

namespace DirectoryProfile

/-- The search for the objects of a class under a base. -/
def enumeration (p : DirectoryProfile) (c : ObjectClass) (base : String) : SearchRequest where
  base
  filter := Filter.enumeration c p.includeDisabled
  attributes := c.requested

/-- The entries of a class under some bases, base by base. -/
def listingUnder (p : DirectoryProfile) (content : SearchRequest → List Entry) (c : ObjectClass)
    (kind : ObjectKind) (bases : List String) : List Listing :=
  bases.flatMap fun base => Listing.ofEntries p.name c kind (content (p.enumeration c base))

/-- The entries of one kind. -/
def listings (p : DirectoryProfile) (content : SearchRequest → List Entry) (kind : ObjectKind) :
    List Listing :=
  match p.objectClass? kind with
  | none => []
  | some c => p.listingUnder content c kind c.searchBases

/-- The principals, then the groups. -/
def listing (p : DirectoryProfile) (content : SearchRequest → List Entry) : List Listing :=
  p.listings content .principal ++ p.listings content .group

/-- What a refresh that has read the whole domain reports. -/
def domainCounts (p : DirectoryProfile) (content : SearchRequest → List Entry) : DomainCounts where
  principals := (Listing.counts (p.listings content .principal)).stored
  groups := (Listing.counts (p.listings content .group)).stored
  skipped :=
    (Listing.counts (p.listings content .principal)).skipped
      + (Listing.counts (p.listings content .group)).skipped

end DirectoryProfile

/-! ## Storing -/

/-- The cache after entries were stored, each at an instant. -/
def Cache.storeAll (c : Cache) (timed : List (Nat × Stored)) : Cache :=
  timed.foldl (fun c x => x.2.storeIn x.1 c) c

/-- Between two caches just these entries were stored, in order, at some instants. -/
def Cache.Stores (c : Cache) (xs : List Stored) (c' : Cache) : Prop :=
  ∃ timed : List (Nat × Stored), timed.map Prod.snd = xs ∧ c' = c.storeAll timed

namespace Cache.Stores

variable {c c₁ c₂ : Cache} {xs ys : List Stored}

theorem of_eq (h : c₁ = c) : c.Stores [] c₁ :=
  ⟨[], rfl, h⟩

theorem trans (h₁ : c.Stores xs c₁) (h₂ : c₁.Stores ys c₂) : c.Stores (xs ++ ys) c₂ := by
  obtain ⟨first, rfl, rfl⟩ := h₁
  obtain ⟨second, rfl, rfl⟩ := h₂
  refine ⟨first ++ second, List.map_append, ?_⟩
  rw [storeAll, storeAll, storeAll, List.foldl_append]

end Cache.Stores

namespace Normalized

theorem stores_ofEntries (profile : String) (cls : ObjectClass) (kind : ObjectKind)
    (entries : List Entry) : Listing.stores (Listing.ofEntries profile cls kind entries) =
      entries.filterMap (Stored.of? profile cls kind) :=
  List.filterMap_map ..

/-- A page counts each of its entries as stored or as skipped. -/
theorem counts_foldl_absorb (profile : String) (cls : ObjectClass) (kind : ObjectKind) (now : Nat)
    (entries : List Entry) (state : EntryCounts × Cache) :
    (entries.foldl (absorb profile cls kind now) state).1 =
      state.1.add (Listing.counts (Listing.ofEntries profile cls kind entries)) := by
  induction entries generalizing state with
  | nil => rfl
  | cons e entries ih =>
      rw [List.foldl_cons, ih]
      cases h : ofEntry profile cls kind e with
      | ok n =>
          have hstored : Listing.stored? ⟨profile, cls, kind, e⟩ = _ := Stored.of?_of_ok h
          simp [absorb, h, Listing.ofEntries, Listing.counts, Listing.stores, hstored,
            EntryCounts.add]
          omega
      | error fault =>
          have hstored : Listing.stored? ⟨profile, cls, kind, e⟩ = none := Stored.of?_of_error h
          simp [absorb, h, Listing.ofEntries, Listing.counts, Listing.stores, hstored,
            EntryCounts.add]
          omega

end Normalized

/-- The state after those entries of a page were stored that can be normalized. -/
def World.afterPage (p : DirectoryProfile) (c : ObjectClass) (kind : ObjectKind) (page : SearchPage)
    (w : World δ) : World δ :=
  w.onCache fun cache =>
    (page.entries.filterMap (Stored.of? p.name c kind)).foldl (fun c x => x.storeIn w.now c) cache

theorem World.stores_afterPage (p : DirectoryProfile) (c : ObjectClass) (kind : ObjectKind)
    (page : SearchPage) (w : World δ) :
    w.cache.Stores (Listing.stores (Listing.ofEntries p.name c kind page.entries))
      (w.afterPage p c kind page).cache := by
  rw [Normalized.stores_ofEntries]
  refine ⟨(page.entries.filterMap (Stored.of? p.name c kind)).map (w.now, ·), ?_, ?_⟩
  · simp [Function.comp_def]
  · rw [Cache.storeAll, List.foldl_map]
    rfl

/-! ## Directories that serve their content -/

/-- Whatever else happens, the cache, what the sources keep and the queue of directory refreshes
stay as they are. -/
def World.Undisturbed (w w' : World δ) : Prop :=
  w'.cache = w.cache ∧ w'.sources = w.sources ∧ w'.directoryLock = w.directoryLock

theorem World.undisturbed_refl (w : World δ) : w.Undisturbed w :=
  ⟨rfl, rfl, rfl⟩

/-- A call that, while what the sources keep is as `Inv` says, ends with a result as `P` says and
leaves the cache alone and what the sources keep as it is said to be. -/
def Activity.Responds (Inv : δ → Prop) (x : Activity (World δ) α) (P : α → Prop) : Prop :=
  ∀ w, Inv w.sources → x.Achieves World.Undisturbed w fun a w' =>
    P a ∧ w'.cache = w.cache ∧ Inv w'.sources

section Contract

variable (Inv : δ → Prop) (Fault : SourceError → Prop)

/-- Asked on from a cookie, so many pages deliver just these entries, in order, except for what may
be left over when the last one is not among them.  Every call may also fail, for a reason that is a
`Fault`. -/
def DirectoryConnection.Delivers (connection : DirectoryConnection (World δ)) (pageSize : UInt32)
    (request : SearchRequest) (leftOver : List Entry → Prop) :
    Nat → Option (List UInt8) → List Entry → Prop
  | 0, _, rest => leftOver rest
  | pages + 1, cookie, rest =>
    (connection.searchPage { toSearchRequest := request, pageSize, cookie }).Responds Inv
      fun outcome =>
        match outcome with
        | .ok page => ∃ rest', rest = page.entries ++ rest' ∧
            if page.hasMore then
              connection.Delivers pageSize request leftOver pages page.cookie rest'
            else rest' = []
        | .error e => Fault e

/-- Every search is delivered in pages of a size, and the connection can be closed. -/
structure DirectoryConnection.Serves (connection : DirectoryConnection (World δ))
    (pageSize : UInt32) (content : SearchRequest → List Entry) : Prop where
  searchPage : ∀ request,
    connection.Delivers Inv Fault pageSize request (· = []) DirectorySource.maxPages none
      (content request)
  close : connection.close.Responds Inv fun _ => True

/-- Every connection that the client opens serves the content of its domain. -/
def DirectoryClient.Serves (client : DirectoryClient (World δ)) (pageSize : UInt32)
    (content : ConnectionSettings → SearchRequest → List Entry) : Prop :=
  ∀ settings, (client.connect settings).Responds Inv fun outcome =>
    match outcome with
    | .ok connection => connection.Serves Inv Fault pageSize (content settings)
    | .error e => Fault e

/-- A listing was read, as far as the outcome says: its entries were stored in order, all of them if
the outcome is the value, and up to some point if it is a fault. -/
def World.Reads (xs : List Listing) (value : β) (w : World δ) (outcome : Except SourceError β)
    (w' : World δ) : Prop :=
  ∃ seen, seen <+: xs ∧ w.cache.Stores (Listing.stores seen) w'.cache ∧ Inv w'.sources ∧
    match outcome with
    | .ok b => seen = xs ∧ b = value
    | .error e => Fault e

end Contract

variable {Inv : δ → Prop} {Fault : SourceError → Prop}

/-! ## Reading on -/

namespace World.Reads

variable {w w' : World δ} {xs ys : List Listing} {value : β}

theorem of_error {e : SourceError} (hcache : w'.cache = w.cache) (hinv : Inv w'.sources)
    (he : Fault e) : w.Reads Inv Fault xs value (.error e) w' :=
  ⟨[], List.nil_prefix, .of_eq hcache, hinv, he⟩

/-- Nothing was read yet. -/
theorem from_start {w₁ : World δ} {outcome : Except SourceError β} (hcache : w₁.cache = w.cache)
    (h : w₁.Reads Inv Fault xs value outcome w') : w.Reads Inv Fault xs value outcome w' := by
  obtain ⟨seen, hbegins, hstores, hinv, houtcome⟩ := h
  exact ⟨seen, hbegins, hcache ▸ hstores, hinv, houtcome⟩

theorem nil (hcache : w'.cache = w.cache) (hinv : Inv w'.sources) :
    w.Reads Inv Fault [] value (.ok value) w' :=
  ⟨[], List.nil_prefix, .of_eq hcache, hinv, rfl, rfl⟩

/-- A failure stays one when there would have been more to read. -/
theorem error_append {γ : Type} {e : SourceError} {value' : γ}
    (h : w.Reads Inv Fault xs value (.error e) w') (ys : List Listing) :
    w.Reads Inv Fault (xs ++ ys) value' (.error e) w' := by
  obtain ⟨seen, hbegins, hstores, hinv, he⟩ := h
  exact ⟨seen, hbegins.trans (List.prefix_append xs ys), hstores, hinv, he⟩

/-- After all of a listing another one is read. -/
theorem append {γ : Type} {w₁ : World δ} {value' : γ} {outcome : Except SourceError γ}
    (hstores : w.cache.Stores (Listing.stores xs) w₁.cache)
    (h : w₁.Reads Inv Fault ys value' outcome w') :
    w.Reads Inv Fault (xs ++ ys) value' outcome w' := by
  obtain ⟨seen, hbegins, hseen, hinv, houtcome⟩ := h
  refine ⟨xs ++ seen, (List.prefix_append_right_inj xs).mpr hbegins, ?_, hinv, ?_⟩
  · rw [Listing.stores_append]
    exact hstores.trans hseen
  · cases outcome with
    | ok c => exact ⟨by rw [houtcome.1], houtcome.2⟩
    | error e => exact houtcome

end World.Reads

/-- **One listing after another**: if the first is read with a value, the second is read on from
there. -/
theorem Activity.Achieves.bindOk_reads {x : Activity (World δ) (Except SourceError α)}
    {f : α → Activity (World δ) (Except SourceError β)} {w : World δ} {xs ys : List Listing}
    {a : α} {b : β} (hx : x.Achieves World.Undisturbed w (w.Reads Inv Fault xs a))
    (hf : ∀ w₁, Inv w₁.sources →
      (f a).Achieves World.Undisturbed w₁ (w₁.Reads Inv Fault ys b)) :
    (x.bindOk f).Achieves World.Undisturbed w (w.Reads Inv Fault (xs ++ ys) b) := by
  refine hx.bindOk ?_ fun e w' h => h.error_append ys
  rintro a' w₁ ⟨seen, -, hstores, hinv, rfl, rfl⟩
  exact (hf w₁ hinv).mono fun outcome w' h => .append hstores h

/-- Making something else of the value. -/
theorem Activity.Achieves.bindOk_done {x : Activity (World δ) (Except SourceError α)}
    {w : World δ} {xs : List Listing} {a : α} (f : α → β)
    (hx : x.Achieves World.Undisturbed w (w.Reads Inv Fault xs a)) :
    (x.bindOk fun a => .done (.ok (f a))).Achieves World.Undisturbed w
      (w.Reads Inv Fault xs (f a)) := by
  rw [← List.append_nil xs]
  exact hx.bindOk_reads fun w₁ hinv => World.Reads.nil rfl hinv

namespace DirectorySource

variable {connection : DirectoryConnection (World δ)} {profile : DirectoryProfile}

/-- A page leaves those of its entries in the cache that can be normalized, and adds all of them to
the counts. -/
theorem absorbPage_eq (counts : EntryCounts) (page : SearchPage) (c : ObjectClass)
    (kind : ObjectKind) (w : World δ) :
    absorbPage profile c kind counts page w =
      (counts.add (Listing.counts (Listing.ofEntries profile.name c kind page.entries)),
        w.afterPage profile c kind page) := by
  refine Prod.ext (Normalized.counts_foldl_absorb ..) ?_
  exact congrArg (fun cache => { w with cache }) (Normalized.cache_foldl_absorb ..)

/-- Reads a search page by page, and does something else when the pages have run out. -/
def readPagesOr (otherwise : EntryCounts → Activity (World δ) (Except SourceError EntryCounts))
    (connection : DirectoryConnection (World δ)) (profile : DirectoryProfile) (c : ObjectClass)
    (kind : ObjectKind) (pageSize : UInt32) (base : String) :
    Nat → Option (List UInt8) → EntryCounts → Activity (World δ) (Except SourceError EntryCounts)
  | 0, _, counts => otherwise counts
  | pages + 1, cookie, counts =>
    (connection.searchPage
      { toSearchRequest := profile.enumeration c base, pageSize, cookie }).bindOk fun page =>
    (Activity.modifyGet (absorbPage profile c kind counts page)).bind fun counts =>
    if page.hasMore then
      readPagesOr otherwise connection profile c kind pageSize base pages page.cookie counts
    else .done (.ok counts)

/-- When the pages have run out, a search ends as if there were no more. -/
theorem readPages_eq_readPagesOr (c : ObjectClass) (kind : ObjectKind) (pageSize : UInt32)
    (base : String) (pages : Nat) (cookie : Option (List UInt8)) (counts : EntryCounts) :
    readPages connection profile c kind pageSize base pages cookie counts =
      readPagesOr (fun counts => .done (.ok counts)) connection profile c kind pageSize base pages
        cookie counts := by
  induction pages generalizing cookie counts with
  | zero => rfl
  | succ pages ih =>
      rw [readPages, readPagesOr]
      simp only [ih]
      rfl

/-- **The pages of a search**: what the connection delivers is read, if what comes when the pages
have run out reads what is left over. -/
theorem readPagesOr_reads {c : ObjectClass} {kind : ObjectKind} {pageSize : UInt32} {base : String}
    {leftOver : List Entry → Prop}
    {otherwise : EntryCounts → Activity (World δ) (Except SourceError EntryCounts)}
    (hotherwise : ∀ {rest counts} {w : World δ}, leftOver rest → Inv w.sources →
      (otherwise counts).Achieves World.Undisturbed w
        (w.Reads Inv Fault (Listing.ofEntries profile.name c kind rest)
          (counts.add (Listing.counts (Listing.ofEntries profile.name c kind rest)))))
    {pages : Nat} {cookie : Option (List UInt8)} {rest : List Entry} (counts : EntryCounts)
    (h : connection.Delivers Inv Fault pageSize (profile.enumeration c base) leftOver pages cookie
      rest) {w : World δ} (hw : Inv w.sources) :
    (readPagesOr otherwise connection profile c kind pageSize base pages cookie counts).Achieves
      World.Undisturbed w
      (w.Reads Inv Fault (Listing.ofEntries profile.name c kind rest)
        (counts.add (Listing.counts (Listing.ofEntries profile.name c kind rest)))) := by
  induction pages generalizing cookie rest counts w with
  | zero => exact hotherwise h hw
  | succ pages ih =>
      refine (h w hw).bindOk ?_ fun e w₁ h => .of_error h.2.1 h.2.2 h.1
      rintro page w₁ ⟨⟨rest', rfl, hmore⟩, hcache, hinv⟩
      refine Activity.achieves_bind.mpr (Activity.achieves_modifyGet.mpr fun w₂ hw₂ => ?_)
      have hinv₂ : Inv (w₂.afterPage profile c kind page).sources := by
        show Inv w₂.sources
        rw [hw₂.2.1]
        exact hinv
      have hstores := w₂.stores_afterPage profile c kind page
      rw [hw₂.1, hcache] at hstores
      rw [absorbPage_eq, Listing.ofEntries_append, Listing.counts_append, ← EntryCounts.add_assoc]
      cases hasMore : page.hasMore with
      | false =>
          rw [hasMore] at hmore
          obtain rfl : rest' = [] := hmore
          have hrest (k : EntryCounts) (v : World δ) (hv : Inv v.sources) :
              v.Reads Inv Fault [] k (.ok k) v := .nil rfl hv
          exact .append hstores (hrest _ _ hinv₂)
      | true =>
          rw [hasMore] at hmore
          exact (ih _ hmore hinv₂).mono fun outcome w' h => .append hstores h

theorem readPages_reads {c : ObjectClass} {kind : ObjectKind} {pageSize : UInt32} {base : String}
    {pages : Nat} {cookie : Option (List UInt8)} {rest : List Entry} (counts : EntryCounts)
    (h : connection.Delivers Inv Fault pageSize (profile.enumeration c base) (· = []) pages cookie
      rest) {w : World δ} (hw : Inv w.sources) :
    (readPages connection profile c kind pageSize base pages cookie counts).Achieves
      World.Undisturbed w
      (w.Reads Inv Fault (Listing.ofEntries profile.name c kind rest)
        (counts.add (Listing.counts (Listing.ofEntries profile.name c kind rest)))) := by
  rw [readPages_eq_readPagesOr]
  refine readPagesOr_reads (fun hnone hw => ?_) counts h hw
  rw [hnone]
  exact .nil rfl hw

/-- **Base after base**: everything under some bases is read. -/
theorem readBases_reads {c : ObjectClass} {kind : ObjectKind} {pageSize : UInt32}
    {content : SearchRequest → List Entry}
    (h : connection.Serves Inv Fault pageSize content) (bases : List String) (counts : EntryCounts)
    {w : World δ} (hw : Inv w.sources) :
    (readBases connection profile c kind pageSize bases counts).Achieves World.Undisturbed w
      (w.Reads Inv Fault (profile.listingUnder content c kind bases)
        (counts.add (Listing.counts (profile.listingUnder content c kind bases)))) := by
  induction bases generalizing counts w with
  | nil => exact .nil rfl hw
  | cons base bases ih =>
      rw [DirectoryProfile.listingUnder, List.flatMap_cons, Listing.counts_append,
        ← EntryCounts.add_assoc]
      exact (readPages_reads counts (h.searchPage _) hw).bindOk_reads fun w₁ hw₁ => ih _ hw₁

/-- **Class by class**: the objects of a class are read. -/
theorem enumerate_reads {d : DirectorySource δ} {content : SearchRequest → List Entry}
    (h : connection.Serves Inv Fault d.pageSize content) (kind : ObjectKind) {w : World δ}
    (hw : Inv w.sources) :
    (d.enumerate connection profile kind).Achieves World.Undisturbed w
      (w.Reads Inv Fault (profile.listings content kind)
        (Listing.counts (profile.listings content kind))) := by
  unfold enumerate DirectoryProfile.listings
  cases profile.objectClass? kind with
  | none => exact .nil rfl hw
  | some c =>
      rw [← EntryCounts.empty_add (Listing.counts _)]
      exact readBases_reads h c.searchBases {} hw

/-- **The principals, then the groups**: a whole domain is read over a connection. -/
theorem enumerateDomain_reads {d : DirectorySource δ} {content : SearchRequest → List Entry}
    (h : connection.Serves Inv Fault d.pageSize content) {w : World δ} (hw : Inv w.sources) :
    (d.enumerateDomain connection profile).Achieves World.Undisturbed w
      (w.Reads Inv Fault (profile.listing content) (profile.domainCounts content)) := by
  refine (enumerate_reads h .principal hw).bindOk_reads fun w₁ hw₁ => ?_
  exact (enumerate_reads h .group hw₁).bindOk_done _

/-- Closing the connection afterwards changes nothing. -/
theorem closed_reads {content : SearchRequest → List Entry} {pageSize : UInt32}
    (h : connection.Serves Inv Fault pageSize content) {xs : List Listing} {value : β}
    {x : Activity (World δ) (Except SourceError β)} {w : World δ}
    (hx : x.Achieves World.Undisturbed w (w.Reads Inv Fault xs value)) :
    (x.bind fun result => connection.close.bind fun _ => .done result).Achieves
      World.Undisturbed w (w.Reads Inv Fault xs value) := by
  refine Activity.achieves_bind.mpr (hx.mono fun outcome w₁ h₁ => ?_)
  obtain ⟨seen, hbegins, hstores, hinv, houtcome⟩ := h₁
  refine Activity.achieves_bind.mpr ((h.close w₁ hinv).mono fun _ w₂ h₂ => ?_)
  exact ⟨seen, hbegins, h₂.2.1.symm ▸ hstores, h₂.2.2, houtcome⟩

/-- **One attempt at a domain** reads its listing, up to some point if it fails. -/
theorem refreshDomain_reads {d : DirectorySource δ}
    {content : ConnectionSettings → SearchRequest → List Entry}
    (h : d.client.Serves Inv Fault d.pageSize content) (profile : DirectoryProfile) {w : World δ}
    (hw : Inv w.sources) :
    (d.refreshDomain profile).Achieves World.Undisturbed w
      (w.Reads Inv Fault (profile.listing (content profile.connectionSettings))
        (profile.domainCounts (content profile.connectionSettings))) := by
  refine (h profile.connectionSettings w hw).bindOk ?_ fun e w₁ h => .of_error h.2.1 h.2.2 h.1
  rintro connection w₁ ⟨hserves, hcache, hinv⟩
  exact (closed_reads hserves (enumerateDomain_reads hserves hinv)).mono fun outcome w' h =>
    h.from_start hcache

/-- **A refresh of all domains** does what reading them one after another does to the cache and to
what the sources keep. -/
theorem refreshAll_achieves {d : DirectorySource δ} (henabled : d.refreshEnabled = true)
    {w : World δ} (hlock : w.directoryLock.queue = []) {P : RefreshSummary → Cache → δ → Prop}
    (h : ∀ w₁ : World δ, w₁.cache = w.cache → w₁.sources = w.sources →
      (d.refreshDomains d.catalog.profiles {}).Achieves World.Undisturbed w₁
        fun summary w' => P summary w'.cache w'.sources) :
    d.refreshAll.Achieves World.Undisturbed w fun summary w' => P summary w'.cache w'.sources := by
  rw [refreshAll, if_pos henabled]
  refine Lock.achieves_holding (fun s s' hs => hs.2.2) hlock fun w₁ w₂ h₁ h₂ => ?_
  refine Gate.achieves_refreshing.mpr fun w₃ h₃ => ?_
  have hcache : w₃.cache = w.cache := h₃.1.trans (h₂.1.trans h₁.1)
  have hsources : w₃.sources = w.sources := h₃.2.1.trans (h₂.2.1.trans h₁.2.1)
  refine (h (Gate.raise World.directoryFlag id w₃) hcache hsources).mono fun summary t hP => ?_
  -- Neither lowering the flag nor giving the lock back touches the cache or the sources.
  intro t₁ ht₁ t₂ ht₂ ticket
  have hcache' : t₂.cache = t.cache := ht₂.1.trans ht₁.1
  have hsources' : t₂.sources = t.sources := ht₂.2.1.trans ht₁.2.1
  show P summary t₂.cache t₂.sources
  rwa [hcache', hsources']

end DirectorySource

end AttrFederation
