import AttrFederation.Proofs.Bytes
import AttrFederation.Proofs.Source.Enumeration
import AttrFederation.Source.Memory

/-!
# The pages of a directory in memory

A directory in memory cuts the entries under a base into pages and hands out positions of 32 bits.
`pagesFrom` is what the pages from a position hold together.

* `pagesFrom_eq_drop` — for fewer than 2³² entries these are the entries from that position on,
  whatever the page size, also a page size of zero;
* `runsOut_eq_false` — and the last page is among the first 2³²;
* `delivers_of_pages` — a connection that answers with the pages of a domain delivers them;
* `connection_serves`, `connection_finds` — the directory's connections do, and nothing but their
  account of pages and filters changes (`Alike`).
-/

namespace AttrFederation

/-! ## Positions -/

namespace MemoryDomain

theorem offsetOf?_toLittleEndian (n : Nat) :
    offsetOf? (some (Bytes.toLittleEndian n)) = some (n % UInt32.size) :=
  congrArg some (Bytes.ofLittleEndian_ofNat n)

/-! ## Pages -/

variable (pageSize : UInt32) (entries : List Entry)

/-- The position after the page at a position. -/
def stop (offset : Nat) : Nat :=
  min (offset + max pageSize.toNat 1) entries.length

/-- The page at a position. -/
def pageAt (offset : Nat) : SearchPage :=
  let stop := stop pageSize entries offset
  { entries := (entries.take stop).drop offset
    cookie := if stop < entries.length then some (Bytes.toLittleEndian stop) else none
    total := some (UInt32.ofNat entries.length) }

/-- What so many pages from a position hold together. -/
def pagesFrom : Nat → Nat → List Entry
  | 0, _ => []
  | pages + 1, offset =>
    let stop := stop pageSize entries offset
    (entries.take stop).drop offset ++
      if stop < entries.length then pagesFrom pages (stop % UInt32.size) else []

/-- The last page is not among so many pages from a position. -/
def runsOut : Nat → Nat → Bool
  | 0, _ => true
  | pages + 1, offset =>
    let stop := stop pageSize entries offset
    stop < entries.length && runsOut pages (stop % UInt32.size)

/-- A page is the last one, or the next one is at a later position. -/
theorem stop_eq_or_lt (offset : Nat) :
    stop pageSize entries offset = entries.length ∨ offset < stop pageSize entries offset := by
  unfold stop
  omega

variable {entries}

/-- **Every entry once and in order**: the pages from a position hold the entries from there on. -/
theorem pagesFrom_eq_drop (hsmall : entries.length < UInt32.size) {pages offset : Nat}
    (hpages : entries.length ≤ offset + pages) :
    pagesFrom pageSize entries pages offset = entries.drop offset := by
  induction pages generalizing offset with
  | zero => exact (List.drop_eq_nil_of_le hpages).symm
  | succ pages ih =>
      simp only [pagesFrom]
      have hstop := stop_eq_or_lt pageSize entries offset
      generalize stop pageSize entries offset = stop at hstop
      split
      · next hmore =>
          have hnext : stop % UInt32.size = stop := Nat.mod_eq_of_lt (by omega)
          rw [hnext, ih (by omega), ← List.drop_append_of_le_length (by simp; omega),
            List.take_append_drop]
      · next hend =>
          rw [List.append_nil, List.take_of_length_le (Nat.le_of_not_lt hend)]

/-- The whole of a search, page by page. -/
theorem pagesFrom_zero (hsmall : entries.length < UInt32.size) :
    pagesFrom pageSize entries DirectorySource.maxPages 0 = entries := by
  rw [pagesFrom_eq_drop pageSize hsmall, List.drop_zero]
  exact Nat.le_of_lt (by simpa [DirectorySource.maxPages] using hsmall)

/-- **The pages do not run out**: each of them but the last one has an entry. -/
theorem runsOut_eq_false (hsmall : entries.length < UInt32.size) {pages offset : Nat}
    (hoffset : offset ≤ entries.length) (hpages : entries.length < offset + pages) :
    runsOut pageSize entries pages offset = false := by
  induction pages generalizing offset with
  | zero => omega
  | succ pages ih =>
      simp only [runsOut]
      have hstop := stop_eq_or_lt pageSize entries offset
      generalize stop pageSize entries offset = stop at hstop
      rw [Bool.and_eq_false_imp, decide_eq_true_eq]
      intro hmore
      have hnext : stop % UInt32.size = stop := Nat.mod_eq_of_lt (by omega)
      rw [hnext]
      exact ih (by omega) (by omega)

theorem runsOut_zero (hsmall : entries.length < UInt32.size) :
    runsOut pageSize entries DirectorySource.maxPages 0 = false :=
  runsOut_eq_false pageSize hsmall (Nat.zero_le _)
    (by simpa [DirectorySource.maxPages] using hsmall)

variable (entries)

/-- A page that is not the last one comes with the position of the next. -/
theorem offsetOf?_cookie_pageAt (offset : Nat) :
    (pageAt pageSize entries offset).hasMore =
        decide (stop pageSize entries offset < entries.length) ∧
      (stop pageSize entries offset < entries.length →
        offsetOf? (pageAt pageSize entries offset).cookie =
          some (stop pageSize entries offset % UInt32.size)) := by
  by_cases hmore : stop pageSize entries offset < entries.length
  · simp only [SearchPage.hasMore, pageAt, hmore, decide_true, true_implies]
    exact ⟨rfl, offsetOf?_toLittleEndian _⟩
  · simp [SearchPage.hasMore, pageAt, hmore]

variable {pageSize}

/-- A cookie with a position is answered with the page there. -/
theorem page_of_offset {d : MemoryDomain} {request : PageRequest} {offset : Nat}
    (h : offsetOf? request.cookie = some offset) :
    d.page request = .ok (pageAt request.pageSize (d.under request.base) offset) := by
  rw [page, h]
  rfl

/-- A page depends on the entries only. -/
theorem page_congr {d d' : MemoryDomain} (h : d'.entries = d.entries) (request : PageRequest) :
    d'.page request = d.page request := by
  have hunder : d'.under request.base = d.under request.base := by rw [under, under, h]
  simp only [page, hunder]

/-- **Paging**: a connection that answers each request with the page of a domain, or fails, delivers
what the pages of the domain hold.  Nothing is left over, if the pages do not run out. -/
theorem delivers_of_pages {δ : Type} {Inv : δ → Prop} {Fault : SourceError → Prop}
    {connection : DirectoryConnection (World δ)} {d : MemoryDomain} {request : SearchRequest}
    {leftOver : List Entry → Prop}
    (h : ∀ cookie page, d.page ⟨request, pageSize, cookie⟩ = .ok page →
      (connection.searchPage ⟨request, pageSize, cookie⟩).Responds Inv fun outcome =>
        match outcome with
        | .ok delivered => delivered = page
        | .error e => Fault e)
    {pages offset : Nat} {cookie : Option (List UInt8)} (hoffset : offsetOf? cookie = some offset)
    (hleft : runsOut pageSize (d.under request.base) pages offset = true → leftOver []) :
    connection.Delivers Inv Fault pageSize request leftOver pages cookie
      (pagesFrom pageSize (d.under request.base) pages offset) := by
  induction pages generalizing cookie offset with
  | zero => exact hleft rfl
  | succ pages ih =>
      intro w hw
      refine (h cookie _ (page_of_offset hoffset) w hw).mono ?_
      rintro (e | page) w' ⟨houtcome, hkept⟩
      · exact ⟨houtcome, hkept⟩
      · obtain rfl : page = pageAt pageSize (d.under request.base) offset := houtcome
        obtain ⟨hmore, hcookie⟩ := offsetOf?_cookie_pageAt pageSize (d.under request.base) offset
        refine ⟨⟨_, rfl, ?_⟩, hkept⟩
        simp only [hmore, decide_eq_true_eq]
        split
        · next hlt => exact ih (hcookie hlt) fun hrest => hleft (by simp [runsOut, hlt, hrest])
        · rfl

end MemoryDomain

/-! ## Connections -/

namespace MemoryDirectory

theorem domain_update (m : MemoryDirectory) (name other : String)
    (f : MemoryDomain → MemoryDomain) :
    (m.update name f).domain other =
      if other = name then f (m.domain name) else m.domain other := by
  unfold domain update
  rw [Assoc.get?_set]
  split <;> rfl

/-- Another state of the same directory, that differs only in what it has kept account of about
pages and filters. -/
def Alike (m m' : MemoryDirectory) : Prop :=
  ∀ name, (m'.domain name).entries = (m.domain name).entries ∧
    (m'.domain name).outage = (m.domain name).outage ∧
    (m'.domain name).connects = (m.domain name).connects

theorem alike_refl (m : MemoryDirectory) : m.Alike m :=
  fun _ => ⟨rfl, rfl, rfl⟩

theorem Alike.trans {m₁ m₂ m₃ : MemoryDirectory} (h : m₁.Alike m₂) (h' : m₂.Alike m₃) :
    m₁.Alike m₃ := fun name =>
  ⟨(h' name).1.trans (h name).1, (h' name).2.1.trans (h name).2.1,
    (h' name).2.2.trans (h name).2.2⟩

/-- An account of a request changes nothing else. -/
theorem alike_update (m : MemoryDirectory) (name : String) {f : MemoryDomain → MemoryDomain}
    (hf : ∀ d, (f d).entries = d.entries ∧ (f d).outage = d.outage ∧ (f d).connects = d.connects) :
    m.Alike (m.update name f) := by
  intro other
  rw [domain_update]
  split
  · next heq => exact heq ▸ hf _
  · exact ⟨rfl, rfl, rfl⟩

/-- What a domain delivers in pages of a size. -/
def delivered (m : MemoryDirectory) (pageSize : UInt32) (name : String) (request : SearchRequest) :
    List Entry :=
  MemoryDomain.pagesFrom pageSize ((m.domain name).under request.base) DirectorySource.maxPages 0

/-- What a search that is not paged finds in a domain. -/
def found (m : MemoryDirectory) (name : String) (request : SearchRequest) : List Entry :=
  (m.domain name).matching request.base request.filter

section Connections

variable {δ : Type} {field : Field δ MemoryDirectory} {Inv : δ → Prop} {m : MemoryDirectory}
  (hkept : ∀ s m', Inv s → (field.get s).Alike m' → Inv (field.set m' s))
  (hentries : ∀ s, Inv s → ∀ name,
    ((field.get s).domain name).entries = (m.domain name).entries)

include hkept hentries

/-- A connection of the directory delivers the pages of its domain and does not fail. -/
theorem connection_delivers (name : String) (pageSize : UInt32) (request : SearchRequest)
    {leftOver : List Entry → Prop}
    (hleft : MemoryDomain.runsOut pageSize ((m.domain name).under request.base)
      DirectorySource.maxPages 0 = true → leftOver []) :
    (connection (World.sourcesField.comp field) name).Delivers Inv (fun _ => False) pageSize request
      leftOver DirectorySource.maxPages none (m.delivered pageSize name request) := by
  refine MemoryDomain.delivers_of_pages (d := m.domain name) (fun cookie page hpage => ?_) rfl hleft
  rintro w hw w' ⟨hcache, hsources, -⟩
  have hinv : Inv w'.sources := hsources ▸ hw
  have hanswer : ((field.get w'.sources).domain name).page ⟨request, pageSize, cookie⟩ =
      .ok page := (MemoryDomain.page_congr (hentries _ hinv name) _).trans hpage
  refine ⟨by simp only [Field.comp, World.sourcesField, hanswer], hcache, ?_⟩
  exact hkept _ _ hinv (alike_update _ name fun _ => ⟨rfl, rfl, rfl⟩)

/-- **The connections of the directory** serve what their domain delivers, and do not fail. -/
theorem connection_serves (name : String) (pageSize : UInt32) :
    (connection (World.sourcesField.comp field) name).Serves Inv (fun _ => False) pageSize
      (m.delivered pageSize name) where
  searchPage request := connection_delivers hkept hentries name pageSize request fun _ => rfl
  close _ hw := ⟨trivial, rfl, hw⟩

/-- A search that is not paged finds what there is. -/
theorem connection_finds (name : String) (request : SearchRequest) :
    ((connection (World.sourcesField.comp field) name).search request).Responds Inv fun outcome =>
      outcome = .ok (m.found name request) := by
  intro w hw w' hw'
  have hw' : w'.cache = w.cache ∧ Inv w'.sources := ⟨hw'.1, hw'.2.1 ▸ hw⟩
  refine ⟨?_, hw'.1, hkept _ _ hw'.2 (alike_update _ name fun _ => ⟨rfl, rfl, rfl⟩)⟩
  simp only [Field.comp, World.sourcesField, found, MemoryDomain.matching, MemoryDomain.under,
    hentries _ hw'.2 name]

end Connections

end MemoryDirectory

end AttrFederation
