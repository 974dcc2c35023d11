import AttrFederation.Proofs.Assoc
import AttrFederation.Proofs.Directory.Clauses
import AttrFederation.Source.Memory

/-!
# Identity searches in memory

The directory in memory does not read the filter of a search.  It returns the entries of which the
filter, searched as a text, asserts some value.

An identity filter asserts the identity of every key attribute, and an entry with such a value is
found (`MemoryDirectory.searchOnce_identity`).  But the filter of the class is part of it as well: an
entry with a value that the class asks for, such as its object class, is found for every identity.
-/

namespace AttrFederation

open Text

/-! ## Text search -/

/-- A text that contains another one has its characters one after another. -/
theorem Text.containsChars_iff {needle cs : List Char} :
    containsChars needle cs = true ↔ needle <:+: cs := by
  induction cs with
  | nil => simp [containsChars]
  | cons c cs ih =>
      rw [containsChars, Bool.or_eq_true, ih, List.isPrefixOf_iff_prefix, List.infix_cons_iff]

/-! ## Values of an entry -/

namespace Entry

/-- Each attribute has one list of values, under its name in lower case. -/
structure Keyed (e : Entry) : Prop where
  wellKeyed : e.attributes.WellKeyed
  lowerName : ∀ name ∈ e.attributes.keys, lowercase name = name

theorem Keyed.push {e : Entry} (h : e.Keyed) (name : String) (value : Datum) :
    (e.push name value).Keyed where
  wellKeyed := h.wellKeyed.set _ _
  lowerName other hother := by
    rw [Assoc.mem_keys_iff, Entry.push, Assoc.get?_set] at hother
    split at hother
    · next heq => rw [heq, lowercase_lowercase]
    · exact h.lowerName other (Assoc.mem_keys_iff.mpr hother)

/-- An entry made of named values keeps each under its name in lower case. -/
theorem keyed_of (dn : String) (attributes : List (String × List Datum)) :
    (Entry.of dn attributes).Keyed := by
  unfold Entry.of
  refine List.foldlRecOn attributes _ ?_ fun e he named _ => ?_
  · exact ⟨Assoc.wellKeyed_empty, by simp [Assoc.keys]⟩
  · exact List.foldlRecOn named.2 _ he fun e he datum _ => he.push named.1 datum

/-- The entry has the value for the attribute, both up to letter case. -/
def hasValue (e : Entry) (name value : String) : Bool :=
  (e.values name).any fun d => lowercase d.toText == lowercase value

theorem hasValue_iff {e : Entry} (h : e.Keyed) {name value : String} :
    e.hasValue name value = true ↔
      ∃ other data, (other, data) ∈ e.attributes.entries ∧ lowercase other = lowercase name ∧
        ∃ d ∈ data, lowercase d.toText = lowercase value := by
  simp only [hasValue, values, List.any_eq_true, beq_iff_eq, Assoc.mem_entries_iff h.wellKeyed]
  constructor
  · rintro ⟨d, hd, hvalue⟩
    cases hget : e.attributes.get? (lowercase name) with
    | none => simp [hget] at hd
    | some data =>
        rw [hget, Option.getD_some] at hd
        exact ⟨lowercase name, data, hget, lowercase_lowercase name, d, hd, hvalue⟩
  · rintro ⟨other, data, hget, hname, d, hd, hvalue⟩
    have hlower := h.lowerName other (Assoc.mem_keys_iff.mpr ⟨data, hget⟩)
    rw [← hname, hlower, hget]
    exact ⟨d, hd, hvalue⟩

/-- The entry can be found by what is asserted of it: the names of its attributes begin no clause and
no value, and lower case is not affected by the escaping of its values. -/
structure Searchable (e : Entry) : Prop extends e.Keyed where
  isName : ∀ name ∈ e.attributes.keys, Filter.IsName name
  sigmaApart : ∀ entry ∈ e.attributes.entries, ∀ d ∈ entry.2, Filter.SigmaApart d.toText

end Entry

/-- The entry has the identity as the value of a key attribute. -/
def ObjectClass.identifies (c : ObjectClass) (id : String) (e : Entry) : Bool :=
  c.keys.any fun key => e.hasValue key.name id

namespace MemoryDomain

/-- The entries under a base that have the identity. -/
def identified (d : MemoryDomain) (base : String) (c : ObjectClass) (id : String) : List Entry :=
  (d.under base).filter (c.identifies id)

/-! ## Searching -/

/-- An entry is asserted by the clauses of its values. -/
theorem asserts_iff {filter : String} {e : Entry} :
    asserts (lowercase filter) e = true ↔
      ∃ name data, (name, data) ∈ e.attributes.entries ∧
        ∃ d ∈ data, Filter.Occurs (Filter.lowerAsserted name d.toText) filter.toList := by
  have hoccurs : ∀ name value : String,
      containsText (lowercase filter) (lowercase (Filter.assertion name value)) = true ↔
        Filter.Occurs (Filter.lowerAsserted name value) filter.toList := by
    intro name value
    rw [containsText, containsChars_iff, toList_lowercase, toList_lowercase,
      Filter.toList_assertion, Filter.lowerAfter_clause]
    rfl
  simp only [asserts, List.any_eq_true, hoccurs, Prod.exists]

variable {c : ObjectClass} {id : String}

/-- A value of a searchable entry is asserted by an identity filter if the filter of the class
asserts it, or if it is the identity or the mark of a disabled account. -/
theorem occurs_value_iff {e : Entry} (he : e.Searchable)
    (hkeys : ∀ key ∈ c.keys, Filter.IsName key.name) (hid : Filter.SigmaApart id)
    (includeDisabled : Bool) {name : String} {data : List Datum}
    (hentry : (name, data) ∈ e.attributes.entries) {d : Datum} (hd : d ∈ data) :
    Filter.Occurs (Filter.lowerAsserted name d.toText)
        (Filter.identity c includeDisabled id).toList ↔
      Filter.Occurs (Filter.lowerAsserted name d.toText) (Filter.parenthesize c.filter).toList ∨
      (includeDisabled = false ∧ lowercase name = lowercase Filter.accountBits ∧
        lowercase d.toText = lowercase "2") ∨
      ∃ key ∈ c.keys, lowercase name = lowercase key.name ∧
        lowercase d.toText = lowercase id := by
  have hname : Filter.IsName name := he.isName name (List.mem_map_of_mem hentry)
  have hvalue : Filter.SigmaApart d.toText := he.sigmaApart _ hentry d hd
  have htwo : Filter.SigmaApart "2" := Filter.sigmaApart_of_notMem (by decide)
  rw [Filter.occurs_identity_iff hname hkeys, Filter.lowercase_escape_eq_iff hvalue htwo,
    Filter.lowercase_escape_eq_iff hvalue hid]

/-- An identity filter asserts the identity, and what the filter of the class asserts. -/
theorem asserts_identity_iff {e : Entry} (he : e.Searchable)
    (hkeys : ∀ key ∈ c.keys, Filter.IsName key.name) (hid : Filter.SigmaApart id)
    (includeDisabled : Bool) :
    asserts (lowercase (Filter.identity c includeDisabled id)) e = true ↔
      c.identifies id e = true ∨
        asserts (lowercase (Filter.parenthesize c.filter)) e = true ∨
        (includeDisabled = false ∧ e.hasValue Filter.accountBits "2" = true) := by
  simp only [ObjectClass.identifies, List.any_eq_true, asserts_iff, Entry.hasValue_iff he.toKeyed]
  constructor
  · rintro ⟨name, data, hentry, d, hd, hoccurs⟩
    rcases (occurs_value_iff he hkeys hid includeDisabled hentry hd).mp hoccurs with
      hclass | ⟨hdisabled, hname, hvalue⟩ | ⟨key, hkey, hname, hvalue⟩
    · exact .inr (.inl ⟨name, data, hentry, d, hd, hclass⟩)
    · exact .inr (.inr ⟨hdisabled, name, data, hentry, hname, d, hd, hvalue⟩)
    · exact .inl ⟨key, hkey, name, data, hentry, hname, d, hd, hvalue⟩
  · rintro (⟨key, hkey, name, data, hentry, hname, d, hd, hvalue⟩ |
      ⟨name, data, hentry, d, hd, hclass⟩ |
      ⟨hdisabled, name, data, hentry, hname, d, hd, hvalue⟩)
    all_goals
      refine ⟨name, data, hentry, d, hd, ?_⟩
      rw [occurs_value_iff he hkeys hid includeDisabled hentry hd]
    · exact .inr (.inr ⟨key, hkey, hname, hvalue⟩)
    · exact .inl hclass
    · exact .inr (.inl ⟨hdisabled, hname, hvalue⟩)

end MemoryDomain

namespace MemoryDirectory

/-- What a connection to a domain returns for a search that runs alone. -/
def searchOnce (m : MemoryDirectory) (name : String) (request : SearchRequest) :
    Option (Except SourceError (List Entry)) :=
  (((connection .whole name).search request).alone m 0).map Prod.fst

/-- A search returns the entries of which its filter asserts a value. -/
theorem searchOnce_eq (m : MemoryDirectory) (name : String) (request : SearchRequest) :
    m.searchOnce name request =
      some (.ok ((m.domain name).matching request.base request.filter)) := rfl

/-- **An identity search in memory finds whom the filter asserts.**  It returns entries under the
base in the order in which they were added, and judges each by itself: a searchable entry is
returned exactly if it has the identity as the value of a key attribute, up to letter case, or the
filter of the class asserts a value of it, or disabled accounts are excluded and it has the value
that the clause on them asserts. -/
theorem searchOnce_identity {c : ObjectClass} {id : String}
    (hkeys : ∀ key ∈ c.keys, Filter.IsName key.name) (hid : Filter.SigmaApart id)
    (includeDisabled : Bool) :
    ∃ found : Entry → Bool,
      (∀ (m : MemoryDirectory) (name base : String) (attributes : List String),
        m.searchOnce name ⟨base, Filter.identity c includeDisabled id, attributes⟩ =
          some (.ok (((m.domain name).under base).filter found))) ∧
      ∀ e : Entry, e.Searchable →
        (found e = true ↔
          c.identifies id e = true ∨
            MemoryDomain.asserts (lowercase (Filter.parenthesize c.filter)) e = true ∨
            (includeDisabled = false ∧ e.hasValue Filter.accountBits "2" = true)) := by
  refine ⟨MemoryDomain.asserts (lowercase (Filter.identity c includeDisabled id)),
    fun m name base attributes => ?_, fun e he => ?_⟩
  · rw [searchOnce_eq, MemoryDomain.matching]
  · exact MemoryDomain.asserts_identity_iff he hkeys hid includeDisabled

end MemoryDirectory

/-! ## Whom it finds besides -/

namespace Staff

/-- People with a login name. -/
def people : ObjectClass where
  searchBases := ["ou=people"]
  filter := "objectClass=person"
  keys := [⟨"uid", true⟩]
  pulls := .empty

/-- A person whose object class is known. -/
def amy : Entry :=
  .of "uid=amy" [("uid", [.text "amy"]), ("objectClass", [.text "person"])]

def jake : Entry :=
  .of "uid=jake" [("uid", [.text "J*ke"])]

/-- An account with a disabled bit under the name that filters test it with. -/
def ann : Entry :=
  .of "uid=ann" [("uid", [.text "ann"]), (Filter.accountBits, [.text "2"])]

/-- An entry with an equals sign in the name of an attribute. -/
def odd : Entry :=
  .of "cn=odd" [("uid=x", [.text "amy"])]

/-- A person with a small sigma after an asterisk. -/
def star : Entry :=
  .of "uid=star" [("uid", [.text "*σ"])]

def directory : MemoryDirectory where
  domains := .ofList [("STAFF", { entries :=
    [("ou=people", amy), ("ou=people", jake), ("ou=people", ann), ("ou=staff", ann),
      ("ou=named", odd), ("ou=greek", star)] })]

/-- A search in the directory for an identity. -/
def search (base id : String) (includeDisabled : Bool) :
    Option (Except SourceError (List Entry)) :=
  directory.searchOnce "STAFF" ⟨base, Filter.identity people includeDisabled id, []⟩

/-- Those who have the identity. -/
def identified (base id : String) : List Entry :=
  (directory.domain "STAFF").identified base people id

end Staff

namespace MemoryDirectory

open Staff

/-- With the identity `j*KE` are found Jake, and Amy for her object class. -/
theorem searchOnce_identity_of_jake :
    (∀ key ∈ people.keys, Filter.IsName key.name) ∧ Filter.SigmaApart "j*KE" ∧
      (∀ e ∈ (directory.domain "STAFF").under "ou=people", e.Searchable) ∧
      Staff.search "ou=people" "j*KE" true = some (.ok [amy, jake]) := by
  have hkeys : ∀ key ∈ people.keys, Filter.IsName key.name := by decide
  have hid : Filter.SigmaApart "j*KE" := Filter.sigmaApart_of_notMem (by decide)
  have hunder : (directory.domain "STAFF").under "ou=people" = [amy, jake, ann] := by
    decide +kernel
  have hsearchable : ∀ e ∈ [amy, jake, ann], e.Searchable := by
    have hnames : ∀ e ∈ [amy, jake, ann], ∀ name ∈ e.attributes.keys, Filter.IsName name := by
      decide +kernel
    have hvalues : ∀ e ∈ [amy, jake, ann], ∀ entry ∈ e.attributes.entries, ∀ d ∈ entry.2,
        'Σ' ∉ d.toText.toList := by
      decide +kernel
    have hkeyed : ∀ e ∈ [amy, jake, ann], e.Keyed := by
      simp only [List.forall_mem_cons, List.not_mem_nil, false_implies, implies_true, and_true]
      exact ⟨Entry.keyed_of _ _, Entry.keyed_of _ _, Entry.keyed_of _ _⟩
    exact fun e he => ⟨hkeyed e he, hnames e he, fun entry hentry d hd =>
      Filter.sigmaApart_of_notMem (hvalues e he entry hentry d hd)⟩
  refine ⟨hkeys, hid, hunder ▸ hsearchable, ?_⟩
  obtain ⟨found, hsearch, hfound⟩ := searchOnce_identity hkeys hid true
  have hamy : found amy = true :=
    (hfound amy (hsearchable amy (by simp))).mpr (by decide +kernel)
  have hjake : found jake = true :=
    (hfound jake (hsearchable jake (by simp))).mpr (by decide +kernel)
  have hann : ¬ found ann = true :=
    mt (hfound ann (hsearchable ann (by simp))).mp (by decide +kernel)
  rw [Staff.search, hsearch, hunder, List.filter_cons_of_pos hamy, List.filter_cons_of_pos hjake,
    List.filter_cons_of_neg hann, List.filter_nil]

/-- **More is found than those who have the identity, and less**: a person for the object class, an
account for the mark that excludes it, an entry for an equals sign in the name of an attribute; and
not an entry whose value has a small sigma where the escaped identity has a final one. -/
theorem searchOnce_ne_identified :
    Staff.search "ou=people" "jake" true ≠ some (.ok (identified "ou=people" "jake")) ∧
      Staff.search "ou=staff" "jake" false ≠ some (.ok (identified "ou=staff" "jake")) ∧
      Staff.search "ou=named" "x=amy" true ≠ some (.ok (identified "ou=named" "x=amy")) ∧
      Staff.search "ou=greek" "*Σ" true ≠ some (.ok (identified "ou=greek" "*Σ")) := by
  simp only [Staff.search, searchOnce_eq, ne_eq, Option.some.injEq, Except.ok.injEq]
  decide +kernel

end MemoryDirectory

end AttrFederation
