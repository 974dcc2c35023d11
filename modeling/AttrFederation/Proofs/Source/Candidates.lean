import AttrFederation.Proofs.Source.MemorySources
import AttrFederation.Proofs.Source.PageSize

/-!
# Looking in the candidate domains

A query looks for an identity in domain after domain, and in each under base after base.  Both go by
one rule: the first finding that is not that there is nothing is the finding of the whole
(`Finding.first`), and what comes after it is not asked (`Finding.askedUntil`).  A failure is such a
finding too, so a domain that fails hides those after it.

The bases of a domain, the domains and the query are followed in this order (`findUnder_logs`,
`queryDomain_logs`, `queryDomains_logs`, `queryIdentity_first`), with what is found and with the
searches that are made.
-/

namespace AttrFederation

variable {δ : Type}

/-! ## Findings -/

/-- What looking for an identity comes to. -/
abbrev Finding := Except SourceError (Option Record)

namespace Finding

/-- There is something, or it is not known whether there is. -/
def isDecisive : Finding → Bool
  | .ok none => false
  | _ => true

/-- The first of some findings that is decisive, and that there is nothing if none is. -/
def first (findings : List Finding) : Finding :=
  (findings.find? isDecisive).getD (.ok none)

/-- The record that was found. -/
def record? : Finding → Option Record
  | .ok found => found
  | .error _ => none

theorem record?_eq_some_iff {finding : Finding} {record : Record} :
    finding.record? = some record ↔ finding = .ok (some record) := by
  cases finding <;> simp [record?]

theorem isDecisive_eq_false_iff {finding : Finding} :
    finding.isDecisive = false ↔ finding = .ok none := by
  unfold isDecisive
  split <;> simp_all

theorem isDecisive_eq_true_iff {finding : Finding} :
    finding.isDecisive = true ↔ finding ≠ .ok none := by
  rw [← Bool.not_eq_false, not_iff_not, isDecisive_eq_false_iff]

/-- **The first decisive finding** is one that has nothing but empty findings before it. -/
theorem first_eq_iff {findings : List Finding} {finding : Finding} (h : finding ≠ .ok none) :
    first findings = finding ↔
      ∃ before after, findings = before ++ finding :: after ∧ ∀ x ∈ before, x = .ok none := by
  have hfind : first findings = finding ↔ findings.find? isDecisive = some finding := by
    unfold first
    cases findings.find? isDecisive with
    | none => simpa using h.symm
    | some x => simp
  rw [hfind, List.find?_eq_some_iff_append]
  simp [isDecisive_eq_true_iff, isDecisive_eq_false_iff, h]

/-- Those that are asked for a finding, one after another, until one has a decisive one. -/
def askedUntil {α : Type} (finding : α → Finding) : List α → List α
  | [] => []
  | x :: xs => x :: if (finding x).isDecisive then [] else askedUntil finding xs

/-- Asked is what has nothing but empty findings before it. -/
theorem mem_askedUntil_iff {α : Type} {finding : α → Finding} {xs : List α} {x : α} :
    x ∈ askedUntil finding xs ↔
      ∃ before after, xs = before ++ x :: after ∧ ∀ y ∈ before, finding y = .ok none := by
  induction xs with
  | nil => simp [askedUntil]
  | cons y ys ih =>
      have hsplit : (∃ before after, y :: ys = before ++ x :: after ∧
          ∀ z ∈ before, finding z = .ok none) ↔
          x = y ∨ finding y = .ok none ∧ ∃ before after, ys = before ++ x :: after ∧
            ∀ z ∈ before, finding z = .ok none := by
        constructor
        · rintro ⟨before, after, heq, hnone⟩
          cases before with
          | nil => exact .inl (List.cons.inj heq).1.symm
          | cons z before =>
              obtain ⟨rfl, rfl⟩ := List.cons.inj heq
              exact .inr ⟨hnone y List.mem_cons_self, before, after, rfl,
                fun z hz => hnone z (List.mem_cons_of_mem _ hz)⟩
        · rintro (rfl | ⟨hy, before, after, rfl, hnone⟩)
          · exact ⟨[], ys, rfl, by simp⟩
          · exact ⟨y :: before, after, rfl, by simpa [hy] using hnone⟩
      rw [hsplit, ← ih, askedUntil, List.mem_cons]
      refine or_congr_right ?_
      by_cases hy : finding y = .ok none
      · rw [if_neg (by simp [isDecisive_eq_true_iff, hy]), and_iff_right hy]
      · rw [if_pos (isDecisive_eq_true_iff.mpr hy)]
        simp [hy]

end Finding

/-! ## What domains answer -/

/-- Whether the domain of some settings is reached, and what a search then finds there. -/
abbrev DirectoryAnswer :=
  ConnectionSettings → Except SourceError (SearchRequest → Except SourceError (List Entry))

/-- Connections are made or refused and searches answered as given, failures included. -/
def DirectoryClient.Answers (client : DirectoryClient (World δ)) (Inv : δ → Prop)
    (answer : DirectoryAnswer) : Prop :=
  ∀ settings, (client.connect settings).Responds Inv fun outcome =>
    match outcome with
    | .ok connection => ∃ found, answer settings = .ok found ∧
        (∀ request, (connection.search request).Responds Inv fun result => result = found request) ∧
        connection.close.Responds Inv fun _ => True
    | .error e => answer settings = .error e

/-- A search, with the settings of the domain that is asked. -/
abbrev DomainSearch := ConnectionSettings × SearchRequest

/-- Searches are answered as given and noted one by one: `Inv` says what the sources keep after some
of them. -/
structure DirectoryConnection.Logs (connection : DirectoryConnection (World δ))
    (settings : ConnectionSettings) (Inv : List DomainSearch → δ → Prop)
    (found : SearchRequest → Except SourceError (List Entry)) : Prop where
  search : ∀ request log (w : World δ), Inv log w.sources →
    (connection.search request).Achieves World.Undisturbed w fun result w' =>
      result = found request ∧ w'.cache = w.cache ∧ Inv (log ++ [(settings, request)]) w'.sources
  close : ∀ log, connection.close.Responds (Inv log) fun _ => True

/-- Connections are made or refused and searches answered as given, and the searches are noted. -/
def DirectoryClient.Logs (client : DirectoryClient (World δ))
    (Inv : List DomainSearch → δ → Prop) (answer : DirectoryAnswer) : Prop :=
  ∀ settings log, (client.connect settings).Responds (Inv log) fun outcome =>
    match outcome with
    | .ok connection => ∃ found, answer settings = .ok found ∧ connection.Logs settings Inv found
    | .error e => answer settings = .error e

/-- The account may be left out. -/
theorem DirectoryClient.Answers.logs {client : DirectoryClient (World δ)} {Inv : δ → Prop}
    {answer : DirectoryAnswer} (h : client.Answers Inv answer) :
    client.Logs (fun _ => Inv) answer := by
  intro settings _ w hw
  refine (h settings w hw).mono ?_
  rintro (e | connection) w' ⟨houtcome, hkept⟩
  · exact ⟨houtcome, hkept⟩
  · obtain ⟨found, hfound, hsearch, hclose⟩ := houtcome
    exact ⟨⟨found, hfound, fun request _ => hsearch request, fun _ => hclose⟩, hkept⟩

namespace DirectoryProfile

/-- What the result of one search says: the first entry counts, if there is one. -/
def findingOf (p : DirectoryProfile) (c : ObjectClass) (kind : ObjectKind) :
    Except SourceError (List Entry) → Finding
  | .error e => .error e
  | .ok [] => .ok none
  | .ok (e :: _) => (Normalized.ofEntry p.name c kind e).map fun n => some n.record

/-- What the bases say, one after another. -/
def findingUnder (p : DirectoryProfile) (c : ObjectClass) (kind : ObjectKind) (id : String)
    (found : SearchRequest → Except SourceError (List Entry)) (bases : List String) : Finding :=
  Finding.first (bases.map fun base => p.findingOf c kind (found (p.identitySearch c base id)))

/-- What the domain says. -/
def finding (p : DirectoryProfile) (kind : ObjectKind) (id : String) (answer : DirectoryAnswer) :
    Finding :=
  match p.objectClass? kind with
  | none => .ok none
  | some c => (answer p.connectionSettings).bind fun found =>
      p.findingUnder c kind id found c.searchBases

/-- The searches under the bases that are asked. -/
def searchesUnder (p : DirectoryProfile) (c : ObjectClass) (kind : ObjectKind) (id : String)
    (found : SearchRequest → Except SourceError (List Entry)) (bases : List String) :
    List DomainSearch :=
  let finding := fun base => p.findingOf c kind (found (p.identitySearch c base id))
  (Finding.askedUntil finding bases).map fun base =>
    (p.connectionSettings, p.identitySearch c base id)

/-- The searches in the domain, if it has the class and is reached. -/
def searches (p : DirectoryProfile) (kind : ObjectKind) (id : String) (answer : DirectoryAnswer) :
    List DomainSearch :=
  match p.objectClass? kind with
  | none => []
  | some c =>
    match answer p.connectionSettings with
    | .ok found => p.searchesUnder c kind id found c.searchBases
    | .error _ => []

end DirectoryProfile

/-- What each of the candidates for a query says, in order. -/
def DirectorySource.findings (d : DirectorySource δ) (answer : DirectoryAnswer) (c : Cache)
    (id attributeName : String) : List Finding :=
  let kind := (c.aliases.kindOf? id).getD .principal
  (d.catalog.providersOf attributeName kind).map fun q => q.finding kind id answer

/-! ## A directory in memory -/

namespace MemoryDirectory

/-- The directory still has the entries and the outages of another. -/
def SameDomains (m m' : MemoryDirectory) : Prop :=
  ∀ name, (m'.domain name).entries = (m.domain name).entries ∧
    (m'.domain name).outage = (m.domain name).outage

/-- What a directory answers whose outages do not pass. -/
def answer (m : MemoryDirectory) : DirectoryAnswer := fun settings =>
  if (m.domain settings.domain).outage.admits 0 then
    .ok fun request => .ok (m.found settings.domain request)
  else .error (.transient (settings.url ++ " is unreachable"))

/-- A directory answers always alike if refusing a connection leaves every outage as it is. -/
theorem client_answers {field : Field δ MemoryDirectory} {m : MemoryDirectory}
    (hlasting : ∀ name, (m.domain name).outage.spent 0 = (m.domain name).outage) :
    (client (World.sourcesField.comp field)).Answers (fun s => m.SameDomains (field.get s))
      m.answer := by
  intro settings w hw w₁ hw₁
  have hsame : m.SameDomains (field.get w₁.sources) := hw₁.2.1 ▸ hw
  have hvisited : m.SameDomains ((field.get w₁.sources).visited 0 settings.domain) := by
    intro name
    rw [entries_visited, visited, domain_update]
    refine ⟨(hsame name).1, ?_⟩
    split
    · next heq => rw [(hsame _).2, hlasting, heq]
    · exact (hsame name).2
  have hkept : ∀ s m', m.SameDomains (field.get s) → (field.get s).Alike m' →
      m.SameDomains (field.get (field.set m' s)) := by
    intro s m' h halike name
    rw [field.get_set]
    exact ⟨(halike name).1.trans (h name).1, (halike name).2.1.trans (h name).2⟩
  have hentries : ∀ s, m.SameDomains (field.get s) → ∀ name,
      ((field.get s).domain name).entries = (m.domain name).entries := fun s h name => (h name).1
  simp only [Field.comp, World.sourcesField, accept_eq, (hsame settings.domain).2]
  have hinv : m.SameDomains (field.get (field.set
      ((field.get w₁.sources).visited 0 settings.domain) w₁.sources)) := by
    rwa [field.get_set]
  cases hadmits : (m.domain settings.domain).outage.admits 0 with
  | true =>
      refine ⟨⟨fun request => .ok (m.found settings.domain request), ?_,
        connection_finds hkept hentries settings.domain,
        (connection_serves hkept hentries settings.domain 0).close⟩, hw₁.1, hinv⟩
      rw [answer, hadmits, if_pos rfl]
  | false =>
      refine ⟨?_, hw₁.1, hinv⟩
      rw [answer, hadmits]
      rfl

end MemoryDirectory

/-! ## An office whose north is down -/

namespace Office

/-- The south has one person, and the north refuses all connections. -/
def northDown : MemoryDirectory :=
  (MemoryDirectory.addEntry {} "SOUTH" "ou=staff" (person "sue")).fail "NORTH" .lasting

theorem northDown_lasting (name : String) :
    (northDown.domain name).outage.spent 0 = (northDown.domain name).outage := by
  rw [northDown, MemoryDirectory.fail, MemoryDirectory.domain_update]
  split
  · rfl
  · rw [MemoryDirectory.outage_addEntry]
    rfl

/-- The branches answer as the directory does. -/
theorem source_answers (names : List String) :
    (source names).client.Answers northDown.SameDomains northDown.answer :=
  MemoryDirectory.client_answers northDown_lasting

end Office

/-! ## Queries -/

/-- Looking for an identity came to a finding; the cache is as before unless it is a record. -/
def World.Finds (Inv : δ → Prop) (w : World δ) (finding outcome : Finding) (w' : World δ) : Prop :=
  outcome = finding ∧ (w'.cache = w.cache ∨ ∃ record, finding = .ok (some record)) ∧ Inv w'.sources

/-- Nothing was stored before. -/
theorem World.Finds.from_start {Inv : δ → Prop} {w w₁ w' : World δ} {finding outcome : Finding}
    (hcache : w₁.cache = w.cache) (h : w₁.Finds Inv finding outcome w') :
    w.Finds Inv finding outcome w' :=
  ⟨h.1, hcache ▸ h.2.1, h.2.2⟩

namespace DirectorySource

variable {Inv : δ → Prop} {d : DirectorySource δ} {answer : DirectoryAnswer} {w : World δ}

section Logs

variable {Inv : List DomainSearch → δ → Prop} {log : List DomainSearch}

/-- **Base after base**: the first decisive finding counts, and the bases up to it are asked. -/
theorem findUnder_logs {connection : DirectoryConnection (World δ)} {p : DirectoryProfile}
    {c : ObjectClass} {kind : ObjectKind} {id : String}
    {found : SearchRequest → Except SourceError (List Entry)}
    (hlogs : connection.Logs p.connectionSettings Inv found) (bases : List String)
    (hw : Inv log w.sources) :
    (findUnder connection p c kind id bases).Achieves World.Undisturbed w
      (w.Finds (Inv (log ++ p.searchesUnder c kind id found bases))
        (p.findingUnder c kind id found bases)) := by
  induction bases generalizing w log with
  | nil => exact ⟨rfl, .inl rfl, (List.append_nil log).symm ▸ hw⟩
  | cons base bases ih =>
      refine Activity.achieves_bind.mpr ((hlogs.search _ log w hw).mono ?_)
      rintro result w₁ ⟨hresult, hcache, hinv⟩
      have hresult : found (p.identitySearch c base id) = result := hresult.symm
      rw [DirectoryProfile.findingUnder, List.map_cons, DirectoryProfile.searchesUnder,
        Finding.askedUntil, hresult, List.map_cons, List.append_cons]
      rcases result with e | (_ | ⟨e, entries⟩)
      · exact ⟨rfl, .inl hcache, (List.append_nil _).symm ▸ hinv⟩
      · exact (ih hinv).mono fun outcome w' h => h.from_start hcache
      · have hfinding : p.findingOf c kind (.ok (e :: entries)) =
            (Normalized.ofEntry p.name c kind e).map fun n => some n.record := rfl
        rw [hfinding]
        dsimp only
        generalize Normalized.ofEntry p.name c kind e = normalized
        cases normalized with
        | error fault => exact ⟨rfl, .inl hcache, (List.append_nil _).symm ▸ hinv⟩
        | ok n =>
            intro w₂ hw₂
            refine ⟨rfl, .inr ⟨n.record, rfl⟩, (List.append_nil _).symm ▸ ?_⟩
            exact hw₂.2.1 ▸ hinv

variable (hlogs : d.client.Logs Inv answer) (kind : ObjectKind) (id : String)

include hlogs

/-- **In a domain** a refused connection counts as well. -/
theorem queryDomain_logs (p : DirectoryProfile) (hw : Inv log w.sources) :
    (d.queryDomain p kind id).Achieves World.Undisturbed w
      (w.Finds (Inv (log ++ p.searches kind id answer)) (p.finding kind id answer)) := by
  unfold queryDomain DirectoryProfile.finding DirectoryProfile.searches
  cases p.objectClass? kind with
  | none => exact ⟨rfl, .inl rfl, (List.append_nil log).symm ▸ hw⟩
  | some c =>
      refine (hlogs p.connectionSettings log w hw).bindOk ?_ ?_
      · rintro connection w₁ ⟨⟨found, hfound, hconnection⟩, hcache, hinv⟩
        simp only [hfound]
        refine Activity.achieves_bind.mpr
          ((findUnder_logs hconnection c.searchBases hinv).mono fun outcome w₂ h₂ => ?_)
        refine Activity.achieves_bind.mpr ((hconnection.close _ w₂ h₂.2.2).mono ?_)
        rintro - w₃ ⟨-, hcache₃, hinv₃⟩
        obtain ⟨rfl, hkept, -⟩ := h₂.from_start hcache
        exact ⟨rfl, hcache₃ ▸ hkept, hinv₃⟩
      · rintro e w₁ ⟨hrefused, hcache, hinv⟩
        simp only [hrefused]
        exact ⟨rfl, .inl hcache, (List.append_nil log).symm ▸ hinv⟩

/-- **Domain after domain**: the first decisive finding counts, and the domains up to it are
asked. -/
theorem queryDomains_logs (log : List DomainSearch) (candidates : List DirectoryProfile)
    (hw : Inv log w.sources) :
    (d.queryDomains kind id candidates).Achieves World.Undisturbed w
      (w.Finds
        (Inv (log ++ (Finding.askedUntil (fun q => q.finding kind id answer) candidates).flatMap
          fun q => q.searches kind id answer))
        (Finding.first (candidates.map fun q => q.finding kind id answer))) := by
  induction candidates generalizing w log with
  | nil => exact ⟨rfl, .inl rfl, (List.append_nil log).symm ▸ hw⟩
  | cons q candidates ih =>
      refine Activity.achieves_bind.mpr
        ((queryDomain_logs hlogs kind id q hw).mono fun outcome w₁ h₁ => ?_)
      obtain ⟨rfl, hkept, hinv⟩ := h₁
      rw [List.map_cons, Finding.askedUntil, List.flatMap_cons, ← List.append_assoc]
      generalize q.finding kind id answer = finding at hkept ⊢
      rcases finding with e | (_ | record)
      · exact ⟨rfl, hkept, (List.append_nil _).symm ▸ hinv⟩
      · have hcache : w₁.cache = w.cache := hkept.resolve_right (by simp)
        exact (ih _ hinv).mono fun outcome w' h => h.from_start hcache
      · exact ⟨rfl, hkept, (List.append_nil _).symm ▸ hinv⟩

end Logs

/-- The same without an account of the searches. -/
theorem queryDomains_first (hanswer : d.client.Answers Inv answer) (kind : ObjectKind)
    (id : String) (candidates : List DirectoryProfile) (hw : Inv w.sources) :
    (d.queryDomains kind id candidates).Achieves World.Undisturbed w
      (w.Finds Inv (Finding.first (candidates.map fun q => q.finding kind id answer))) :=
  queryDomains_logs hanswer.logs kind id [] candidates hw

/-- **The first candidate that does not answer with nothing decides a query.**  Whatever the domains
answer, refused connections, searches that fail and entries that cannot be normalized included:

* the outcome is the first decisive one of what the candidates say, in order;
* so a record is found exactly if a candidate has it and all before it have nothing, and a failure
  is the outcome exactly if a candidate fails and all before it have nothing;
* unless a record is found, the cache stays as it is. -/
theorem queryIdentity_first (hanswer : d.client.Answers Inv answer) (hw : Inv w.sources)
    (id attributeName : String) :
    (d.queryIdentity id attributeName).Achieves World.Undisturbed w fun outcome w' =>
      outcome = Finding.first (d.findings answer w.cache id attributeName) ∧
      (∀ finding, finding ≠ .ok none → (outcome = finding ↔
        ∃ before after, d.findings answer w.cache id attributeName = before ++ finding :: after ∧
          ∀ x ∈ before, x = .ok none)) ∧
      (w'.cache = w.cache ∨ ∃ record, outcome = .ok (some record)) := by
  intro w₁ hw₁
  rw [← hw₁.1]
  refine (queryDomains_first hanswer _ id _ (hw₁.2.1 ▸ hw)).mono ?_
  rintro outcome w' ⟨rfl, hkept, -⟩
  exact ⟨rfl, fun finding hfinding => Finding.first_eq_iff hfinding, hkept⟩

open Office in
/-- That the north is down does no harm where the south is asked first. -/
theorem queryIdentity_first_of_office :
    ((source ["SOUTH", "NORTH"]).queryIdentity "sue" "mail").Achieves World.Undisturbed
      { state with sources := northDown } fun outcome _ =>
        ∃ record, outcome = .ok (some record) ∧ record.id = "SOUTH#sue" := by
  have hid : (Finding.first ((source ["SOUTH", "NORTH"]).findings northDown.answer (.ofSettings {})
      "sue" "mail")).record?.map Record.id = some "SOUTH#sue" := by decide +kernel
  obtain ⟨record, hrecord, hid⟩ := Option.map_eq_some_iff.mp hid
  refine (queryIdentity_first (w := { state with sources := northDown })
    (source_answers ["SOUTH", "NORTH"]) (fun _ => ⟨rfl, rfl⟩) "sue" "mail").mono ?_
  rintro outcome w' ⟨houtcome, -⟩
  exact ⟨record, houtcome.trans (Finding.record?_eq_some_iff.mp hrecord), hid⟩

/-- A query finds a record whenever some candidate has one. -/
def Isolates (d : DirectorySource δ) (answer : DirectoryAnswer) (w : World δ)
    (id attributeName : String) : Prop :=
  (∃ record, .ok (some record) ∈ d.findings answer w.cache id attributeName) →
    (d.queryIdentity id attributeName).Achieves World.Undisturbed w fun outcome _ =>
      ∃ record, outcome = .ok (some record)

open Office in
/-- **A domain that is down hides the next one**: sue is in the south, and the north, which is asked
first, refuses the connection. -/
theorem not_isolates_of_down :
    (source ["NORTH", "SOUTH"]).client.Answers northDown.SameDomains northDown.answer ∧
    ¬ (source ["NORTH", "SOUTH"]).Isolates northDown.answer { state with sources := northDown }
        "sue" "mail" := by
  refine ⟨source_answers _, fun hisolates => ?_⟩
  have hsouth : (((source ["NORTH", "SOUTH"]).findings northDown.answer (.ofSettings {}) "sue"
      "mail").filterMap Finding.record?).map Record.id = ["SOUTH#sue"] := by decide +kernel
  have hrun : (((source ["NORTH", "SOUTH"]).queryIdentity "sue" "mail").alone
      { state with sources := northDown } 0).map (fun r => Finding.record? r.1) = some none := by
    decide +kernel
  obtain ⟨⟨outcome, w', time⟩, hrun, hnone⟩ := Option.map_eq_some_iff.mp hrun
  obtain ⟨record, hrecord, -⟩ := List.mem_map.mp (hsouth ▸ List.mem_singleton_self "SOUTH#sue")
  obtain ⟨finding, hfinding, hfound⟩ := List.mem_filterMap.mp hrecord
  obtain rfl := Finding.record?_eq_some_iff.mp hfound
  obtain ⟨record', houtcome⟩ := (hisolates ⟨record, hfinding⟩).of_alone World.undisturbed_refl hrun
  rw [Finding.record?_eq_some_iff.mpr houtcome] at hnone
  contradiction

end DirectorySource

end AttrFederation
