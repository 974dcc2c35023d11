import AttrFederation.Proofs.Source.Candidates

/-!
# The class that a query searches

An alias tells the class of the record that it last led to, also when the record has gone, so that a
query for it searches that class.  An id in other letters than its alias is looked for in the cache
in lower case as well, but a query looks up the class under the id as it is.

* `DirectorySource.mem_searches_iff` — the searches of a query for a class, one by one;
* `DirectorySource.queryIdentity_searches` — the class is that of the id as it is.  So an id that is
  known for a group in lower case only is searched for among the principals;
* `DirectorySource.not_searches_group_with_capital` — a team whose record has gone.
-/

namespace AttrFederation

/-- The class known of an id, as it is or in lower case. -/
def AliasIndex.knownKind? (index : AliasIndex) (id : String) : Option ObjectKind :=
  (index.kindOf? id).or (index.kindOf? (Text.lowercase id))

/-- Only a search without entries finds that there is nothing. -/
theorem DirectoryProfile.findingOf_eq_none_iff {p : DirectoryProfile} {c : ObjectClass}
    {kind : ObjectKind} {result : Except SourceError (List Entry)} :
    p.findingOf c kind result = .ok none ↔ result = .ok [] := by
  rcases result with e | (_ | ⟨e, entries⟩)
  · simp [findingOf]
  · simp [findingOf]
  · rw [findingOf]
    cases Normalized.ofEntry p.name c kind e <;> simp [Except.map]

namespace DirectorySource

variable {δ : Type}

/-! ## The searches of a query -/

/-- The searches that a query for an id makes in a class, in order. -/
def searches (d : DirectorySource δ) (answer : DirectoryAnswer) (kind : ObjectKind)
    (id attributeName : String) : List DomainSearch :=
  (Finding.askedUntil (fun q => q.finding kind id answer)
    (d.catalog.providersOf attributeName kind)).flatMap fun q => q.searches kind id answer

/-- An id is to be looked for in a class under a base of a candidate that has the class and is
reached, if the candidates before it have nothing and the bases before that one have nothing. -/
structure DueUnder (d : DirectorySource δ) (answer : DirectoryAnswer) (kind : ObjectKind)
    (id attributeName : String) (p : DirectoryProfile) (c : ObjectClass) (base : String) : Prop where
  objectClass : p.objectClass? kind = some c
  candidate : ∃ before after, d.catalog.providersOf attributeName kind = before ++ p :: after ∧
    ∀ q ∈ before, q.finding kind id answer = .ok none
  reached : ∃ found, answer p.connectionSettings = .ok found ∧
    ∃ before after, c.searchBases = before ++ base :: after ∧
      ∀ other ∈ before, found (p.identitySearch c other id) = .ok []

/-- The search is one that looks for an id where it is to be looked for. -/
def Due (d : DirectorySource δ) (answer : DirectoryAnswer) (kind : ObjectKind)
    (id attributeName : String) (s : DomainSearch) : Prop :=
  ∃ p c base, d.DueUnder answer kind id attributeName p c base ∧
    s = (p.connectionSettings, p.identitySearch c base id)

/-- **The searches made** are those that are due. -/
theorem mem_searches_iff {d : DirectorySource δ} {answer : DirectoryAnswer} {kind : ObjectKind}
    {id attributeName : String} {s : DomainSearch} :
    s ∈ d.searches answer kind id attributeName ↔ d.Due answer kind id attributeName s := by
  rw [searches, List.mem_flatMap]
  constructor
  · rintro ⟨p, hp, hs⟩
    unfold DirectoryProfile.searches at hs
    cases hclass : p.objectClass? kind with
    | none => simp [hclass] at hs
    | some c =>
        cases hreached : answer p.connectionSettings with
        | error e => simp [hclass, hreached] at hs
        | ok found =>
            simp only [hclass, hreached, DirectoryProfile.searchesUnder, List.mem_map] at hs
            obtain ⟨base, hbase, rfl⟩ := hs
            obtain ⟨before, after, hbases, hnone⟩ := Finding.mem_askedUntil_iff.mp hbase
            exact ⟨p, c, base, ⟨hclass, Finding.mem_askedUntil_iff.mp hp, found, hreached, before,
              after, hbases, fun other hother =>
                DirectoryProfile.findingOf_eq_none_iff.mp (hnone other hother)⟩, rfl⟩
  · rintro ⟨p, c, base, ⟨hclass, hp, found, hreached, before, after, hbases, hnone⟩, rfl⟩
    refine ⟨p, Finding.mem_askedUntil_iff.mpr hp, ?_⟩
    simp only [DirectoryProfile.searches, hclass, hreached, DirectoryProfile.searchesUnder]
    refine List.mem_map.mpr ⟨base, Finding.mem_askedUntil_iff.mpr ⟨before, after, hbases, ?_⟩, rfl⟩
    exact fun other hother => DirectoryProfile.findingOf_eq_none_iff.mpr (hnone other hother)

/-- **The class that a query searches** is the one known of the id as it is, and principals if none
is.  Whatever the directory answers, and whether or not there is a record, the searches made are
those that are due in that class.  So if an id is known for a group, as it is or in lower case, then
the searches made are those that are due among the groups exactly if the id is known for a group as
it is, or if the same ones are due among the principals. -/
theorem queryIdentity_searches {d : DirectorySource δ} {Inv : List DomainSearch → δ → Prop}
    {answer : DirectoryAnswer} (hlogs : d.client.Logs Inv answer) {w : World δ}
    {log : List DomainSearch} (hw : Inv log w.sources) (id attributeName : String) :
    let index := w.cache.aliases
    (d.queryIdentity id attributeName).Achieves World.Undisturbed w fun _ w' =>
      ∃ made, Inv (log ++ made) w'.sources ∧
        (∀ s, s ∈ made ↔
          d.Due answer ((index.kindOf? id).getD .principal) id attributeName s) ∧
        (index.knownKind? id = some .group →
          ((∀ s, s ∈ made ↔ d.Due answer .group id attributeName s) ↔
            index.kindOf? id = some .group ∨ ∀ s,
              d.Due answer .principal id attributeName s ↔
                d.Due answer .group id attributeName s)) := by
  intro index w₁ hw₁
  have hindex : w₁.cache.aliases = index := congrArg Cache.aliases hw₁.1
  refine (queryDomains_logs hlogs _ id log _ (hw₁.2.1 ▸ hw)).mono ?_
  rintro outcome w' ⟨-, -, hinv⟩
  dsimp only at hinv
  rw [hindex] at hinv
  refine ⟨d.searches answer _ id attributeName, hinv, fun s => mem_searches_iff, fun hknown => ?_⟩
  simp only [mem_searches_iff]
  cases hkind : index.kindOf? id with
  | none =>
      -- known in lower case only, so the principals are searched
      simp
  | some kind =>
      rw [AliasIndex.knownKind?, hkind, Option.some_or] at hknown
      simp [Option.some.inj hknown]

/-! ## A team whose record has gone -/

/-- A directory that answers as given and keeps the searches made. -/
def recording (answer : DirectoryAnswer) : DirectoryClient (World (List DomainSearch)) where
  connect settings := .done <| (answer settings).map fun found =>
    { searchPage := fun _ => .done (.ok {})
      search := fun request => .modifyGet fun w =>
        (found request, { w with sources := w.sources ++ [(settings, request)] })
      close := .done (.ok ()) }

theorem recording_logs (answer : DirectoryAnswer) :
    (recording answer).Logs (fun log kept => kept = log) answer := by
  rintro settings log w rfl
  cases hreached : answer settings with
  | error e => simp [recording, hreached, Except.map, Activity.Achieves]
  | ok found =>
      simp only [recording, hreached, Except.map, Activity.Achieves, and_true]
      refine ⟨found, rfl, ?_, fun log w hw => ⟨trivial, rfl, hw⟩⟩
      rintro request log w rfl w₁ hw₁
      exact ⟨rfl, hw₁.1, congrArg (· ++ [(settings, request)]) hw₁.2.1⟩

end DirectorySource

namespace Office

/-- A directory that can be reached and has nobody. -/
def nobody : DirectoryAnswer := fun _ => .ok fun _ => .ok []

/-- A branch of the office without people or teams. -/
def deserted : DirectorySource (List DomainSearch) where
  client := DirectorySource.recording nobody
  catalog := .ofProfiles [branch "NORTH"]
  pageSize := 2
  retry := {}
  refreshEnabled := true

/-- The night team. -/
def night : Normalized where
  record := { domain := "NORTH", id := "NORTH#night", kind := .group }
  aliases := ["night"]

/-- The record of the team was stored and has been removed. -/
def stateWithoutNight : World (List DomainSearch) where
  cache := ((night.storeIn .group 0 (.ofSettings {})).removePrincipal "night").2
  sources := []

end Office

open Office in
/-- Under its alias the team is looked for among the teams. -/
theorem DirectorySource.queryIdentity_searches_of_night :
    stateWithoutNight.cache.aliases.knownKind? "night" = some .group ∧
      (deserted.queryIdentity "night" "mail").Achieves World.Undisturbed stateWithoutNight
        fun _ w' => ∀ s, s ∈ w'.sources ↔ deserted.Due nobody .group "night" "mail" s := by
  have hknown : stateWithoutNight.cache.aliases.knownKind? "night" = some .group := by
    decide +kernel
  have hexact : stateWithoutNight.cache.aliases.kindOf? "night" = some .group := by decide +kernel
  have hnone : (fun log kept => kept = log) ([] : List DomainSearch) stateWithoutNight.sources := rfl
  refine ⟨hknown, (queryIdentity_searches (recording_logs nobody) hnone "night" "mail").mono ?_⟩
  rintro _ w' ⟨made, hmade, -, hgroup⟩
  rw [List.nil_append] at hmade
  rw [hmade]
  exact (hgroup hknown).mpr (.inl hexact)

open Office in
/-- **The alias with a capital letter** is known in lower case for a team that has no record, and the
branch has teams.  A query for it searches among the people. -/
theorem DirectorySource.not_searches_group_with_capital :
    stateWithoutNight.cache.aliases.knownKind? "Night" = some .group ∧
      (stateWithoutNight.cache.findPrincipal 0 "Night").1 = none ∧
      ((deserted.queryIdentity "Night" "mail").alone stateWithoutNight 0).map
        (fun run => run.2.1.sources.map fun s => s.2.base) = some people.searchBases ∧
      (deserted.searches nobody .group "Night" "mail").map (fun s => s.2.base) =
        teams.searchBases := by
  decide +kernel

end AttrFederation
