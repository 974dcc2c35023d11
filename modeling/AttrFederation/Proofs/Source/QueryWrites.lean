import AttrFederation.Proofs.Directory.RecordContent
import AttrFederation.Proofs.Source.Candidates
import AttrFederation.Proofs.Source.ConfinedDirectory

/-!
# What a query writes

A query for an identity asks the candidate domains one after another, and in each of them base after
base.  The first entry that comes back is the match: `DirectoryConnection.FirstEntry` says how the
bases are gone through until then, and `DirectorySource.FirstMatch` how the domains are.  Neither can
pass over a base or a domain that has an entry.

While nobody else writes to the cache, a query writes what it returns and nothing else
(`DirectorySource.queryIdentity_writes`), whatever the directory answers:

* when it fails or finds nothing, the cache is as it was;
* when it returns a record, that record was put under its identifier, once, and then the names of
  the matched entry were led there.
-/

namespace AttrFederation

variable {δ : Type}

/-! ## What was asked -/

section Bases

variable (connection : DirectoryConnection (World δ)) (p : DirectoryProfile) (c : ObjectClass)
  (id : String)

/-- An identity was looked for under some bases, one after another, and none of them has it. -/
inductive DirectoryConnection.FoundNothing : List String → World δ → World δ → Prop
  | exhausted {w : World δ} : FoundNothing [] w w
  | passed {base : String} {bases : List String} {w w₁ w' : World δ} :
      (connection.search (p.identitySearch c base id)).Ends World.AtRest w (.ok []) w₁ →
      FoundNothing bases w₁ w' → FoundNothing (base :: bases) w w'

/-- An identity was looked for under some bases, one after another, until one of them had it; the
first entry there is this one. -/
inductive DirectoryConnection.FirstEntry (e : Entry) : List String → World δ → World δ → Prop
  | here {base : String} {bases : List String} {entries : List Entry} {w w' : World δ} :
      (connection.search (p.identitySearch c base id)).Ends World.AtRest w (.ok (e :: entries)) w' →
      FirstEntry e (base :: bases) w w'
  | passed {base : String} {bases : List String} {w w₁ w' : World δ} :
      (connection.search (p.identitySearch c base id)).Ends World.AtRest w (.ok []) w₁ →
      FirstEntry e bases w₁ w' → FirstEntry e (base :: bases) w w'

end Bases

namespace DirectorySource

variable (d : DirectorySource δ) (kind : ObjectKind) (id : String)

/-- A domain does not have an identity: it lacks the class, or all of its bases lack the identity. -/
inductive LacksMatch (p : DirectoryProfile) : World δ → World δ → Prop
  | classless {w : World δ} : p.objectClass? kind = none → LacksMatch p w w
  | empty {c : ObjectClass} {connection : DirectoryConnection (World δ)}
      {closed : Except SourceError Unit} {w w₁ w₂ w' : World δ} :
      p.objectClass? kind = some c →
      (d.client.connect p.connectionSettings).Ends World.AtRest w (.ok connection) w₁ →
      connection.FoundNothing p c id c.searchBases w₁ w₂ →
      connection.close.Ends World.AtRest w₂ closed w' → LacksMatch p w w'

/-- An identity was looked for in some domains, one after another, until one of them had it; the
first entry there is this one. -/
inductive FirstMatch (p : DirectoryProfile) (c : ObjectClass) (e : Entry) :
    List DirectoryProfile → World δ → World δ → Prop
  | here {connection : DirectoryConnection (World δ)} {profiles : List DirectoryProfile}
      {w w₁ w' : World δ} :
      p.objectClass? kind = some c →
      (d.client.connect p.connectionSettings).Ends World.AtRest w (.ok connection) w₁ →
      connection.FirstEntry p c id e c.searchBases w₁ w' → FirstMatch p c e (p :: profiles) w w'
  | passed {q : DirectoryProfile} {profiles : List DirectoryProfile} {w w₁ w' : World δ} :
      d.LacksMatch kind id q w w₁ → FirstMatch p c e profiles w₁ w' →
      FirstMatch p c e (q :: profiles) w w'

end DirectorySource

/-! ## What was written -/

/-- The record of an entry was put under its identifier, at an instant in between, and then each text
of a key attribute that the entry has was led to it; nothing else was written. -/
structure World.Wrote (p : DirectoryProfile) (c : ObjectClass) (kind : ObjectKind) (e : Entry)
    (r : Record) (w w' : World δ) : Prop where
  normalized : ∃ n, Normalized.ofEntry p.name c kind e = .ok n ∧ n.record = r
  cache : ∃ now, w.now ≤ now ∧ now ≤ w'.now ∧
    w'.cache = (c.keys.filterMap fun key => key.textIn? e).foldl
      (fun cache name => cache.addAlias name r.id kind) (w.cache.putPrincipal now r)

namespace World.Wrote

variable {p : DirectoryProfile} {c : ObjectClass} {kind : ObjectKind} {e : Entry} {r : Record}
  {w w₁ w' : World δ}

/-- Storing what an entry becomes writes its record and its names. -/
theorem of_storeIn {n : Normalized} (h : Normalized.ofEntry p.name c kind e = .ok n)
    (w : World δ) :
    Wrote p c kind e n.record w (w.onCache (n.storeIn kind w.now)) where
  normalized := ⟨n, h, rfl⟩
  cache := by
    refine ⟨w.now, Nat.le_refl _, Nat.le_refl _, ?_⟩
    rw [← (Normalized.record_aliases_of_ofEntry h).1]
    rfl

theorem after (h : w.AtRest w₁) (hwrote : Wrote p c kind e r w₁ w') : Wrote p c kind e r w w' := by
  obtain ⟨hnormalized, now, hfrom, hto, hcache⟩ := hwrote
  exact ⟨hnormalized, now, Nat.le_trans h.now hfrom, hto, h.cache ▸ hcache⟩

theorem before (hwrote : Wrote p c kind e r w w₁) (h : w₁.AtRest w') : Wrote p c kind e r w w' := by
  obtain ⟨hnormalized, now, hfrom, hto, hcache⟩ := hwrote
  exact ⟨hnormalized, now, hfrom, Nat.le_trans hto h.now, h.cache.trans hcache⟩

end World.Wrote

/-- A part of a query ended: nothing was written unless a record was found, and then just that record
was.  What the part asked for and was answered is `Nothing`, or `Found` with the entry. -/
def World.WritesFound (kind : ObjectKind) (Nothing : World δ → Prop)
    (Found : DirectoryProfile → ObjectClass → Entry → World δ → Prop) (w : World δ)
    (outcome : Except SourceError (Option Record)) (w' : World δ) : Prop :=
  match outcome with
  | .error _ => w.AtRest w'
  | .ok none => w.AtRest w' ∧ Nothing w'
  | .ok (some r) => ∃ p c e w₁, Found p c e w₁ ∧ w.AtRest w₁ ∧ w₁.Wrote p c kind e r w'

namespace World.WritesFound

variable {kind : ObjectKind} {Nothing Nothing' : World δ → Prop}
  {Found Found' : DirectoryProfile → ObjectClass → Entry → World δ → Prop} {w w₁ w' : World δ}
  {outcome : Except SourceError (Option Record)}

/-- What was asked before, without success, belongs to what was asked. -/
theorem after (hrest : w.AtRest w₁) (hnothing : ∀ v, Nothing v → Nothing' v)
    (hfound : ∀ p c e v, Found p c e v → Found' p c e v)
    (h : w₁.WritesFound kind Nothing Found outcome w') :
    w.WritesFound kind Nothing' Found' outcome w' := by
  rcases outcome with e | (_ | r)
  · exact hrest.trans h
  · exact ⟨hrest.trans h.1, hnothing _ h.2⟩
  · obtain ⟨p, c, e, v, hv, hrest', hwrote⟩ := h
    exact ⟨p, c, e, v, hfound p c e v hv, hrest.trans hrest', hwrote⟩

end World.WritesFound

/-! ## Base after base, domain after domain -/

namespace DirectorySource

variable {d : DirectorySource δ} {kind : ObjectKind} {id : String} {w w' : World δ}
  {outcome : Except SourceError (Option Record)}

/-- **Base after base**: the first entry is stored, if there is one and it can be normalized. -/
theorem findUnder_writes {connection : DirectoryConnection (World δ)} {p : DirectoryProfile}
    {c : ObjectClass} (hconnection : connection.Confined) {bases : List String}
    (h : (findUnder connection p c kind id bases).Ends World.AtRest w outcome w') :
    w.WritesFound kind (connection.FoundNothing p c id bases w)
      (fun p' c' e w₁ => p' = p ∧ c' = c ∧ connection.FirstEntry p c id e bases w w₁)
      outcome w' := by
  induction bases generalizing w with
  | nil =>
      obtain ⟨rfl, rfl⟩ := Activity.ends_done.mp h
      exact ⟨.refl w, .exhausted⟩
  | cons base bases ih =>
      rcases Activity.ends_bindOk.mp h with ⟨entries, w₁, hsearch, h⟩ | ⟨e, hsearch, rfl⟩
      · have hrest : w.AtRest w₁ := .of_ends (hconnection.search _) hsearch
        cases entries with
        | nil =>
            refine (ih h).after hrest (fun v hv => .passed hsearch hv) ?_
            rintro p' c' e v ⟨rfl, rfl, hv⟩
            exact ⟨rfl, rfl, .passed hsearch hv⟩
        | cons e entries =>
            -- An entry that cannot be normalized ends the search, and nothing is stored for it.
            dsimp only at h
            split at h
            · obtain ⟨rfl, rfl⟩ := Activity.ends_done.mp h
              exact hrest
            · next n hn =>
                obtain ⟨_, _, hstore, h⟩ := Activity.ends_bind.mp h
                obtain ⟨w₂, hrest₂, rfl⟩ := Activity.ends_modify.mp hstore
                obtain ⟨rfl, rfl⟩ := Activity.ends_done.mp h
                exact ⟨p, c, e, w₁, ⟨rfl, rfl, .here hsearch⟩, hrest,
                  (World.Wrote.of_storeIn hn w₂).after hrest₂⟩
      · exact .of_ends (hconnection.search _) hsearch

variable (hclient : d.client.Confined)

include hclient

/-- **In a domain** the connection is closed afterwards, however it went. -/
theorem queryDomain_writes {p : DirectoryProfile}
    (h : (d.queryDomain p kind id).Ends World.AtRest w outcome w')
    (profiles : List DirectoryProfile) :
    w.WritesFound kind (d.LacksMatch kind id p w)
      (fun p' c e w₁ => d.FirstMatch kind id p' c e (p :: profiles) w w₁) outcome w' := by
  unfold queryDomain at h
  split at h
  · next hclass =>
      obtain ⟨rfl, rfl⟩ := Activity.ends_done.mp h
      exact ⟨.refl w, .classless hclass⟩
  · next c hclass =>
      rcases Activity.ends_bindOk.mp h with ⟨connection, w₁, hconnect, h⟩ | ⟨e, hconnect, rfl⟩
      · have hconnection : connection.Confined :=
          hconnect.of_returns (hclient.connection _) connection rfl
        obtain ⟨found, w₂, hfind, h⟩ := Activity.ends_bind.mp h
        obtain ⟨closed, w₃, hclose, h⟩ := Activity.ends_bind.mp h
        obtain ⟨rfl, rfl⟩ := Activity.ends_done.mp h
        have hconnected : w.AtRest w₁ := .of_ends (hclient.connect _) hconnect
        have hclosed : w₂.AtRest w₃ := .of_ends hconnection.close hclose
        have hwrites := findUnder_writes hconnection hfind
        -- What was found under the bases stands, however closing the connection turned out.
        rcases found with e | (_ | r)
        · exact (hconnected.trans hwrites).trans hclosed
        · exact ⟨(hconnected.trans hwrites.1).trans hclosed,
            .empty hclass hconnect hwrites.2 hclose⟩
        · obtain ⟨p, c, e, v, ⟨rfl, rfl, hfirst⟩, hrest, hwrote⟩ := hwrites
          exact ⟨p, c, e, v, .here hclass hconnect hfirst, hconnected.trans hrest,
            hwrote.before hclosed⟩
      · exact .of_ends (hclient.connect _) hconnect

/-- **Domain after domain** until there is a record or a failure. -/
theorem queryDomains_writes {profiles : List DirectoryProfile}
    (h : (d.queryDomains kind id profiles).Ends World.AtRest w outcome w') :
    w.WritesFound kind (fun _ => True)
      (fun p c e w₁ => d.FirstMatch kind id p c e profiles w w₁) outcome w' := by
  induction profiles generalizing w with
  | nil =>
      obtain ⟨rfl, rfl⟩ := Activity.ends_done.mp h
      exact ⟨.refl w, trivial⟩
  | cons q profiles ih =>
      rcases Activity.ends_bindOk.mp h with ⟨found, w₁, hquery, h⟩ | ⟨e, hquery, rfl⟩
      · have hwrites := queryDomain_writes hclient hquery profiles
        cases found with
        | none =>
            exact (ih h).after hwrites.1 (fun _ _ => trivial) fun p c e v hv => .passed hwrites.2 hv
        | some r =>
            obtain ⟨rfl, rfl⟩ := Activity.ends_done.mp h
            exact hwrites
      · exact queryDomain_writes hclient hquery profiles

/-- **A query writes what it returns.**  Whatever the directory answers, and while nobody else writes
to the cache:

* a query that fails or finds nothing leaves the cache as it was;
* one that returns a record has put that record under its identifier, once, and then led the names of
  an entry there, with the class that was looked for.  The entry is the first one of the first base
  that has one, in the first candidate that has one, and the record is what it was normalized to. -/
theorem queryIdentity_writes {attributeName : String}
    (h : (d.queryIdentity id attributeName).Ends World.AtRest w outcome w') :
    match outcome with
    | .error _ | .ok none => w'.cache = w.cache
    | .ok (some r) =>
      let kind := (w.cache.aliases.kindOf? id).getD .principal
      ∃ p c e w₀ w₁, w.AtRest w₀ ∧
        d.FirstMatch kind id p c e (d.catalog.providersOf attributeName kind) w₀ w₁ ∧
        w.AtRest w₁ ∧ w₁.Wrote p c kind e r w' := by
  obtain ⟨kind, w₀, hread, h⟩ := Activity.ends_bind.mp h
  obtain ⟨hrest, rfl⟩ := Activity.ends_read.mp hread
  rw [hrest.cache] at h
  have hwrites := queryDomains_writes hclient h
  rcases outcome with e | (_ | r)
  · exact (hrest.trans hwrites).cache
  · exact (hrest.trans hwrites.1).cache
  · obtain ⟨p, c, e, w₁, hfirst, hrest', hwrote⟩ := hwrites
    exact ⟨p, c, e, w₀, w₁, hrest, hfirst, hrest.trans hrest', hwrote⟩

end DirectorySource

namespace Office

/-- Nobody is in the north, and in the south there is one guest. -/
def stateWithSue : World MemoryDirectory :=
  { state with sources := MemoryDirectory.addEntry {} "SOUTH" "ou=guests" (person "sue") }

end Office

open Office in
/-- The north is asked first and has nobody; then sue's record and her name are written from the
south. -/
theorem DirectorySource.queryIdentity_writes_sue :
    ∃ r w', ((source ["NORTH", "SOUTH"]).queryIdentity "sue" "mail").Ends World.AtRest
        stateWithSue (.ok (some r)) w' ∧
      r.id = "SOUTH#sue" ∧ w'.cache.contents = ["principal: SOUTH#sue", "alias: sue -> SOUTH#sue"] ∧
      ∃ p c e w₀ w₁, stateWithSue.AtRest w₀ ∧
        (source ["NORTH", "SOUTH"]).FirstMatch .principal "sue" p c e
          ((source ["NORTH", "SOUTH"]).catalog.providersOf "mail" .principal) w₀ w₁ ∧
        stateWithSue.AtRest w₁ ∧ w₁.Wrote p c .principal e r w' := by
  have hclient : (source ["NORTH", "SOUTH"]).client.Confined :=
    MemoryDirectory.confined_client .whole
  have hrun : (((source ["NORTH", "SOUTH"]).queryIdentity "sue" "mail").alone stateWithSue 0).map
      (fun run => ((Finding.record? run.1).map Record.id, run.2.1.cache.contents)) =
      some (some "SOUTH#sue", ["principal: SOUTH#sue", "alias: sue -> SOUTH#sue"]) := by
    decide +kernel
  obtain ⟨⟨outcome, w', time⟩, hrun, hresult⟩ := Option.map_eq_some_iff.mp hrun
  obtain ⟨hfound, hcontents⟩ := Prod.mk.inj hresult
  obtain ⟨r, hr, hid⟩ := Option.map_eq_some_iff.mp hfound
  obtain rfl := Finding.record?_eq_some_iff.mp hr
  have hends := Activity.ends_of_alone World.AtRest.refl hrun
  exact ⟨r, w', hends, hid, hcontents, queryIdentity_writes hclient hends⟩

end AttrFederation
