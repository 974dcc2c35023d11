import AttrFederation.Proofs.Activity.Ends
import AttrFederation.Proofs.Source.Confined
import AttrFederation.Source.Directory

/-!
# What the directory pipeline changes

The client of a directory is confined if it changes nothing but what the sources keep for
themselves, and so do the connections that it opens; the directories in memory are.  All else that
reading the directory changes is then in the pipeline: entries are stored, and a refresh also moves
the lock and the flag.  So the calls of a confined client leave a cache alone that nobody else writes
(`World.AtRest.of_ends`).
-/

namespace AttrFederation

variable {δ : Type}

/-- A connection that changes nothing but what the sources keep. -/
structure DirectoryConnection.Confined (connection : DirectoryConnection (World δ)) : Prop where
  searchPage : ∀ request, (connection.searchPage request).Keeps World.SameButSources
  search : ∀ request, (connection.search request).Keeps World.SameButSources
  close : connection.close.Keeps World.SameButSources

/-- A client that changes nothing but what the sources keep, like the connections it opens. -/
structure DirectoryClient.Confined (client : DirectoryClient (World δ)) : Prop where
  connect : ∀ settings, (client.connect settings).Keeps World.SameButSources
  connection : ∀ settings, (client.connect settings).Returns fun outcome =>
    ∀ connection, outcome = .ok connection → connection.Confined

section BindOk

variable {σ ε α β : Type} {x : Activity σ (Except ε α)} {f : α → Activity σ (Except ε β)}

/-- After success the second activity follows; a failure changes nothing more. -/
theorem Activity.Keeps.bindOk {R : σ → σ → Prop} (hx : x.Keeps R) (hf : ∀ a, (f a).Keeps R) :
    (x.bindOk f).Keeps R := by
  refine hx.bind fun outcome => ?_
  cases outcome with
  | ok a => exact hf a
  | error e => trivial

/-- An end is one of the second activity after success, or a failure of the first. -/
theorem Activity.ends_bindOk {R : σ → σ → Prop} {s t : σ} {outcome : Except ε β} :
    (x.bindOk f).Ends R s outcome t ↔
      (∃ a u, x.Ends R s (.ok a) u ∧ (f a).Ends R u outcome t) ∨
        ∃ e, x.Ends R s (.error e) t ∧ outcome = .error e := by
  refine ends_bind.trans ⟨?_, ?_⟩
  · rintro ⟨e | a, u, hx, hf⟩
    · obtain ⟨rfl, rfl⟩ := ends_done.mp hf
      exact .inr ⟨e, hx, rfl⟩
    · exact .inl ⟨a, u, hx, hf⟩
  · rintro (⟨a, u, hx, hf⟩ | ⟨e, hx, rfl⟩)
    · exact ⟨.ok a, u, hx, hf⟩
    · exact ⟨.error e, t, hx, rfl, rfl⟩

/-- What holds of every failure and of what the second activity ends with holds of every result. -/
theorem Activity.returns_bindOk {Q : Except ε β → Prop} (herror : ∀ e, Q (.error e))
    (hf : ∀ a, (f a).Returns Q) : (x.bindOk f).Returns Q := by
  unfold Activity.bindOk
  induction x with
  | done outcome =>
      cases outcome with
      | ok a => exact hf a
      | error e => exact herror e
  | step change next ih => exact fun s => ih s
  | sleep _ _ _ ih | await _ _ _ ih => exact ih

end BindOk

/-! ## A cache that nobody else writes -/

/-- Whatever else happens, the cache stays as it is; its clock may go on. -/
structure World.AtRest (w w' : World δ) : Prop where
  cache : w'.cache = w.cache
  now : w.now ≤ w'.now

namespace World.AtRest

variable {w w₁ w' : World δ}

theorem refl (w : World δ) : w.AtRest w := ⟨rfl, Nat.le_refl _⟩

theorem trans (h : w.AtRest w₁) (h' : w₁.AtRest w') : w.AtRest w' :=
  ⟨h'.cache.trans h.cache, Nat.le_trans h.now h'.now⟩

theorem of_sameButSources (w w' : World δ) (h : w.SameButSources w') : w.AtRest w' := by
  rw [h]
  exact ⟨rfl, Nat.le_refl _⟩

/-- What changes nothing but what the sources keep leaves the cache alone. -/
theorem of_ends {α : Type} {x : Activity (World δ) α} (hx : x.Keeps World.SameButSources) {a : α}
    (h : x.Ends World.AtRest w a w') : w.AtRest w' :=
  h.keeps refl trans (fun _ _ => id) (hx.mono of_sameButSources)

end World.AtRest

theorem MemoryDirectory.confined_connection (field : Field δ MemoryDirectory) (name : String) :
    (connection (World.sourcesField.comp field) name).Confined where
  searchPage _ := Activity.keeps_modifyGet fun _ => rfl
  search _ := Activity.keeps_modifyGet fun _ => rfl
  close := trivial

theorem MemoryDirectory.confined_client (field : Field δ MemoryDirectory) :
    (client (World.sourcesField.comp field)).Confined where
  connect settings :=
    Activity.Keeps.bindOk (Activity.keeps_modifyGet fun _ => rfl) fun _ => trivial
  connection settings := by
    refine Activity.returns_bindOk (fun e connection h => by contradiction) ?_
    rintro _ _ ⟨rfl⟩
    exact confined_connection field settings.domain

theorem ReplayDirectory.confined_client (field : Field δ ReplayDirectory) :
    (client (World.sourcesField.comp field)).Confined where
  connect settings :=
    Activity.Keeps.bindOk (Activity.keeps_modifyGet fun _ => rfl) fun _ => trivial
  connection settings := by
    refine Activity.returns_bindOk (fun e connection h => by contradiction) ?_
    rintro _ _ ⟨rfl⟩
    exact ⟨fun _ => Activity.keeps_modifyGet fun _ => rfl,
      fun _ => Activity.keeps_modifyGet fun _ => rfl, Activity.keeps_modifyGet fun _ => rfl⟩

namespace DirectorySource

variable {R : World δ → World δ → Prop} {d : DirectorySource δ}

section Reading

variable (hsources : ∀ w w' : World δ, w.SameButSources w' → R w w')

include hsources

/-- With a confined client, what follows a connection may assume that the connection is confined. -/
theorem keeps_connect (hclient : d.client.Confined) (settings : ConnectionSettings) {α : Type}
    {f : DirectoryConnection (World δ) → Activity (World δ) (Except SourceError α)}
    (hf : ∀ connection, connection.Confined → (f connection).Keeps R) :
    ((d.client.connect settings).bindOk f).Keeps R := by
  refine ((hclient.connect settings).mono hsources).bind_of_returns (hclient.connection settings)
    fun outcome houtcome => ?_
  cases outcome with
  | ok connection => exact hf connection (houtcome connection rfl)
  | error e => trivial

section Connected

variable {connection : DirectoryConnection (World δ)} (hconnection : connection.Confined)

include hconnection

/-! ## Enumerating -/

section Enumerating

variable (hstore : ∀ (profile : DirectoryProfile) c kind counts page (w : World δ),
  R w (absorbPage profile c kind counts page w).2)

include hstore

theorem keeps_readPages (profile : DirectoryProfile) (c : ObjectClass) (kind : ObjectKind)
    (pageSize : UInt32) (base : String) (pages : Nat) (cookie : Option (List UInt8))
    (counts : EntryCounts) :
    (readPages connection profile c kind pageSize base pages cookie counts).Keeps R := by
  induction pages generalizing cookie counts with
  | zero => trivial
  | succ pages ih =>
      refine ((hconnection.searchPage _).mono hsources).bindOk fun page => ?_
      refine Activity.Keeps.bind (Activity.keeps_modifyGet fun w => hstore ..) fun counts => ?_
      split
      · exact ih page.cookie counts
      · trivial

theorem keeps_readBases (profile : DirectoryProfile) (c : ObjectClass) (kind : ObjectKind)
    (pageSize : UInt32) (bases : List String) (counts : EntryCounts) :
    (readBases connection profile c kind pageSize bases counts).Keeps R := by
  induction bases generalizing counts with
  | nil => trivial
  | cons base bases ih =>
      exact (keeps_readPages hsources hconnection hstore ..).bindOk fun counts => ih counts

theorem keeps_enumerateDomain (profile : DirectoryProfile) :
    (d.enumerateDomain connection profile).Keeps R := by
  have henumerate : ∀ kind, (d.enumerate connection profile kind).Keeps R := by
    intro kind
    unfold enumerate
    split
    · trivial
    · exact keeps_readBases hsources hconnection hstore ..
  exact (henumerate _).bindOk fun _ => (henumerate _).bindOk fun _ => trivial

end Enumerating

/-! ## Looking for an identity -/

theorem keeps_findUnder (hstore : ∀ (n : Normalized) kind (w : World δ),
      R w (w.onCache (n.storeIn kind w.now)))
    (profile : DirectoryProfile) (c : ObjectClass) (kind : ObjectKind) (id : String)
    (bases : List String) : (findUnder connection profile c kind id bases).Keeps R := by
  induction bases with
  | nil => trivial
  | cons base bases ih =>
      refine ((hconnection.search _).mono hsources).bindOk fun entries => ?_
      cases entries with
      | nil => exact ih
      | cons e entries =>
          dsimp only
          split
          · trivial
          · exact Activity.Keeps.bind (Activity.keeps_modify (hstore _ _)) fun _ => trivial

end Connected

variable (hclient : d.client.Confined)

include hclient

/-- **A query for an identity** stores an entry at most. -/
theorem keeps_queryIdentity (hrefl : ∀ w, R w w)
    (hstore : ∀ (n : Normalized) kind (w : World δ), R w (w.onCache (n.storeIn kind w.now)))
    (id attributeName : String) : (d.queryIdentity id attributeName).Keeps R := by
  have hdomain : ∀ profile kind, (d.queryDomain profile kind id).Keeps R := by
    intro profile kind
    unfold queryDomain
    split
    · trivial
    · refine keeps_connect hsources hclient _ fun connection hconnection => ?_
      refine (keeps_findUnder hsources hconnection hstore ..).bind fun found => ?_
      exact (hconnection.close.mono hsources).bind fun _ => trivial
  have hdomains : ∀ kind profiles, (d.queryDomains kind id profiles).Keeps R := by
    intro kind profiles
    induction profiles with
    | nil => trivial
    | cons profile profiles ih =>
        refine (hdomain profile kind).bindOk fun found => ?_
        cases found with
        | some record => trivial
        | none => exact ih
  exact Activity.Keeps.bind (fun w => ⟨hrefl w, trivial⟩) fun kind => hdomains kind _

/-- **A refresh** stores pages of entries and moves the lock and the flag. -/
theorem keeps_refreshAll (htrans : ∀ a b c, R a b → R b c → R a c)
    (hstore : ∀ (profile : DirectoryProfile) c kind counts page (w : World δ),
      R w (absorbPage profile c kind counts page w).2)
    (hlock : ∀ f w, R w (World.directoryLockField.modify f w))
    (hraise : ∀ w, R w (Gate.raise World.directoryFlag id w))
    (hlower : ∀ w, R w (World.directoryFlag.set false w)) : d.refreshAll.Keeps R := by
  have hdomain : ∀ profile, (d.refreshDomain profile).Keeps R := by
    intro profile
    refine keeps_connect hsources hclient _ fun connection hconnection => ?_
    refine (keeps_enumerateDomain hsources hconnection hstore profile).bind fun result => ?_
    exact (hconnection.close.mono hsources).bind fun _ => trivial
  have hdomains : ∀ profiles summary, (d.refreshDomains profiles summary).Keeps R := by
    intro profiles
    induction profiles with
    | nil => exact fun _ => trivial
    | cons profile profiles ih =>
        intro summary
        exact (d.retry.keeps_execute (fun w => hsources w w rfl) (hdomain profile)).bind
          fun outcome => ih _
  unfold refreshAll
  split
  · exact Lock.keeps_holding htrans hlock fun w =>
      ⟨hraise w, (hdomains _ _).guarded htrans hlower⟩
  · trivial

end Reading

end DirectorySource

end AttrFederation
