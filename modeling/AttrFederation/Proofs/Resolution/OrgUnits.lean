import AttrFederation.Proofs.Region.Operations
import AttrFederation.Proofs.Source.Enumeration
import AttrFederation.Resolution

/-!
# The value of a record

What a resolver says about a record depends on the record, the org units in the cache and the
answers of the backend, and on time only as far as org units expire (`valueOf`,
`resolveFor_answers`).  While none of them does, two caches with the same org units lead to the same
value (`valueOf_congr`).
-/

namespace AttrFederation

/-! ## While nothing expires -/

section Steady

variable {V : Type} {during : Nat → Prop}

/-- At some instants the same entries are too old. -/
def Region.Steady (during : Nat → Prop) (r : Region V) : Prop :=
  ∀ key slot, r.slots.get? key = some slot → ∀ i j, during i → during j →
    r.expired i slot.cachedAt = r.expired j slot.cachedAt

namespace Region.Steady

variable {r : Region V} {i j : Nat}

theorem get_eq (h : r.Steady during) (hi : during i) (hj : during j) (key : String) :
    r.get i key = r.get j key := by
  cases hslot : r.slots.get? key with
  | none => rw [get_of_absent i hslot, get_of_absent j hslot]
  | some slot => rw [get, get, hslot]; dsimp only; rw [h key slot hslot i j hi hj]

/-- Reading leaves it so. -/
theorem get (h : r.Steady during) (now : Nat) (key : String) : (r.get now key).2.Steady during := by
  intro other slot hslot i j hi hj
  have hkept : r.slots.get? other = some slot := by
    rcases get?_get r now key other with hsame | ⟨-, hnone, -⟩
    · rwa [← hsame]
    · rw [hnone] at hslot
      contradiction
  simpa only [expired, settings_get] using h other slot hkept i j hi hj

end Region.Steady

/-- At a single instant it is so. -/
theorem Region.steady_of_instant (r : Region V) (i : Nat) : r.Steady (· = i) := by
  rintro key slot - _ _ rfl rfl
  rfl

namespace Cache

/-- At some instants the same org units are too old. -/
def Steady (during : Nat → Prop) (c : Cache) : Prop :=
  ∀ region, c.orgUnits = some region → region.Steady during

variable {c c' : Cache} {i j : Nat}

/-- Two caches with the same org units, none of which expires. -/
def SameUnits (during : Nat → Prop) (c c' : Cache) : Prop :=
  c'.orgUnits = c.orgUnits ∧ c.Steady during

namespace SameUnits

variable (hi : during i) (hj : during j)

include hi hj

theorem getOrgUnit (h : SameUnits during c c') (id : String) :
    (c'.getOrgUnit j id).1 = (c.getOrgUnit i id).1 ∧
      SameUnits during (c.getOrgUnit i id).2 (c'.getOrgUnit j id).2 := by
  obtain ⟨hsame, hsteady⟩ := h
  unfold Cache.getOrgUnit
  rw [hsame]
  cases hunits : c.orgUnits with
  | none => exact ⟨rfl, hsame, hsteady⟩
  | some region =>
      have hregion := hsteady region hunits
      dsimp only
      rw [hregion.get_eq hj hi]
      refine ⟨rfl, rfl, fun other hother => ?_⟩
      obtain rfl := Option.some.inj hother
      exact hregion.get i id

theorem findOrgUnit (h : SameUnits during c c') (id : String) :
    (c'.findOrgUnit j id).1 = (c.findOrgUnit i id).1 ∧
      SameUnits during (c.findOrgUnit i id).2 (c'.findOrgUnit j id).2 := by
  obtain ⟨hfound, hsame⟩ := h.getOrgUnit hi hj id
  unfold Cache.findOrgUnit
  revert hfound hsame
  generalize c.getOrgUnit i id = first, c'.getOrgUnit j id = first'
  obtain ⟨found, d⟩ := first
  obtain ⟨found', d'⟩ := first'
  rintro ⟨rfl⟩ hsame
  cases found with
  | some unit => exact ⟨rfl, hsame⟩
  | none => exact hsame.getOrgUnit hi hj _

/-- **Collecting** finds the same, at any of the instants. -/
theorem collect (h : SameUnits during c c') (attributeName : String) (ids : List String) :
    (CachedValues.collect attributeName j ids c').1 = (CachedValues.collect attributeName i ids c).1
      := by
  induction ids generalizing c c' with
  | nil => rfl
  | cons id ids ih =>
      obtain ⟨hfound, hsame⟩ := h.findOrgUnit hi hj id
      simp only [CachedValues.collect, hfound, ih hsame]
      split <;> rfl

end SameUnits

end Cache

end Steady

/-! ## Backends that answer -/

/-- The answer of a backend to a call. -/
abbrev BackendAnswer :=
  (serverPrefix function : String) → BackendImports → Except SourceError BackendResponse

/-- While what the sources keep is as `Inv` says, each call is answered in the same way. -/
def BackendClient.Answers {δ : Type} (client : BackendClient (World δ)) (Inv : δ → Prop)
    (answer : BackendAnswer) : Prop :=
  ∀ serverPrefix function imports, (client.invoke serverPrefix function imports).Responds Inv
    fun outcome => outcome = answer serverPrefix function imports

/-- What a source makes of the answer to a request. -/
def BackendSource.reply {δ : Type} (b : BackendSource δ) (answer : BackendAnswer)
    (request : BackendRequest) : Except SourceError BackendResponse :=
  match b.profile with
  | none => .ok .empty
  | some profile =>
    match answer profile.serverPrefix profile.handler request.imports with
    | .ok response => .ok response
    | .error e => if e.namesUnknown then .ok .empty else .error e

/-- The org units that the backend knows of some ids. -/
def BackendSource.unitsOf {δ : Type} (b : BackendSource δ) (answer : BackendAnswer)
    (ids : List String) : List OrgUnit :=
  if ids.isEmpty then []
  else
    match b.reply answer (.only ids) with
    | .error _ => []
    | .ok response => (Batch.ofResponse response ids).records

/-! ## The value of a record -/

namespace Resolver

variable {δ : Type} (r : Resolver δ) (answer : BackendAnswer)

/-- The values of org units, if there are any. -/
def ofTexts? (texts : List String) : Option AttributeValue :=
  if texts.isEmpty then none else some (.multi texts)

/-- The values that org units supply for an attribute, from the cache at an instant and from the
backend. -/
def composed (ids : List String) (attributeName : String) (now : Nat) (c : Cache) :
    Option AttributeValue :=
  let cached := (CachedValues.collect attributeName now ids c).1
  let values := cached.values ++
    (r.backend.unitsOf answer cached.misses).flatMap fun unit => unit.supply attributeName
  if values.isEmpty then none else some (.multi values)

/-- The value of an attribute for a record, if there is one. -/
def valueOf (record : Record) (attributeName : String) (now : Nat) (c : Cache) :
    Option AttributeValue :=
  match r.routes.route record.domain record.kind attributeName with
  | .directory => readRecord record attributeName
  | .unknown => none
  | .backend =>
    (r.orgUnitIds record).bind fun ids => r.composed answer ids attributeName now c

/-- **Only the org units count**: with the same ones, none of which expires, the value is the
same. -/
theorem valueOf_congr {during : Nat → Prop} {c c' : Cache} {i j : Nat}
    (h : c.SameUnits during c') (hi : during i) (hj : during j) (record : Record)
    (attributeName : String) :
    r.valueOf answer record attributeName j c' = r.valueOf answer record attributeName i c := by
  simp only [valueOf, composed, h.collect hi hj]

end Resolver

/-! ## Resolving for a record -/

/-- Nothing else touches the cache and the sources, and it is one of some instants. -/
def World.Resting {δ : Type} (during : Nat → Prop) (w w' : World δ) : Prop :=
  w.Undisturbed w' ∧ during w'.now

theorem World.Resting.trans {δ : Type} {during : Nat → Prop} {w₁ w₂ w₃ : World δ}
    (h : w₁.Resting during w₂) (h' : w₂.Resting during w₃) : w₁.Resting during w₃ :=
  ⟨⟨h'.1.1.trans h.1.1, h'.1.2.1.trans h.1.2.1, h'.1.2.2.trans h.1.2.2⟩, h'.2⟩

section Answers

variable {δ : Type} {during : Nat → Prop} {Inv : δ → Prop} {answer : BackendAnswer} {w : World δ}

/-- A call to the sources responds while everything rests. -/
theorem Activity.Responds.resting {α : Type} {x : Activity (World δ) α} {P : α → Prop}
    (h : x.Responds Inv P) (hw : Inv w.sources) :
    x.Achieves (World.Resting during) w fun a w' =>
      P a ∧ w'.cache = w.cache ∧ Inv w'.sources :=
  (h w hw).of_le fun _ _ hrest => hrest.1

namespace Resolver

variable {r : Resolver δ} {attributeName : String} {P : Option AttributeValue → World δ → Prop}

/-- **Composing** reads the cache once and then fetches what it missed. -/
theorem compose_achieves {ids : List String}
    (hfetch : ∀ w₁, w.Resting during w₁ →
      let (cached, w₂) := w₁.withCache (CachedValues.collect attributeName w₁.now ids)
      (r.fetch cached.misses).Achieves (World.Resting during) w₂ fun units w₃ =>
        P (ofTexts? (cached.values ++ units.flatMap fun unit => unit.supply attributeName)) w₃) :
    (r.compose ids attributeName).Achieves (World.Resting during) w P :=
  Activity.achieves_bind.mpr (Gate.achieves_readWhenIdle (fun h h' => h.trans h')
    fun w₁ hw₁ => Activity.achieves_bind.mpr (hfetch w₁ hw₁))

/-- An attribute that comes from the backend is composed from the org units of the record. -/
theorem resolveFor_achieves {record : Record}
    (hroute : r.routes.route record.domain record.kind attributeName = .backend)
    (hnone : r.orgUnitIds record = none → ∀ w₁ : World δ, w₁.cache = w.cache →
      w₁.sources = w.sources → during w₁.now → P none w₁)
    (hsome : ∀ ids, r.orgUnitIds record = some ids → ∀ w₁ : World δ, w₁.cache = w.cache →
      w₁.sources = w.sources → (r.compose ids attributeName).Achieves (World.Resting during) w₁ P) :
    (r.resolveFor record attributeName).Achieves (World.Resting during) w fun result w' =>
      P result.2 w' := by
  unfold resolveFor
  rw [hroute]
  refine Activity.achieves_bind.mpr fun w₁ hw₁ => ?_
  obtain ⟨hcache, hsources, hnow⟩ : (noteRefresh w₁).cache = w.cache ∧
      (noteRefresh w₁).sources = w.sources ∧ during (noteRefresh w₁).now := by
    unfold noteRefresh
    split <;> exact ⟨hw₁.1.1, hw₁.1.2.1, hw₁.2⟩
  cases hids : r.orgUnitIds record with
  | none => exact hnone hids _ hcache hsources hnow
  | some ids => exact Activity.achieves_bind.mpr (hsome ids hids _ hcache hsources)

end Resolver

namespace BackendSource

variable {b : BackendSource δ} (hanswers : b.client.Answers Inv answer)

include hanswers

theorem call_answers (request : BackendRequest) (hw : Inv w.sources) :
    (b.call request).Achieves (World.Resting during) w fun outcome _ =>
      outcome = b.reply answer request := by
  unfold call reply
  cases b.profile with
  | none => exact rfl
  | some profile =>
      refine Activity.achieves_bind.mpr (((hanswers _ _ _).resting hw).mono ?_)
      rintro outcome w' ⟨rfl, -⟩
      dsimp only
      cases answer profile.serverPrefix profile.handler request.imports with
      | ok response => exact rfl
      | error e => cases hnames : e.namesUnknown <;> simp [hnames, Activity.Achieves]

theorem query_answers (ids : List String) (hw : Inv w.sources) :
    (b.query ids).Achieves (World.Resting during) w fun units _ =>
      units = b.unitsOf answer ids := by
  unfold query unitsOf
  split
  · exact rfl
  · refine Activity.achieves_bind.mpr ((call_answers hanswers _ hw).mono ?_)
    rintro outcome w' rfl
    cases b.reply answer (.only ids) with
    | error e => exact rfl
    | ok response => exact fun w'' _ => rfl

end BackendSource

namespace Resolver

variable {r : Resolver δ} (hanswers : r.backend.client.Answers Inv answer)

include hanswers

theorem fetch_answers (misses : List String) (hw : Inv w.sources) :
    (r.fetch misses).Achieves (World.Resting during) w fun units _ =>
      units = r.backend.unitsOf answer misses := by
  unfold fetch
  split
  · next hempty =>
      rw [BackendSource.unitsOf, if_pos hempty]
      exact rfl
  · intro w' hw'
    exact BackendSource.query_answers hanswers misses (hw'.1.2.1 ▸ hw)

variable (hsteady : w.cache.Steady during)

include hsteady

theorem compose_answers (ids : List String) (attributeName : String) (hw : Inv w.sources) :
    (r.compose ids attributeName).Achieves (World.Resting during) w fun value _ =>
      ∀ i, during i → value = r.composed answer ids attributeName i w.cache := by
  refine compose_achieves fun w₁ hw₁ => (fetch_answers hanswers _ (hw₁.1.2.1 ▸ hw)).mono ?_
  rintro units w₂ rfl i hi
  have hsame : w.cache.SameUnits during w₁.cache := ⟨congrArg _ hw₁.1.1, hsteady⟩
  simp only [hsame.collect hi hw₁.2, composed, ofTexts?]

/-- **What a resolver says about a record** is its value. -/
theorem resolveFor_answers (record : Record) (attributeName : String) (hw : Inv w.sources) :
    (r.resolveFor record attributeName).Achieves (World.Resting during) w fun result _ =>
      ∀ i, during i → result.2 = r.valueOf answer record attributeName i w.cache := by
  unfold valueOf
  cases hroute : r.routes.route record.domain record.kind attributeName with
  | directory =>
      unfold resolveFor
      rw [hroute]
      exact fun _ _ => rfl
  | unknown =>
      unfold resolveFor
      rw [hroute]
      exact fun _ _ => rfl
  | backend =>
      refine resolveFor_achieves
        (P := fun value _ => ∀ i, during i →
          value = (r.orgUnitIds record).bind fun ids => r.composed answer ids attributeName i w.cache)
        hroute ?_ ?_
      · intro hids w₁ _ _ _ i _
        rw [hids]
        rfl
      · intro ids hids w₁ hcache hsources
        refine (compose_answers hanswers (hcache ▸ hsteady) ids attributeName (hsources ▸ hw)).mono
          fun value w₂ h i hi => ?_
        rw [h i hi, hcache, hids]
        rfl

end Resolver

end Answers

end AttrFederation
