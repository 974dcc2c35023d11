import AttrFederation.Proofs.Resolution.Identity
import AttrFederation.Proofs.Source.MemoryRefresh

/-!
# Sources in memory that do not fail

A directory and a backend in memory whose domains accept every connection and whose backend has no
calls left to fail.  Whatever they are asked, they stay so and keep their content (`Calm`).  Such a
directory is healthy (`client_healthy`), and such a backend answers each call in the same way
(`MemoryBackend.client_answers`, with both `MemorySources.client_answers`).
-/

namespace AttrFederation

/-- A directory and a backend in memory. -/
structure MemorySources where
  directory : MemoryDirectory
  backend : MemoryBackend

/-- What a backend in memory answers to a call that it does not fail. -/
def MemoryBackend.answer (m : MemoryBackend) : BackendAnswer := fun serverPrefix function imports =>
  if serverPrefix ≠ m.serverPrefix then .error (.unknownServer serverPrefix)
  else if function ≠ m.function then .error (.unknownFunction function)
  else .ok (m.response imports)

/-- **A backend in memory answers**, after its latency, if it has no calls left to fail. -/
theorem MemoryBackend.client_answers {δ : Type} (field : Field δ MemoryBackend) {Inv : δ → Prop}
    {answer : BackendAnswer}
    (hanswer : ∀ s, Inv s → (field.get s).failures = 0 ∧ (field.get s).answer = answer)
    (hkept : ∀ s calls last, Inv s →
      Inv (field.set { field.get s with calls := calls, lastImports := last } s)) :
    (client (World.sourcesField.comp field)).Answers Inv answer := by
  intro serverPrefix function imports w hw
  refine Activity.achieves_bind.mpr (Activity.achieves_modifyGet.mpr fun w₁ hw₁ => ?_)
  have hinv : Inv w₁.sources := hw₁.2.1 ▸ hw
  have hnoted := hkept _ ((field.get w₁.sources).calls + 1) (some imports) hinv
  have hsame : answer serverPrefix function imports =
      (field.get w₁.sources).answer serverPrefix function imports := by rw [(hanswer _ hinv).2]
  dsimp only
  split
  · next hserver => exact ⟨(hsame.trans (if_pos hserver)).symm, hw₁.1, hnoted⟩
  split
  · next hserver hfunction =>
      exact ⟨(hsame.trans ((if_neg hserver).trans (if_pos hfunction))).symm, hw₁.1, hnoted⟩
  next hserver hfunction =>
  have hresponse := hsame.trans ((if_neg hserver).trans (if_neg hfunction))
  -- It responds now or after its latency.
  have hresponds : ∀ w₂ : World δ, w₂.cache = w.cache →
      w₂.sources = field.set { field.get w₁.sources with
        calls := (field.get w₁.sources).calls + 1, lastImports := some imports } w₁.sources →
      ((field.get w₂.sources).respond imports).1 = answer serverPrefix function imports ∧
        w₂.cache = w.cache ∧
        Inv (field.set ((field.get w₂.sources).respond imports).2 w₂.sources) := by
    intro w₂ hcache hsources
    rw [← hsources] at hnoted
    have hrespond : (field.get w₂.sources).respond imports =
        (.ok ((field.get w₂.sources).response imports), field.get w₂.sources) := by
      rw [respond, (hanswer _ hnoted).1]
    have hunchanged : (field.get w₂.sources).response imports =
        (field.get w₁.sources).response imports := by
      rw [hsources, field.get_set]
      rfl
    rw [hrespond, hresponse, hunchanged]
    exact ⟨rfl, hcache, hkept _ _ _ hnoted⟩
  split
  · exact fun w₂ hw₂ => hresponds w₂ (hw₂.1.trans hw₁.1) hw₂.2.1
  · exact fun w₂ hw₂ w₃ hw₃ => hresponds w₃ (hw₃.1.trans (hw₂.1.trans hw₁.1))
      (hw₃.2.1.trans hw₂.2.1)

/-- One more entry is no outage. -/
theorem MemoryDirectory.outage_addEntry (m : MemoryDirectory) (name base : String) (e : Entry)
    (other : String) :
    ((m.addEntry name base e).domain other).outage = (m.domain other).outage := by
  rw [addEntry, domain_update]
  split
  · next heq => rw [heq]
  · rfl

namespace MemorySources

def directoryField : Field MemorySources MemoryDirectory where
  get s := s.directory
  set m s := { s with directory := m }

def backendField : Field MemorySources MemoryBackend where
  get s := s.backend
  set m s := { s with backend := m }

/-- The sources have the content of others, and fail no call. -/
structure Calm (content s : MemorySources) : Prop where
  entries : ∀ name,
    (s.directory.domain name).entries = (content.directory.domain name).entries
  outage : ∀ name, (s.directory.domain name).outage = .times 0
  answer : s.backend.answer = content.backend.answer
  failures : s.backend.failures = 0

namespace Calm

variable {content s : MemorySources}

/-- An account of what the directory was asked changes nothing. -/
theorem alike (h : content.Calm s) {m : MemoryDirectory} (halike : s.directory.Alike m) :
    content.Calm (directoryField.set m s) where
  entries name := (halike name).1.trans (h.entries name)
  outage name := (halike name).2.1.trans (h.outage name)
  answer := h.answer
  failures := h.failures

/-- A connection is accepted. -/
theorem accept (h : content.Calm s) (settings : ConnectionSettings) :
    (s.directory.accept settings).1 = .ok () ∧
      content.Calm (directoryField.set (s.directory.accept settings).2 s) := by
  rw [MemoryDirectory.accept_eq, h.outage]
  refine ⟨rfl, ?_, ?_, h.answer, h.failures⟩
  · intro name
    exact (s.directory.entries_visited 0 settings.domain name).trans (h.entries name)
  · intro name
    show ((s.directory.visited 0 settings.domain).domain name).outage = .times 0
    rw [MemoryDirectory.visited, MemoryDirectory.domain_update]
    split
    · rw [h.outage]
      rfl
    · exact h.outage name

end Calm

variable (content : MemorySources)

/-- **The directory is healthy**. -/
theorem client_healthy (pageSize : UInt32) :
    (MemoryDirectory.client (World.sourcesField.comp directoryField)).Healthy content.Calm pageSize
      (fun settings => content.directory.delivered pageSize settings.domain)
      (fun settings => content.directory.found settings.domain) := by
  intro settings w hw
  refine Activity.Achieves.bindOk (Q := fun outcome w' =>
    outcome = .ok () ∧ w'.cache = w.cache ∧ content.Calm w'.sources)
    (Activity.achieves_modifyGet.mpr fun w' hw' => ?_) ?_ ?_
  · obtain ⟨haccepted, hcalm⟩ := Calm.accept (hw'.2.1 ▸ hw) settings
    exact ⟨haccepted, hw'.1, hcalm⟩
  · rintro - w' ⟨-, hcache, hcalm⟩
    have hkept : ∀ s m, content.Calm s → (directoryField.get s).Alike m →
        content.Calm (directoryField.set m s) := fun s m h halike => h.alike halike
    have hentries : ∀ s, content.Calm s → ∀ name, ((directoryField.get s).domain name).entries =
        (content.directory.domain name).entries := fun s h => h.entries
    exact ⟨⟨_, rfl, MemoryDirectory.connection_serves hkept hentries settings.domain pageSize,
      MemoryDirectory.connection_finds hkept hentries settings.domain⟩, hcache, hcalm⟩
  · rintro e w' ⟨herror, -⟩
    contradiction

/-- **The backend answers**. -/
theorem client_answers :
    (MemoryBackend.client (World.sourcesField.comp backendField)).Answers content.Calm
      content.backend.answer :=
  MemoryBackend.client_answers backendField (fun _ h => ⟨h.failures, h.answer⟩)
    fun _ _ _ h => ⟨h.entries, h.outage, h.answer, h.failures⟩

end MemorySources

end AttrFederation
