import AttrFederation.Proofs.Activity.GateWindow
import Mathlib.Data.List.Count
import Mathlib.Data.Prod.Basic

/-!
# Readers whose time is up

A reader that waits may read without regard to the flag once its time is up.  What it has waited for
is its pauses, and the log tells them (`pauses`): a reader reads late only when its pauses are in all
as long as its time-out, or longer (`LateReadsTimedOut`).

At each of its stages a reader has waited for its pauses so far, and the looks that it has left are
enough to reach the time-out (`ReaderStage.InTime`).  Every turn keeps this (`InTime.move`), so it
holds under every schedule (`Punctual.run`).
-/

namespace AttrFederation

/-- How many pauses of a task are in a log. -/
def pauses (log : List (Nat × GateEvent)) (i : Nat) : Nat :=
  log.count (i, .paused)

theorem pauses_append (log : List (Nat × GateEvent)) (i : Nat) (events : List GateEvent) :
    pauses (log ++ events.map (i, ·)) i = pauses log i + events.count .paused := by
  rw [pauses, List.count_append, List.count_map_of_injective _ _ (Prod.mk_right_injective i)]
  rfl

/-- What another task does is no pause of this one. -/
theorem pauses_append_of_ne (log : List (Nat × GateEvent)) (events : List GateEvent) {i j : Nat}
    (h : j ≠ i) : pauses (log ++ events.map (i, ·)) j = pauses log j := by
  have hnone : (j, GateEvent.paused) ∉ events.map (i, ·) := by
    intro hmem
    obtain ⟨event, -, heq⟩ := List.mem_map.mp hmem
    exact h (Prod.mk.inj heq).1.symm
  rw [pauses, List.count_append, List.count_eq_zero_of_not_mem hnone]
  rfl

/-! ## Stages -/

namespace ReaderStage

variable {σ β : Type} {reader? : Option (PollingReader σ β)} {flag : Field σ Bool} {n : Nat}

/-- A task that may be a reader that waits has paused `n` times.  What it has waited for is these
pauses, and with the looks that are left it reaches the time-out. -/
def InTime (reader? : Option (PollingReader σ β)) (n : Nat) : ReaderStage σ β → Prop
  | looking reader polls waited =>
    reader? = some reader ∧ waited = n * reader.poll ∧
      reader.timeout ≤ waited + polls * reader.poll
  | pausing reader polls waited =>
    reader? = some reader ∧ waited = (n + 1) * reader.poll ∧
      reader.timeout ≤ waited + polls * reader.poll
  | late reader => reader? = some reader ∧ reader.timeout ≤ n * reader.poll
  | trying _ | finished _ => True

/-- After a look with the flag up, the time of a reader is up or it pauses. -/
theorem InTime.afterLook {reader : PollingReader σ β} {polls waited : Nat}
    (h : (looking reader polls waited).InTime reader? n) :
    (afterLook reader waited none polls).InTime reader? n := by
  obtain ⟨hreader, rfl, henough⟩ := h
  cases polls with
  | zero => exact ⟨hreader, by simpa using henough⟩
  | succ polls =>
      simp only [ReaderStage.afterLook]
      split
      · next hover => exact ⟨hreader, hover⟩
      · refine ⟨hreader, (Nat.succ_mul _ _).symm, ?_⟩
        rw [Nat.succ_mul] at henough
        omega

/-- **A turn** of a reader: what it has waited for is still its pauses, and it reads late only when
these have taken the time-out. -/
theorem InTime.move {stage : ReaderStage σ β} {s : σ}
    {next : ReaderStage σ β × σ × List GateEvent} (h : stage.InTime reader? n)
    (hmove : Moves flag s stage next) :
    next.1.InTime reader? (n + next.2.2.count .paused) ∧
      (.lateRead ∈ next.2.2 →
        ∃ reader, reader? = some reader ∧ reader.timeout ≤ n * reader.poll) := by
  cases hmove with
  | tryUp | tryDown | lookDown => exact ⟨trivial, fun hlate => by simp at hlate⟩
  | lookUp => exact ⟨h.afterLook, fun hlate => by simp at hlate⟩
  | pause => exact ⟨h, fun hlate => by simp at hlate⟩
  | readLate reader => exact ⟨trivial, fun _ => ⟨reader, h⟩⟩

end ReaderStage

/-! ## Logs -/

section Logs

variable {σ β : Type} {readers : Nat → Option (PollingReader σ β)} {log : List (Nat × GateEvent)}

/-- Who has read late is a reader that waits, and its pauses until then have taken its time-out. -/
def LateReadsTimedOut (readers : Nat → Option (PollingReader σ β)) (log : List (Nat × GateEvent)) :
    Prop :=
  ∀ before i after, log = before ++ (i, .lateRead) :: after →
    ∃ reader, readers i = some reader ∧ reader.timeout ≤ pauses before i * reader.poll

theorem LateReadsTimedOut.concat {event : Nat × GateEvent} (h : LateReadsTimedOut readers log)
    (hevent : event.2 = .lateRead → ∃ reader, readers event.1 = some reader ∧
      reader.timeout ≤ pauses log event.1 * reader.poll) :
    LateReadsTimedOut readers (log ++ [event]) := by
  intro before i after hlog
  rcases split_concat hlog with ⟨rfl, rfl⟩ | ⟨after', hlog⟩
  · exact hevent rfl
  · exact h before i after' hlog

/-- The events of a turn do no harm, unless one of them is a late read before the time-out. -/
theorem LateReadsTimedOut.append {i : Nat} {events : List GateEvent}
    (h : LateReadsTimedOut readers log)
    (hevents : .lateRead ∈ events → ∃ reader, readers i = some reader ∧
      reader.timeout ≤ pauses log i * reader.poll) :
    LateReadsTimedOut readers (log ++ events.map (i, ·)) := by
  induction events generalizing log with
  | nil => rwa [List.map_nil, List.append_nil]
  | cons event events ih =>
      rw [List.map_cons, List.append_cons]
      refine ih (h.concat fun hlate => hevents (hlate ▸ List.mem_cons_self)) fun hlate => ?_
      obtain ⟨reader, hreader, hover⟩ := hevents (List.mem_cons_of_mem _ hlate)
      refine ⟨reader, hreader, Nat.le_trans hover (Nat.mul_le_mul_right _ ?_)⟩
      exact (List.sublist_append_left _ _).count_le _

end Logs

/-! ## The invariant -/

/-- Readers have waited for their pauses, and who has read late has waited for its time-out. -/
structure Punctual {σ α β : Type} (readers : Nat → Option (PollingReader σ β))
    (p : Pool σ GateEvent (GateTask σ α β)) : Prop where
  inTime : ∀ {i stage}, p.tasks i = some (.inr (.inl stage)) →
    stage.InTime (readers i) (pauses p.log i)
  late : LateReadsTimedOut readers p.log

namespace Punctual

variable {σ α β : Type} {g : SerialGate σ} {readers : Nat → Option (PollingReader σ β)}
  {p : Pool σ GateEvent (GateTask σ α β)}

/-- A task goes on or is stopped: if it goes on as a reader, its pauses are counted, and if it has
read late, it has waited for its time-out. -/
theorem update (h : Punctual readers p) {i : Nat} {next : Option (GateTask σ α β)} {s : σ}
    {events : List GateEvent}
    (hnext : ∀ stage, next = some (.inr (.inl stage)) →
      stage.InTime (readers i) (pauses p.log i + events.count .paused))
    (hlate : .lateRead ∈ events → ∃ reader, readers i = some reader ∧
      reader.timeout ≤ pauses p.log i * reader.poll) :
    Punctual readers ⟨s, Function.update p.tasks i next, p.log ++ events.map (i, ·)⟩ where
  inTime {j stage} hj := by
    rcases Pool.update_eq_some_iff.mp hj with ⟨rfl, heq⟩ | ⟨hji, hj⟩
    · simpa only [pauses_append] using hnext stage heq
    · simpa only [pauses_append_of_ne _ _ hji] using h.inTime hj
  late := h.late.append hlate

/-- A refresh does not read late. -/
theorem lateRead_notMem_of_moves {stage : RefreshStage (Activity σ α) α} {s : σ}
    {next : RefreshStage (Activity σ α) α × σ × List GateEvent}
    (hmove : g.Moves .plain .purged .lowered s stage next) : .lateRead ∉ next.2.2 := by
  cases hmove <;> simp [Tracking.plain]

/-- **A turn** of whatever task keeps readers punctual. -/
theorem go (h : Punctual readers p) {i : Nat} {task : GateTask σ α β}
    {next : GateTask σ α β × σ × List GateEvent} (hi : p.tasks i = some task)
    (hgo : g.gateTracking.conduct.go? task p.state = some next) :
    Punctual readers (p.gone i next) := by
  rcases task with stage | stage | x
  · obtain ⟨stage', rest, hstage, rfl⟩ := Tracking.go?_sum_inl hgo
    refine h.update (fun _ heq => by simp at heq) fun hlate => ?_
    exact absurd hlate (lateRead_notMem_of_moves (g.moves_of_go? hstage))
  · obtain ⟨_, rest, hbeside, rfl⟩ := Tracking.go?_sum_inr hgo
    obtain ⟨stage', _, hreader, heq⟩ := Tracking.go?_sum_inl hbeside
    obtain ⟨rfl, rfl⟩ := Prod.mk.inj heq
    obtain ⟨hnext, hlate⟩ := (h.inTime hi).move (ReaderStage.moves_of_go? hreader)
    refine h.update (fun stage heq => ?_) hlate
    rw [← Sum.inl.inj (Sum.inr.inj (Option.some.inj heq))]
    exact hnext
  · obtain ⟨_, rest, hbeside, rfl⟩ := Tracking.go?_sum_inr hgo
    obtain ⟨y, _, hplain, heq⟩ := Tracking.go?_sum_inr hbeside
    obtain ⟨rfl, rfl⟩ := Prod.mk.inj heq
    obtain ⟨-, hnone⟩ := Tracking.go?_plain hplain
    refine h.update (fun _ heq => by simp at heq) fun hlate => ?_
    rw [hnone] at hlate
    contradiction

/-- **Stopping a task** keeps readers punctual. -/
theorem stop (h : Punctual readers p) {i : Nat} {task : GateTask σ α β} {rest : σ × List GateEvent}
    (hstop : g.gateTracking.conduct.stop? task p.state = some rest) :
    Punctual readers (p.stopped i rest) := by
  refine h.update (fun _ heq => by contradiction) fun hlate => ?_
  rw [(Tracking.stop?_eq_some_iff.mp hstop).2] at hlate
  rcases task with stage | stage | x
  · cases stage <;> simp [SerialGate.gateTracking, Tracking.sum, SerialGate.tracking,
      Tracking.plain] at hlate
  · contradiction
  · contradiction

/-- **Every schedule** keeps readers punctual. -/
theorem run (h : Punctual readers p) (schedule : List Turn) :
    Punctual readers (p.run g.gateTracking.conduct schedule) :=
  Pool.run_induction schedule (fun _ _ _ _ h => h.go) (fun _ _ _ _ _ h _ => h.stop) h

end Punctual

end AttrFederation
