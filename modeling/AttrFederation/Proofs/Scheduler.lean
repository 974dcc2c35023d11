import Mathlib.Data.List.Basic
import AttrFederation.Scheduler

/-!
# The jobs of a scheduler

What becomes of the jobs of a handle is told by their statuses.  Telling jobs to stop changes the
statuses of the active ones among them and of no other job (`status_abort`), and asking for further
jobs changes none.
-/

namespace AttrFederation

/-! ## Statuses -/

namespace Job

variable {κ : Type}

/-- The status of the job at a place. -/
def statusAt (jobs : List (Job κ)) (index : Nat) : Option JobStatus :=
  (jobs[index]?).map Job.status

theorem statusAt_setStatus (status : JobStatus) (jobs : List (Job κ)) (index k : Nat) :
    statusAt (setStatus status index jobs) k =
      if k = index ∧ (statusAt jobs k).isSome then some status else statusAt jobs k := by
  induction jobs generalizing index k with
  | nil => simp [setStatus, statusAt]
  | cons job jobs ih =>
      cases index with
      | zero => cases k <;> simp [setStatus, statusAt]
      | succ index =>
          cases k with
          | zero => simp [setStatus, statusAt]
          | succ k => simpa [setStatus, statusAt] using ih index k

theorem statusAt_abort (jobs : List (Job κ)) (index k : Nat) :
    statusAt (abort index jobs) k =
      if k = index ∧ statusAt jobs k = some .active then some .aborted else statusAt jobs k := by
  unfold abort
  cases hjob : jobs[index]? with
  | none =>
      have hnone : statusAt jobs index = none := by rw [statusAt, hjob, Option.map_none]
      rw [if_neg]
      rintro ⟨rfl, hactive⟩
      rw [hnone] at hactive
      contradiction
  | some job =>
      have hstatus : statusAt jobs index = some job.status := by
        rw [statusAt, hjob, Option.map_some]
      dsimp only
      by_cases hk : k = index
      · subst hk
        by_cases hactive : job.status = .active <;> simp [hactive, hstatus, statusAt_setStatus]
      · split <;> simp [hk, statusAt_setStatus]

theorem statusAt_foldl_abort (indices : List Nat) (jobs : List (Job κ)) (k : Nat) :
    statusAt (indices.foldl (fun jobs index => abort index jobs) jobs) k =
      if k ∈ indices ∧ statusAt jobs k = some .active then some .aborted
      else statusAt jobs k := by
  induction indices generalizing jobs with
  | nil => simp
  | cons index indices ih =>
      rw [List.foldl_cons, ih, statusAt_abort]
      by_cases hk : k = index
      · subst hk
        by_cases hactive : statusAt jobs k = some .active <;> simp [hactive]
      · simp [hk]

theorem statusAt_append {jobs : List (Job κ)} {index : Nat} {status : JobStatus}
    (h : statusAt jobs index = some status) (added : List (Job κ)) :
    statusAt (jobs ++ added) index = some status := by
  obtain ⟨job, hjob, rfl⟩ := Option.map_eq_some_iff.mp h
  obtain ⟨hlt, -⟩ := List.getElem?_eq_some_iff.mp hjob
  rw [statusAt, List.getElem?_append_left hlt, hjob, Option.map_some]

end Job

/-! ## Handles -/

namespace SchedulerHandle

variable {δ : Type} {h h' : SchedulerHandle} {w : World δ} {status : JobStatus}

/-- All jobs of the handle have a status. -/
def AllHave (h : SchedulerHandle) (status : JobStatus) (w : World δ) : Prop :=
  ∀ index ∈ h.jobs, Job.statusAt w.jobs index = some status

instance : Decidable (h.AllHave status w) :=
  inferInstanceAs (Decidable (∀ index ∈ h.jobs, _))

theorem AllHave.congr {w' : World δ} (hall : h.AllHave status w) (hjobs : w'.jobs = w.jobs) :
    h.AllHave status w' :=
  fun index hindex => hjobs ▸ hall index hindex

/-- The handles have no job in common. -/
def Disjoint (h h' : SchedulerHandle) : Prop :=
  h.jobs.Disjoint h'.jobs

theorem Disjoint.symm (hdisjoint : h.Disjoint h') : h'.Disjoint h :=
  fun _ hmem hmem' => hdisjoint hmem' hmem

theorem status_abort (h : SchedulerHandle) (w : World δ) (k : Nat) :
    Job.statusAt (w.abort h).jobs k =
      if k ∈ h.jobs ∧ Job.statusAt w.jobs k = some .active then some .aborted
      else Job.statusAt w.jobs k :=
  Job.statusAt_foldl_abort h.jobs w.jobs k

/-- Jobs that are told to stop are aborted if they were active. -/
theorem AllHave.abort_self (hactive : h.AllHave .active w) : h.AllHave .aborted (w.abort h) := by
  intro index hindex
  rw [status_abort, if_pos ⟨hindex, hactive index hindex⟩]

/-- Telling other jobs to stop changes nothing. -/
theorem AllHave.abort_of_disjoint (hall : h.AllHave status w) (hdisjoint : h.Disjoint h') :
    h.AllHave status (w.abort h') := by
  intro index hindex
  rw [status_abort, if_neg fun hmem => hdisjoint hindex hmem.1, hall index hindex]

/-- Jobs that were told to stop stay so. -/
theorem AllHave.aborted_abort (hall : h.AllHave .aborted w) : h.AllHave .aborted (w.abort h') := by
  intro index hindex
  rw [status_abort, hall index hindex, if_neg]
  simp

end SchedulerHandle

namespace Scheduler

variable {δ : Type} (s : Settings) (w : World δ)

/-- Jobs are asked for as active ones. -/
theorem active_of_mem_jobs {now : Instant} {job : Job RefreshKind} (h : job ∈ jobs s now) :
    job.status = .active := by
  rw [jobs, List.mem_append, Option.mem_toList] at h
  rcases h with h | h
  · split at h
    · rw [List.mem_singleton.mp h]
      rfl
    · contradiction
  · obtain ⟨period, -, rfl⟩ := Option.map_eq_some_iff.mp h
    rfl

theorem active_start : (start s w).1.AllHave .active (start s w).2 := by
  intro index hindex
  obtain ⟨k, hk, rfl⟩ := List.mem_map.mp hindex
  rw [List.mem_range] at hk
  change Job.statusAt (w.jobs ++ jobs s w.localTime) _ = _
  rw [Job.statusAt, List.getElem?_append_right (Nat.le_add_right ..), Nat.add_sub_cancel_left,
    List.getElem?_eq_getElem hk, Option.map_some, active_of_mem_jobs s (List.getElem_mem hk)]

/-- Asking for jobs leaves the earlier ones alone. -/
theorem allHave_start {h : SchedulerHandle} {status : JobStatus} (hall : h.AllHave status w) :
    h.AllHave status (start s w).2 :=
  fun index hindex => Job.statusAt_append (hall index hindex) _

/-- The jobs asked for are new. -/
theorem disjoint_start {h : SchedulerHandle} {status : JobStatus} (hall : h.AllHave status w) :
    h.Disjoint (start s w).1 := by
  intro index hindex hnew
  obtain ⟨k, -, rfl⟩ := List.mem_map.mp hnew
  obtain ⟨job, hjob, -⟩ := Option.map_eq_some_iff.mp (hall _ hindex)
  obtain ⟨hlt, -⟩ := List.getElem?_eq_some_iff.mp hjob
  exact absurd hlt (Nat.not_lt.mpr (Nat.le_add_right ..))

end Scheduler

end AttrFederation
