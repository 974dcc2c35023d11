import AttrFederation.Proofs.Activity.SerialGate

/-!
# Reads beside refreshes

Readers of a serial gate run beside refreshes of it and beside other activities.  The window of a
refresh is open from the turn in which it raises the flag and empties the region to the turn in
which it lowers the flag; the log of a pool tells whether it is (`inWindow`).

A look at the flag counts as a read when it has a result.  What a reader can do in a turn is said in
one place (`ReaderStage.Moves`).

`Guarded` is the invariant: a refresh whose window is open is at work, so the flag is up, and no
reader has read in a window unless its time was up.  Every turn keeps it (`Guarded.go`,
`Guarded.stop`), if the work of the refreshes, what readers read with and the other activities
touch neither flag nor lock.
-/

namespace AttrFederation

/-- What happens at a gate. -/
inductive GateEvent where
  /-- A refresh has raised the flag and emptied the region. -/
  | purged
  /-- A refresh has lowered the flag. -/
  | lowered
  /-- A reader has looked at the flag and has read. -/
  | read
  /-- A reader has waited from one look to the next. -/
  | paused
  /-- A reader whose time is up has read without regard to the flag. -/
  | lateRead
deriving DecidableEq, Repr

/-! ## Readers -/

/-- A reader that waits for the flag to be down. -/
structure PollingReader (σ β : Type) where
  /-- Milliseconds from one look at the flag to the next. -/
  poll : Nat
  /-- Milliseconds after which it reads anyway. -/
  timeout : Nat
  read : σ → β × σ

/-- How far a reader has come. -/
inductive ReaderStage (σ β : Type) where
  /-- It will look at the flag and not wait. -/
  | trying (read : σ → β × σ)
  /-- It will look at the flag, and so many times more. -/
  | looking (reader : PollingReader σ β) (polls waited : Nat)
  /-- It waits for its next look. -/
  | pausing (reader : PollingReader σ β) (polls waited : Nat)
  /-- Its time is up. -/
  | late (reader : PollingReader σ β)
  | finished (result : Option β)

namespace ReaderStage

variable {σ β : Type}

/-- What is left of a reader at a stage. -/
def rest (flag : Field σ Bool) : ReaderStage σ β → Activity σ (Option β)
  | trying read => .modifyGet (Gate.tryRead flag read)
  | looking reader polls waited =>
    (Gate.readPolling flag reader.poll reader.timeout reader.read polls waited).bind fun result =>
      .done (some result)
  | pausing reader polls waited =>
    .sleep reader.poll id <|
      (Gate.readPolling flag reader.poll reader.timeout reader.read polls waited).bind fun result =>
        .done (some result)
  | late reader => (Activity.modifyGet reader.read).bind fun result => .done (some result)
  | finished result => .done result

/-- The stage of a reader after a look at the flag, by what it has read. -/
def afterLook (reader : PollingReader σ β) (waited : Nat) :
    Option β → (polls : Nat) → ReaderStage σ β
  | some result, _ => finished (some result)
  | none, 0 => late reader
  | none, polls + 1 =>
    if reader.timeout ≤ waited then late reader else pausing reader polls (waited + reader.poll)

/-- The events of a look at the flag, by what it has read. -/
def lookEvents : Option β → List GateEvent
  | some _ => [.read]
  | none => []

/-- A look at the flag is a step. -/
theorem rest_looking (flag : Field σ Bool) (reader : PollingReader σ β) (polls waited : Nat) :
    (looking reader polls waited).rest flag =
      .step (fun s => (Gate.tryRead flag reader.read s).2) fun s =>
        (afterLook reader waited (Gate.tryRead flag reader.read s).1 polls).rest flag := by
  cases polls with
  | zero =>
      refine congrArg (Activity.step _) (funext fun s => ?_)
      dsimp only [Activity.done_bind]
      cases (Gate.tryRead flag reader.read s).1 <;> rfl
  | succ polls =>
      rw [rest, Gate.readPolling]
      refine congrArg (Activity.step _) (funext fun s => ?_)
      dsimp only [Activity.done_bind]
      cases (Gate.tryRead flag reader.read s).1 with
      | some result => rfl
      | none =>
          simp only [afterLook]
          split <;> rfl

/-- The stages of a reader. -/
def tracking (flag : Field σ Bool) : Tracking σ GateEvent (Option β) (ReaderStage σ β) where
  rest := rest flag
  next stage s :=
    match stage with
    | trying read => finished (Gate.tryRead flag read s).1
    | looking reader polls waited =>
      afterLook reader waited (Gate.tryRead flag reader.read s).1 polls
    | pausing reader polls waited => looking reader polls waited
    | late reader => finished (some (reader.read s).1)
    | finished result => finished result
  events stage s :=
    match stage with
    | trying read => lookEvents (Gate.tryRead flag read s).1
    | looking reader _ _ => lookEvents (Gate.tryRead flag reader.read s).1
    | pausing _ _ _ => [.paused]
    | late _ => [.lateRead]
    | finished _ => []
  stopEvents _ := []
  rest_next {stage s x s'} h := by
    cases stage with
    | trying read | pausing reader polls waited | late reader =>
        obtain ⟨rfl, -⟩ := Prod.mk.inj (Option.some.inj h)
        rfl
    | looking reader polls waited =>
        rw [rest_looking] at h
        obtain ⟨rfl, -⟩ := Prod.mk.inj (Option.some.inj h)
        rfl
    | finished result => contradiction

/-! ### What a reader can do -/

variable {flag : Field σ Bool} {s : σ}

/-- What a turn of a reader can be: what it reads with is done while the flag is down or when its
time is up, and the log tells of it. -/
inductive Moves (flag : Field σ Bool) (s : σ) :
    ReaderStage σ β → ReaderStage σ β × σ × List GateEvent → Prop where
  | tryDown (read : σ → β × σ) (hdown : flag.get s = false) :
    Moves flag s (trying read) (finished (some (read s).1), (read s).2, [.read])
  | tryUp (read : σ → β × σ) (hup : flag.get s = true) :
    Moves flag s (trying read) (finished none, s, [])
  | lookDown (reader : PollingReader σ β) (polls waited : Nat) (hdown : flag.get s = false) :
    Moves flag s (looking reader polls waited)
      (finished (some (reader.read s).1), (reader.read s).2, [.read])
  | lookUp (reader : PollingReader σ β) (polls waited : Nat) (hup : flag.get s = true) :
    Moves flag s (looking reader polls waited) (afterLook reader waited none polls, s, [])
  | pause (reader : PollingReader σ β) (polls waited : Nat) :
    Moves flag s (pausing reader polls waited) (looking reader polls waited, s, [.paused])
  | readLate (reader : PollingReader σ β) :
    Moves flag s (late reader)
      (finished (some (reader.read s).1), (reader.read s).2, [.lateRead])

/-- A reader that goes on does one of these. -/
theorem moves_of_go? {stage : ReaderStage σ β} {next : ReaderStage σ β × σ × List GateEvent}
    (h : (tracking flag).conduct.go? stage s = some next) : Moves flag s stage next := by
  obtain ⟨⟨x, s'⟩, hturn, rfl⟩ := Option.map_eq_some_iff.mp h
  cases stage with
  | trying read =>
      obtain ⟨-, rfl⟩ := Prod.mk.inj (Option.some.inj hturn)
      cases hflag : flag.get s with
      | true => simpa only [tracking, Gate.tryRead_of_up hflag] using .tryUp read hflag
      | false => simpa only [tracking, Gate.tryRead_of_down hflag] using .tryDown read hflag
  | looking reader polls waited =>
      change ((looking reader polls waited).rest flag).turn? s = _ at hturn
      rw [rest_looking] at hturn
      obtain ⟨-, rfl⟩ := Prod.mk.inj (Option.some.inj hturn)
      cases hflag : flag.get s with
      | true => simpa only [tracking, Gate.tryRead_of_up hflag] using .lookUp reader _ _ hflag
      | false => simpa only [tracking, Gate.tryRead_of_down hflag] using .lookDown reader _ _ hflag
  | pausing reader polls waited =>
      obtain ⟨-, rfl⟩ := Prod.mk.inj (Option.some.inj hturn)
      exact .pause reader polls waited
  | late reader =>
      obtain ⟨-, rfl⟩ := Prod.mk.inj (Option.some.inj hturn)
      exact .readLate reader
  | finished result => contradiction

/-- A turn of a reader that puts nothing into the log changes nothing. -/
theorem Moves.eq_of_nothing {stage : ReaderStage σ β}
    {next : ReaderStage σ β × σ × List GateEvent} (h : Moves flag s stage next)
    (hnothing : next.2.2 = []) : next.2.1 = s := by
  cases h with
  | tryUp | lookUp | pause => rfl
  | tryDown | lookDown | readLate => contradiction

/-- What a turn of a reader puts into the log, by whether the flag is up. -/
inductive Logs (isUp : Bool) : List GateEvent → Prop
  | nothing : Logs isUp []
  | read (hdown : isUp = false) : Logs isUp [.read]
  | paused : Logs isUp [.paused]
  | lateRead : Logs isUp [.lateRead]

/-- A reader reads only while the flag is down or when its time is up. -/
theorem Moves.logs {stage : ReaderStage σ β} {next : ReaderStage σ β × σ × List GateEvent}
    (h : Moves flag s stage next) : Logs (flag.get s) next.2.2 := by
  cases h with
  | tryUp | lookUp => exact .nothing
  | tryDown read hdown | lookDown reader polls waited hdown => exact .read hdown
  | pause => exact .paused
  | readLate => exact .lateRead

/-- Whatever a reader reads with takes a state to a related one. -/
def Keeps (R : σ → σ → Prop) : ReaderStage σ β → Prop
  | trying read => ∀ s, R s (read s).2
  | looking reader _ _ | pausing reader _ _ | late reader => ∀ s, R s (reader.read s).2
  | finished _ => True

theorem keeps_afterLook {R : σ → σ → Prop} {reader : PollingReader σ β} {waited polls : Nat}
    {result : Option β} (h : ∀ s, R s (reader.read s).2) :
    (afterLook reader waited result polls).Keeps R := by
  unfold afterLook
  split
  · trivial
  · exact h
  · split <;> exact h

/-- A turn of a reader does what the reader reads with, or nothing. -/
theorem Moves.keeps {R : σ → σ → Prop} (hrefl : ∀ s, R s s) {stage : ReaderStage σ β}
    {next : ReaderStage σ β × σ × List GateEvent} (h : Moves flag s stage next)
    (hstage : stage.Keeps R) : R s next.2.1 ∧ next.1.Keeps R := by
  cases h with
  | tryUp => exact ⟨hrefl s, trivial⟩
  | lookUp => exact ⟨hrefl s, keeps_afterLook hstage⟩
  | pause => exact ⟨hrefl s, hstage⟩
  | tryDown | lookDown | readLate => exact ⟨hstage s, trivial⟩

/-- Stopping a reader changes nothing. -/
theorem of_stop? {stage : ReaderStage σ β} {rest : σ × List GateEvent}
    (h : (tracking flag).conduct.stop? stage s = some rest) : rest = (s, []) := by
  obtain ⟨s', hstop, rfl⟩ := Option.map_eq_some_iff.mp h
  cases stage with
  | trying read | late reader | finished result => contradiction
  | looking reader polls waited =>
      change ((looking reader polls waited).rest flag).stop? s = _ at hstop
      rw [rest_looking] at hstop
      contradiction
  | pausing reader polls waited =>
      rw [← Option.some.inj hstop]
      rfl

end ReaderStage

/-! ## Windows -/

/-- Whether the window of a refresh is open after one more event. -/
def windowAfter (i : Nat) (isOpen : Bool) : Nat × GateEvent → Bool
  | (j, .purged) => isOpen || j == i
  | (j, .lowered) => isOpen && j != i
  | (_, .read) | (_, .paused) | (_, .lateRead) => isOpen

/-- The refresh has emptied the region and not lowered the flag since. -/
def inWindow (log : List (Nat × GateEvent)) (i : Nat) : Bool :=
  log.foldl (windowAfter i) false

example : inWindow [(0, .read), (1, .purged), (0, .read)] 1 = true := by decide

@[simp] theorem inWindow_nil (i : Nat) : inWindow [] i = false := rfl

@[simp] theorem inWindow_concat (log : List (Nat × GateEvent)) (event : Nat × GateEvent) (i : Nat) :
    inWindow (log ++ [event]) i = windowAfter i (inWindow log i) event := by
  simp only [inWindow, List.foldl_append, List.foldl_cons, List.foldl_nil]

/-- No reader has read in a window, those whose time was up aside. -/
def NoReadInWindow (log : List (Nat × GateEvent)) : Prop :=
  ∀ before j after, log = before ++ (j, .read) :: after → ∀ i, inWindow before i = false

/-- One more event does no harm, unless it is a read in a window. -/
theorem NoReadInWindow.concat {log : List (Nat × GateEvent)} {event : Nat × GateEvent}
    (h : NoReadInWindow log) (hevent : event.2 = .read → ∀ i, inWindow log i = false) :
    NoReadInWindow (log ++ [event]) := by
  intro before j after hlog i
  rcases split_concat hlog with ⟨hlast, rfl⟩ | ⟨after', hlog⟩
  · exact hevent (by rw [← hlast]) i
  · exact h before j after' hlog i

/-- What another task does opens and closes no window. -/
theorem inWindow_append_of_ne (log : List (Nat × GateEvent)) (events : List GateEvent) {i j : Nat}
    (h : j ≠ i) : inWindow (log ++ events.map (i, ·)) j = inWindow log j := by
  induction events generalizing log with
  | nil => rw [List.map_nil, List.append_nil]
  | cons event events ih =>
      rw [List.map_cons, List.append_cons, ih, inWindow_concat]
      cases event <;> simp [windowAfter, h.symm]

theorem NoReadInWindow.append {log : List (Nat × GateEvent)} (h : NoReadInWindow log) (i : Nat)
    {events : List GateEvent} (hevents : .read ∉ events) :
    NoReadInWindow (log ++ events.map (i, ·)) := by
  induction events generalizing log with
  | nil => rwa [List.map_nil, List.append_nil]
  | cons event events ih =>
      rw [List.mem_cons, not_or] at hevents
      rw [List.map_cons, List.append_cons]
      exact ih (h.concat fun hread => absurd hread.symm hevents.1) hevents.2

/-! ## The invariant -/

/-- A refresh, a reader, or whatever else runs beside them. -/
abbrev GateTask (σ α β : Type) :=
  RefreshStage (Activity σ α) α ⊕ ReaderStage σ β ⊕ Activity σ Unit

namespace SerialGate

variable {σ α β : Type} (g : SerialGate σ)

/-- The stages of the tasks at a gate. -/
def gateTracking : Tracking σ GateEvent (α ⊕ Option β ⊕ Unit) (GateTask σ α β) :=
  (g.tracking .plain .purged .lowered).sum ((ReaderStage.tracking g.flag).sum .plain)

/-- What a reader reads with, or an activity, touches neither flag nor lock. -/
def ConfinedBeside : ReaderStage σ β ⊕ Activity σ Unit → Prop
  | .inl stage => stage.Keeps g.Untouched
  | .inr x => x.Keeps g.Untouched

/-- What a task does apart from the gate touches neither flag nor lock. -/
def Confined : GateTask σ α β → Prop
  | .inl stage => ∀ work, stage.work? = some work → work.Keeps g.Untouched
  | .inr task => g.ConfinedBeside task

/-- What the tasks at a gate, the state and the log have in common. -/
structure Guarded (p : Pool σ GateEvent (GateTask σ α β)) : Prop where
  confined : ∀ {i task}, p.tasks i = some task → g.Confined task
  exclusive : g.Exclusive (Pool.lefts p.tasks) p.state
  /-- A refresh is at work while its window is open. -/
  working : ∀ {i}, inWindow p.log i = true →
    ∃ stage, Pool.lefts p.tasks i = some stage ∧ stage.Working
  noRead : NoReadInWindow p.log

namespace Guarded

variable {g} {p : Pool σ GateEvent (GateTask σ α β)}

/-- Tasks that were only called are guarded. -/
theorem of_called {tasks : Nat → Option (GateTask σ α β)}
    (hconfined : ∀ {i task}, tasks i = some task → g.Confined task)
    (hcalled : ∀ i stage, tasks i = some (.inl stage) → ∃ work, stage = .called work) (s : σ) :
    g.Guarded ⟨s, tasks, []⟩ where
  confined := hconfined
  exclusive := .of_called (fun i stage hi => hcalled i stage (Pool.lefts_eq_some_iff.mp hi)) s
  working hopen := by contradiction
  noRead before j after hlog := by simp at hlog

/-- While a window is open, the flag is up. -/
theorem flag_up (h : g.Guarded p) {i : Nat} (hopen : inWindow p.log i = true) :
    g.flag.get p.state = true := by
  obtain ⟨stage, hstage, hworking⟩ := h.working hopen
  exact h.exclusive.flag_up hstage hworking

/-- Tasks stay confined when one of them goes on or is stopped. -/
theorem confined_update (h : g.Guarded p) {i : Nat} {next : Option (GateTask σ α β)}
    (hnext : ∀ task, next = some task → g.Confined task) {j : Nat} {task : GateTask σ α β}
    (hj : Function.update p.tasks i next j = some task) : g.Confined task :=
  Pool.forall_update (fun _ _ _ hj => h.confined hj) hnext hj

/-- A refresh goes on or is stopped: it works if its window is open, and no other window opens. -/
theorem working_update (h : g.Guarded p) {i : Nat} {next : Option (RefreshStage (Activity σ α) α)}
    {log : List (Nat × GateEvent)}
    (hother : ∀ j, j ≠ i → inWindow log j = true → inWindow p.log j = true)
    (hself : inWindow log i = true → ∃ stage, next = some stage ∧ stage.Working) {j : Nat}
    (hopen : inWindow log j = true) :
    ∃ stage, Function.update (Pool.lefts p.tasks) i next j = some stage ∧ stage.Working := by
  by_cases hji : j = i
  · subst hji
    rw [Function.update_self]
    exact hself hopen
  · rw [Function.update_of_ne hji]
    exact h.working (hother j hji hopen)

/-- A window is closed while its refresh is not at work. -/
theorem inWindow_eq_false (h : g.Guarded p) {i : Nat} {stage : RefreshStage (Activity σ α) α}
    (hi : Pool.lefts p.tasks i = some stage) (hidle : ¬ stage.Working) :
    inWindow p.log i = false := by
  by_contra hopen
  obtain ⟨stage', hstage', hworking⟩ := h.working (Bool.of_not_eq_false hopen)
  rw [hi, Option.some.injEq] at hstage'
  exact hidle (hstage' ▸ hworking)

/-- A turn of a refresh. -/
theorem go_refresh (h : g.Guarded p) {i : Nat} {stage : RefreshStage (Activity σ α) α}
    {next : RefreshStage (Activity σ α) α × σ × List GateEvent} (hi : p.tasks i = some (.inl stage))
    (hmove : g.Moves .plain .purged .lowered p.state stage next) :
    g.Guarded (p.gone i (.inl next.1, next.2)) := by
  have hstage := Pool.lefts_eq_some_iff.mpr hi
  have hwork : ∀ work, stage.work? = some work → work.Keeps g.Untouched := h.confined hi
  have hkeeps := hmove.keeps g g.untouched_refl hwork
  refine ⟨h.confined_update fun task htask => ?_, ?_, fun hopen => ?_, ?_⟩
  · rw [← Option.some.inj htask]
    exact hkeeps
  · simp only [Pool.gone, Pool.lefts_update]
    exact h.exclusive.go hstage hwork hmove
  · simp only [Pool.gone, Pool.lefts_update] at hopen ⊢
    refine h.working_update (fun j hj hopen => ?_) (fun hopen => ⟨next.1, rfl, ?_⟩) hopen
    · rwa [inWindow_append_of_ne _ _ hj] at hopen
    · cases hmove with
      | raise work ticket | work work ticket => trivial
      | lower work ticket result => simp [windowAfter] at hopen
      | join work | enter work ticket | leave result ticket =>
          have hclosed := h.inWindow_eq_false hstage id
          simp [hclosed] at hopen
  · refine h.noRead.append i ?_
    cases hmove <;> simp [Tracking.plain]

/-- Stopping a refresh. -/
theorem stop_refresh (h : g.Guarded p) {i : Nat} {stage : RefreshStage (Activity σ α) α}
    {rest : σ × List GateEvent} (hi : p.tasks i = some (.inl stage))
    (hhalt : g.Halts .plain .lowered p.state stage rest) : g.Guarded (p.stopped i rest) := by
  have hstage := Pool.lefts_eq_some_iff.mpr hi
  have hwork : ∀ work, stage.work? = some work → work.Keeps g.Untouched := h.confined hi
  refine ⟨h.confined_update fun task htask => by contradiction, ?_, fun hopen => ?_, ?_⟩
  · simp only [Pool.stopped, Pool.lefts_update]
    exact h.exclusive.stop hstage hwork hhalt
  · simp only [Pool.stopped, Pool.lefts_update] at hopen ⊢
    refine h.working_update (fun j hj hopen => ?_) (fun hopen => ?_) hopen
    · rwa [inWindow_append_of_ne _ _ hj] at hopen
    · cases hhalt with
      | queued work ticket =>
          have hclosed := h.inWindow_eq_false hstage id
          simp [hclosed] at hopen
      | working work ticket s' => simp [Tracking.plain, windowAfter] at hopen
  · refine h.noRead.append i ?_
    cases hhalt <;> simp [Tracking.plain]

/-- Another task goes on or is stopped: it touches neither flag nor lock, and reads only while the
flag is down or when its time is up. -/
theorem beside (h : g.Guarded p) {i : Nat} {task : ReaderStage σ β ⊕ Activity σ Unit}
    (next : Option (ReaderStage σ β ⊕ Activity σ Unit)) {s : σ} {events : List GateEvent}
    (hi : p.tasks i = some (.inr task))
    (hnext : ∀ task, next = some task → g.ConfinedBeside task) (hsame : g.Untouched p.state s)
    (hevents : ReaderStage.Logs (g.flag.get p.state) events) :
    g.Guarded
      ⟨s, Function.update p.tasks i (next.map .inr), p.log ++ events.map (i, ·)⟩ := by
  have hlefts : Pool.lefts (Function.update p.tasks i (next.map .inr)) = Pool.lefts p.tasks :=
    Pool.lefts_update_of_inr hi (by cases next <;> rfl)
  -- a reader opens and closes no window
  have hwindow : ∀ j, inWindow (p.log ++ events.map (i, ·)) j = inWindow p.log j := by
    intro j
    cases hevents <;> simp [windowAfter]
  refine ⟨h.confined_update fun task' htask' => ?_, ?_, fun hopen => ?_, ?_⟩
  · obtain ⟨task, rfl, rfl⟩ := Option.map_eq_some_iff.mp htask'
    exact hnext task rfl
  · rw [hlefts]
    exact h.exclusive.of_untouched hsame
  · rw [hlefts]
    exact h.working (hwindow _ ▸ hopen)
  · cases hevents with
    | read hdown =>
        refine h.noRead.concat fun _ j => ?_
        by_contra hopen
        have hup := h.flag_up (Bool.of_not_eq_false hopen)
        rw [hdown] at hup
        contradiction
    | nothing | paused | lateRead => exact h.noRead.append i (by simp)

/-- **A turn** of whatever task keeps the gate guarded. -/
theorem go (h : g.Guarded p) {i : Nat} {task : GateTask σ α β}
    {next : GateTask σ α β × σ × List GateEvent} (hi : p.tasks i = some task)
    (hgo : g.gateTracking.conduct.go? task p.state = some next) : g.Guarded (p.gone i next) := by
  have hconfined := h.confined hi
  rcases task with stage | stage | x
  · obtain ⟨stage', rest, hstage, rfl⟩ := Tracking.go?_sum_inl hgo
    exact h.go_refresh hi (g.moves_of_go? hstage)
  · obtain ⟨_, rest, hbeside, rfl⟩ := Tracking.go?_sum_inr hgo
    obtain ⟨stage', _, hreader, heq⟩ := Tracking.go?_sum_inl hbeside
    obtain ⟨rfl, rfl⟩ := Prod.mk.inj heq
    have hmove := ReaderStage.moves_of_go? hreader
    obtain ⟨hsame, hkeeps⟩ := hmove.keeps g.untouched_refl hconfined
    refine h.beside (some (.inl stage')) hi (fun task htask => ?_) hsame hmove.logs
    rw [← Option.some.inj htask]
    exact hkeeps
  · obtain ⟨_, rest, hbeside, rfl⟩ := Tracking.go?_sum_inr hgo
    obtain ⟨y, _, hplain, heq⟩ := Tracking.go?_sum_inr hbeside
    obtain ⟨rfl, rfl⟩ := Prod.mk.inj heq
    obtain ⟨hturn, hevents⟩ := Tracking.go?_plain hplain
    obtain ⟨hsame, hkeeps⟩ := Activity.Keeps.turn g.untouched_refl hconfined hturn
    refine h.beside (some (.inr y)) hi (fun task htask => ?_) hsame (hevents ▸ .nothing)
    rw [← Option.some.inj htask]
    exact hkeeps

/-- **Stopping a task** keeps the gate guarded. -/
theorem stop (h : g.Guarded p) {i : Nat} {task : GateTask σ α β} {rest : σ × List GateEvent}
    (hi : p.tasks i = some task) (hstop : g.gateTracking.conduct.stop? task p.state = some rest) :
    g.Guarded (p.stopped i rest) := by
  have hconfined := h.confined hi
  have hnone : ∀ task, (none : Option (ReaderStage σ β ⊕ Activity σ Unit)) = some task →
      g.ConfinedBeside task := fun _ heq => by contradiction
  rcases task with stage | stage | x
  · rw [gateTracking, Tracking.stop?_sum_inl] at hstop
    exact h.stop_refresh hi (g.halts_of_stop? hstop)
  · rw [gateTracking, Tracking.stop?_sum_inr, Tracking.stop?_sum_inl] at hstop
    obtain rfl := ReaderStage.of_stop? hstop
    exact h.beside none hi hnone (g.untouched_refl _) .nothing
  · rw [gateTracking, Tracking.stop?_sum_inr, Tracking.stop?_sum_inr] at hstop
    obtain ⟨hstop, hevents⟩ := Tracking.stop?_eq_some_iff.mp hstop
    exact h.beside none hi hnone (Activity.Keeps.stop hconfined hstop) (hevents ▸ .nothing)

/-- **Every schedule** keeps the gate guarded. -/
theorem run (h : g.Guarded p) (schedule : List Turn) :
    g.Guarded (p.run g.gateTracking.conduct schedule) :=
  Pool.run_induction schedule (fun _ _ _ _ h => h.go) (fun _ _ _ _ _ h => h.stop) h

end Guarded

end SerialGate

end AttrFederation
