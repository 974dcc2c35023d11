import AttrFederation.Activity.Gate
import AttrFederation.Proofs.Activity.Pool

/-!
# Refreshes that run one after another

A serial gate is the flag of a gate together with a lock outside it: a refresh takes the lock,
raises the flag and empties the region in one step, does its work, lowers the flag and lets the lock
go.  The flag does not count the refreshes, so it is the lock that keeps one refresh from lowering
it while another one is at work.

A refresh is followed through its stages; its work is followed by a tracking of its own.
`Exclusive` is what the stages of all refreshes and the state have in common:

1. no two refreshes have one ticket, and each is older than the next ticket;
2. a refresh that was admitted has its ticket at the head of the queue, so there is only one;
3. while a refresh works, the flag is up.

It is kept by every turn of a refresh (`Exclusive.go`), when a refresh is stopped
(`Exclusive.stop`), and by whatever touches neither flag nor lock (`Exclusive.of_untouched`).
-/

namespace AttrFederation

/-- A gate's flag, a lock outside it, and how the region behind it is emptied. -/
structure SerialGate (σ : Type) where
  lock : Field σ Lock
  flag : Field σ Bool
  purge : σ → σ
  lock_set_flag : ∀ b s, lock.get (flag.set b s) = lock.get s := by intros; rfl
  flag_set_lock : ∀ l s, flag.get (lock.set l s) = flag.get s := by intros; rfl
  lock_purge : ∀ s, lock.get (purge s) = lock.get s := by intros; rfl
  flag_purge : ∀ s, flag.get (purge s) = flag.get s := by intros; rfl

/-- How far a refresh has come, with the point of its work. -/
inductive RefreshStage (ρ α : Type) where
  | called (work : ρ)
  /-- It waits in the queue of the lock. -/
  | queued (work : ρ) (ticket : Nat)
  /-- It holds the lock and has not raised the flag. -/
  | admitted (work : ρ) (ticket : Nat)
  /-- It has raised the flag and emptied the region. -/
  | working (work : ρ) (ticket : Nat)
  /-- It has lowered the flag and still holds the lock. -/
  | lowered (result : α) (ticket : Nat)
  | finished (result : α)

namespace RefreshStage

variable {ρ α : Type}

/-- The ticket of a refresh in the queue. -/
def ticket? : RefreshStage ρ α → Option Nat
  | queued _ ticket | admitted _ ticket | working _ ticket | lowered _ ticket => some ticket
  | called _ | finished _ => none

/-- The refresh holds the lock. -/
def Holds : RefreshStage ρ α → Prop
  | admitted _ _ | working _ _ | lowered _ _ => True
  | called _ | queued _ _ | finished _ => False

/-- The refresh has raised the flag and not lowered it. -/
def Working : RefreshStage ρ α → Prop
  | working _ _ => True
  | _ => False

/-- The point of the work that is not done. -/
def work? : RefreshStage ρ α → Option ρ
  | called work | queued work _ | admitted work _ | working work _ => some work
  | lowered _ _ | finished _ => none

theorem Working.holds {stage : RefreshStage ρ α} (h : stage.Working) : stage.Holds := by
  cases stage <;> trivial

end RefreshStage

namespace SerialGate

variable {σ ε α ρ : Type} (g : SerialGate σ)

/-- A refresh that does some work behind the gate. -/
def refresh (work : Activity σ α) : Activity σ α :=
  Lock.holding g.lock (Gate.refreshing g.flag g.purge work)

/-- Flag and lock are as before. -/
def Untouched (s s' : σ) : Prop :=
  g.flag.get s' = g.flag.get s ∧ g.lock.get s' = g.lock.get s

theorem untouched_refl (s : σ) : g.Untouched s s := ⟨rfl, rfl⟩

/-! ## The stages of a refresh -/

/-- A ticket leaves the queue. -/
def leave (ticket : Nat) : σ → σ :=
  g.lock.modify (·.leave ticket)

/-- What is left of a refresh at a stage. -/
def restAt (rest : ρ → Activity σ α) : RefreshStage ρ α → Activity σ α
  | .called work => g.refresh (rest work)
  | .queued work ticket =>
    .await (fun s => (g.lock.get s).heldBy ticket) (g.leave ticket)
      ((Gate.refreshing g.flag g.purge (rest work)).guarded (g.leave ticket))
  | .admitted work ticket =>
    (Gate.refreshing g.flag g.purge (rest work)).guarded (g.leave ticket)
  | .working work ticket => ((rest work).guarded (g.flag.set false)).guarded (g.leave ticket)
  | .lowered result ticket => (Activity.done result).guarded (g.leave ticket)
  | .finished result => .done result

/-- The stages of a refresh whose work is followed by a tracking, with an event for raising the flag
and one for lowering it. -/
def tracking (t : Tracking σ ε α ρ) (raised lowered : ε) :
    Tracking σ ε α (RefreshStage ρ α) where
  rest := g.restAt t.rest
  next stage s :=
    match stage with
    | .called work => .queued work (g.lock.get s).nextTicket
    | .queued work ticket => .admitted work ticket
    | .admitted work ticket => .working work ticket
    | .working work ticket =>
      match (t.rest work).result? with
      | some result => .lowered result ticket
      | none => .working (t.next work s) ticket
    | .lowered result _ | .finished result => .finished result
  events stage s :=
    match stage with
    | .admitted _ _ => [raised]
    | .working work _ => if (t.rest work).result?.isSome then [lowered] else t.events work s
    | _ => []
  stopEvents stage :=
    match stage with
    | .working work _ => t.stopEvents work ++ [lowered]
    | _ => []
  rest_next {stage s x s'} h := by
    cases stage with
    | called work =>
        obtain ⟨rfl, -⟩ := Prod.mk.inj (Option.some.inj h)
        rfl
    | queued work ticket =>
        simp only [restAt, Activity.turn?] at h
        split at h
        · obtain ⟨rfl, -⟩ := Prod.mk.inj (Option.some.inj h)
          rfl
        · contradiction
    | admitted work ticket =>
        obtain ⟨rfl, -⟩ := Prod.mk.inj (Option.some.inj h)
        rfl
    | working work ticket =>
        simp only [restAt, Activity.turn?_guarded (Activity.result?_guarded ..)] at h ⊢
        cases hresult : (t.rest work).result? with
        | some result =>
            rw [Activity.eq_done_of_result? hresult] at h
            obtain ⟨rfl, -⟩ := Prod.mk.inj (Option.some.inj h)
            rfl
        | none =>
            rw [Activity.turn?_guarded hresult] at h
            cases hturn : (t.rest work).turn? s with
            | none => simp [hturn] at h
            | some next =>
                obtain ⟨y, s''⟩ := next
                rw [hturn] at h
                obtain ⟨rfl, -⟩ := Prod.mk.inj (Option.some.inj h)
                rw [t.rest_next hturn]
    | lowered result ticket =>
        obtain ⟨rfl, -⟩ := Prod.mk.inj (Option.some.inj h)
        rfl
    | finished result => contradiction

/-! ## What a refresh can do -/

section Moves

variable {t : Tracking σ ε α ρ} {raised lowered : ε}

/-- What a turn of a refresh can be. -/
inductive Moves (t : Tracking σ ε α ρ) (raised lowered : ε) (s : σ) :
    RefreshStage ρ α → RefreshStage ρ α × σ × List ε → Prop where
  | join (work : ρ) :
    Moves t raised lowered s (.called work)
      (.queued work (g.lock.get s).nextTicket, g.lock.modify Lock.join s, [])
  | enter (work : ρ) (ticket : Nat) (hhead : (g.lock.get s).queue.head? = some ticket) :
    Moves t raised lowered s (.queued work ticket) (.admitted work ticket, s, [])
  | raise (work : ρ) (ticket : Nat) :
    Moves t raised lowered s (.admitted work ticket)
      (.working work ticket, Gate.raise g.flag g.purge s, [raised])
  | work (work : ρ) (ticket : Nat) (s' : σ)
    (hturn : (t.rest work).turn? s = some (t.rest (t.next work s), s')) :
    Moves t raised lowered s (.working work ticket)
      (.working (t.next work s) ticket, s', t.events work s)
  | lower (work : ρ) (ticket : Nat) (result : α) (hdone : t.rest work = .done result) :
    Moves t raised lowered s (.working work ticket)
      (.lowered result ticket, g.flag.set false s, [lowered])
  | leave (result : α) (ticket : Nat) :
    Moves t raised lowered s (.lowered result ticket) (.finished result, g.leave ticket s, [])

/-- A refresh that goes on does one of these. -/
theorem moves_of_go? {stage : RefreshStage ρ α} {s : σ} {next : RefreshStage ρ α × σ × List ε}
    (h : (g.tracking t raised lowered).conduct.go? stage s = some next) :
    g.Moves t raised lowered s stage next := by
  obtain ⟨⟨x, s'⟩, hturn, rfl⟩ := Option.map_eq_some_iff.mp h
  cases stage with
  | called work =>
      obtain ⟨-, rfl⟩ := Prod.mk.inj (Option.some.inj hturn)
      exact .join work
  | queued work ticket =>
      simp only [tracking, restAt, Activity.turn?] at hturn
      split at hturn
      · next hheld =>
          obtain ⟨-, rfl⟩ := Prod.mk.inj (Option.some.inj hturn)
          exact .enter work ticket (beq_iff_eq.mp hheld)
      · contradiction
  | admitted work ticket =>
      obtain ⟨-, rfl⟩ := Prod.mk.inj (Option.some.inj hturn)
      exact .raise work ticket
  | working work ticket =>
      simp only [tracking, restAt, Activity.turn?_guarded (Activity.result?_guarded ..)]
        at hturn ⊢
      cases hresult : (t.rest work).result? with
      | some result =>
          have hdone := Activity.eq_done_of_result? hresult
          rw [hdone] at hturn
          obtain ⟨-, rfl⟩ := Prod.mk.inj (Option.some.inj hturn)
          exact .lower work ticket result hdone
      | none =>
          rw [Activity.turn?_guarded hresult] at hturn
          cases hwork : (t.rest work).turn? s with
          | none => simp [hwork] at hturn
          | some next =>
              obtain ⟨y, s''⟩ := next
              rw [hwork] at hturn
              obtain ⟨-, rfl⟩ := Prod.mk.inj (Option.some.inj hturn)
              exact .work work ticket s'' (t.rest_next hwork ▸ hwork)
  | lowered result ticket =>
      obtain ⟨-, rfl⟩ := Prod.mk.inj (Option.some.inj hturn)
      exact .leave result ticket
  | finished result => contradiction

/-- What is left of the work does what the work does. -/
theorem Moves.keeps {R : σ → σ → Prop} (hrefl : ∀ s, R s s) {stage : RefreshStage ρ α} {s : σ}
    {next : RefreshStage ρ α × σ × List ε} (h : g.Moves t raised lowered s stage next)
    (hwork : ∀ work, stage.work? = some work → (t.rest work).Keeps R) :
    ∀ work, next.1.work? = some work → (t.rest work).Keeps R := by
  intro work' hwork'
  cases h with
  | join work | enter work ticket | raise work ticket => exact hwork work' hwork'
  | work work ticket s' hturn =>
      rw [← Option.some.inj hwork']
      exact ((hwork work rfl).turn hrefl hturn).2
  | lower | leave => contradiction

/-- What stopping a refresh can be. -/
inductive Halts (t : Tracking σ ε α ρ) (lowered : ε) (s : σ) :
    RefreshStage ρ α → σ × List ε → Prop where
  | queued (work : ρ) (ticket : Nat) :
    Halts t lowered s (.queued work ticket) (g.leave ticket s, [])
  | working (work : ρ) (ticket : Nat) (s' : σ) (hstop : (t.rest work).stop? s = some s') :
    Halts t lowered s (.working work ticket)
      (g.leave ticket (g.flag.set false s'), t.stopEvents work ++ [lowered])

/-- A refresh that is stopped waits for the lock or does its work. -/
theorem halts_of_stop? {stage : RefreshStage ρ α} {s : σ} {rest : σ × List ε}
    (h : (g.tracking t raised lowered).conduct.stop? stage s = some rest) :
    g.Halts t lowered s stage rest := by
  obtain ⟨s', hstop, rfl⟩ := Option.map_eq_some_iff.mp h
  cases stage with
  | called work | admitted work ticket | lowered result ticket | finished result => contradiction
  | queued work ticket => exact Option.some.inj hstop ▸ .queued work ticket
  | working work ticket =>
      simp only [tracking, restAt, Activity.stop?_guarded, Option.map_eq_some_iff] at hstop
      obtain ⟨_, ⟨s'', hwork, rfl⟩, rfl⟩ := hstop
      exact .working work ticket s'' hwork

end Moves

/-! ## Exclusion -/

/-- What the stages of all refreshes and the state have in common. -/
structure Exclusive (stages : Nat → Option (RefreshStage ρ α)) (s : σ) : Prop where
  /-- Tickets in use were drawn. -/
  ticket_lt : ∀ {i stage ticket}, stages i = some stage → stage.ticket? = some ticket →
    ticket < (g.lock.get s).nextTicket
  /-- No two refreshes have one ticket. -/
  ticket_unique : ∀ {i j stage stage' ticket}, stages i = some stage → stages j = some stage' →
    stage.ticket? = some ticket → stage'.ticket? = some ticket → i = j
  /-- Who holds the lock is at the head of the queue. -/
  head_eq : ∀ {i stage ticket}, stages i = some stage → stage.ticket? = some ticket →
    stage.Holds → (g.lock.get s).queue.head? = some ticket
  /-- While a refresh works, the flag is up. -/
  flag_up : ∀ {i stage}, stages i = some stage → stage.Working → g.flag.get s = true

namespace Exclusive

variable {g} {stages : Nat → Option (RefreshStage ρ α)} {s s' : σ}

/-- Refreshes that were only called have no part in the lock. -/
theorem of_called (h : ∀ i stage, stages i = some stage → ∃ work, stage = .called work) (s : σ) :
    g.Exclusive stages s where
  ticket_lt hi hticket := by
    obtain ⟨work, rfl⟩ := h _ _ hi
    contradiction
  ticket_unique hi _ hticket _ := by
    obtain ⟨work, rfl⟩ := h _ _ hi
    contradiction
  head_eq hi hticket _ := by
    obtain ⟨work, rfl⟩ := h _ _ hi
    contradiction
  flag_up hi hworking := by
    obtain ⟨work, rfl⟩ := h _ _ hi
    exact hworking.elim

/-- Only one refresh holds the lock. -/
theorem holder_unique (h : g.Exclusive stages s) {i j : Nat} {stage stage' : RefreshStage ρ α}
    (hi : stages i = some stage) (hj : stages j = some stage') (hholds : stage.Holds)
    (hholds' : stage'.Holds) : i = j := by
  have hticket : ∀ {stage : RefreshStage ρ α}, stage.Holds →
      ∃ ticket, stage.ticket? = some ticket := by
    intro stage hstage
    cases stage with
    | called | queued | finished => exact hstage.elim
    | admitted _ ticket | working _ ticket | lowered _ ticket => exact ⟨ticket, rfl⟩
  obtain ⟨ticket, hticket₁⟩ := hticket hholds
  obtain ⟨ticket', hticket₂⟩ := hticket hholds'
  have hhead := (h.head_eq hi hticket₁ hholds).symm.trans (h.head_eq hj hticket₂ hholds')
  rw [Option.some.injEq] at hhead
  exact h.ticket_unique hi hj hticket₁ (hhead ▸ hticket₂)

theorem of_untouched (h : g.Exclusive stages s) (hsame : g.Untouched s s') :
    g.Exclusive stages s' where
  ticket_lt hi hticket := hsame.2 ▸ h.ticket_lt hi hticket
  ticket_unique := h.ticket_unique
  head_eq hi hticket hholds := hsame.2 ▸ h.head_eq hi hticket hholds
  flag_up hi hworking := hsame.1 ▸ h.flag_up hi hworking

/-- A refresh goes to a stage with its ticket and leaves the lock alone. -/
theorem replace (h : g.Exclusive stages s) {i : Nat} {stage next : RefreshStage ρ α}
    (hi : stages i = some stage) (hticket : next.ticket? = stage.ticket?)
    (hlock : g.lock.get s' = g.lock.get s)
    (hhead : ∀ ticket, stage.ticket? = some ticket → next.Holds →
      (g.lock.get s).queue.head? = some ticket)
    (hflag : next.Working → g.flag.get s' = true)
    (hother : ∀ j stage', j ≠ i → stages j = some stage' → stage'.Working → g.flag.get s' = true) :
    g.Exclusive (Function.update stages i (some next)) s' := by
  -- every refresh has the ticket that it had, and only this one may come to hold the lock
  have hbefore : ∀ {j stage'}, Function.update stages i (some next) j = some stage' →
      ∃ before, stages j = some before ∧ stage'.ticket? = before.ticket? ∧
        (j = i ∧ stage' = next ∨ stage' = before) := by
    intro j stage' hj
    rcases Pool.update_eq_some_iff.mp hj with ⟨rfl, heq⟩ | ⟨-, hj⟩
    · obtain rfl := Option.some.inj heq
      exact ⟨stage, hi, hticket, .inl ⟨rfl, rfl⟩⟩
    · exact ⟨stage', hj, rfl, .inr rfl⟩
  refine ⟨?_, ?_, ?_, ?_⟩
  · intro j stage' ticket hj hticket'
    obtain ⟨before, hbefore, hsame, -⟩ := hbefore hj
    exact hlock ▸ h.ticket_lt hbefore (hsame ▸ hticket')
  · intro j k stage₁ stage₂ ticket hj hk hticket₁ hticket₂
    obtain ⟨before₁, hbefore₁, hsame₁, -⟩ := hbefore hj
    obtain ⟨before₂, hbefore₂, hsame₂, -⟩ := hbefore hk
    exact h.ticket_unique hbefore₁ hbefore₂ (hsame₁ ▸ hticket₁) (hsame₂ ▸ hticket₂)
  · intro j stage' ticket hj hticket' hholds
    obtain ⟨before, hbefore, hsame, ⟨rfl, rfl⟩ | rfl⟩ := hbefore hj
    · exact hlock ▸ hhead ticket (hticket ▸ hticket') hholds
    · exact hlock ▸ h.head_eq hbefore hticket' hholds
  · intro j stage'
    refine Pool.forall_update hother fun stage' heq => ?_
    rwa [← Option.some.inj heq]

/-- A refresh draws a ticket. -/
theorem join (h : g.Exclusive stages s) {i : Nat} {work : ρ} :
    g.Exclusive
      (Function.update stages i (some (.queued work (g.lock.get s).nextTicket)))
      (g.lock.modify Lock.join s) := by
  have hlock : g.lock.get (g.lock.modify Lock.join s) = (g.lock.get s).join := g.lock.get_set ..
  have hflag : g.flag.get (g.lock.modify Lock.join s) = g.flag.get s := g.flag_set_lock ..
  -- the new ticket is greater than every other one
  have hticket : ∀ {j stage ticket},
      Function.update stages i (some (.queued work (g.lock.get s).nextTicket)) j = some stage →
      stage.ticket? = some ticket →
      j = i ∧ ticket = (g.lock.get s).nextTicket ∧ ¬ stage.Holds ∨
        j ≠ i ∧ stages j = some stage ∧ ticket < (g.lock.get s).nextTicket := by
    intro j stage ticket hj hticket
    rcases Pool.update_eq_some_iff.mp hj with ⟨hji, heq⟩ | ⟨hji, hj⟩
    · obtain rfl := Option.some.inj heq
      exact .inl ⟨hji, (Option.some.inj hticket).symm, id⟩
    · exact .inr ⟨hji, hj, h.ticket_lt hj hticket⟩
  refine ⟨?_, ?_, ?_, ?_⟩
  · intro j stage ticket hj hticket'
    rw [hlock]
    change ticket < (g.lock.get s).nextTicket + 1
    rcases hticket hj hticket' with ⟨-, hnew, -⟩ | ⟨-, -, hold⟩ <;> omega
  · intro j k stage₁ stage₂ ticket hj hk hticket₁ hticket₂
    rcases hticket hj hticket₁ with ⟨rfl, hnew, -⟩ | ⟨-, hj', hold⟩ <;>
      rcases hticket hk hticket₂ with ⟨rfl, hnew', -⟩ | ⟨-, hk', hold'⟩
    · rfl
    · omega
    · omega
    · exact h.ticket_unique hj' hk' hticket₁ hticket₂
  · intro j stage ticket hj hticket' hholds
    rcases hticket hj hticket' with ⟨-, -, hnot⟩ | ⟨-, hj', -⟩
    · contradiction
    · have hhead := h.head_eq hj' hticket' hholds
      rw [hlock]
      change ((g.lock.get s).queue ++ [_]).head? = some ticket
      rw [List.head?_append, hhead]
      rfl
  · intro j stage
    rw [hflag]
    refine Pool.forall_update (fun j stage _ hj => h.flag_up hj) fun stage heq hworking => ?_
    rw [← Option.some.inj heq] at hworking
    exact hworking.elim

/-- A refresh gives its ticket back. -/
theorem leave (h : g.Exclusive stages s) {i ticket : Nat} {stage : RefreshStage ρ α}
    {next : Option (RefreshStage ρ α)} (hi : stages i = some stage)
    (hticket : stage.ticket? = some ticket)
    (hnext : ∀ stage', next = some stage' → stage'.ticket? = none)
    (hlock : g.lock.get s' = (g.lock.get s).leave ticket)
    (hflag : ∀ j stage', j ≠ i → stages j = some stage' → stage'.Working → g.flag.get s' = true) :
    g.Exclusive (Function.update stages i next) s' := by
  -- whoever has a ticket now is another refresh, and has another ticket
  have hother : ∀ {j stage' ticket'}, Function.update stages i next j = some stage' →
      stage'.ticket? = some ticket' → stages j = some stage' ∧ ticket' ≠ ticket := by
    intro j stage' ticket' hj hticket'
    rcases Pool.update_eq_some_iff.mp hj with ⟨-, heq⟩ | ⟨hji, hj⟩
    · rw [hnext stage' heq] at hticket'
      contradiction
    · refine ⟨hj, ?_⟩
      rintro rfl
      exact hji (h.ticket_unique hj hi hticket' hticket)
  refine ⟨?_, ?_, ?_, ?_⟩
  · intro j stage' ticket' hj hticket'
    rw [hlock]
    exact h.ticket_lt (hother hj hticket').1 hticket'
  · intro j k stage₁ stage₂ ticket' hj hk hticket₁ hticket₂
    exact h.ticket_unique (hother hj hticket₁).1 (hother hk hticket₂).1 hticket₁ hticket₂
  · intro j stage' ticket' hj hticket' hholds
    obtain ⟨hj', hne⟩ := hother hj hticket'
    have hhead := h.head_eq hj' hticket' hholds
    obtain ⟨rest, hqueue⟩ := List.head?_eq_some_iff.mp hhead
    rw [hlock]
    change ((g.lock.get s).queue.filter (· ≠ ticket)).head? = some ticket'
    rw [hqueue, List.filter_cons_of_pos (by simpa using hne)]
    rfl
  · intro j stage'
    refine Pool.forall_update hflag fun stage' heq hworking => ?_
    have hnone := hnext stage' heq
    cases stage' with
    | working => contradiction
    | called | queued | admitted | lowered | finished => exact hworking.elim

/-- **A turn of a refresh** keeps the exclusion, provided that its work touches neither flag nor
lock. -/
theorem go (h : g.Exclusive stages s) {t : Tracking σ ε α ρ} {raised lowered : ε} {i : Nat}
    {stage : RefreshStage ρ α} {next : RefreshStage ρ α × σ × List ε} (hi : stages i = some stage)
    (hwork : ∀ work, stage.work? = some work → (t.rest work).Keeps g.Untouched)
    (hmove : g.Moves t raised lowered s stage next) :
    g.Exclusive (Function.update stages i (some next.1)) next.2.1 := by
  -- only the refresh itself holds the lock while it works
  have halone : stage.Holds → ∀ j stage', j ≠ i → stages j = some stage' → ¬ stage'.Working :=
    fun hholds j stage' hji hj hworking =>
      hji (h.holder_unique hj hi hworking.holds hholds)
  cases hmove with
  | join work => exact h.join
  | enter work ticket hhead =>
      exact h.replace hi rfl rfl (fun _ heq _ => heq ▸ hhead) (fun hworking => hworking.elim)
        fun _ _ _ hj => h.flag_up hj
  | raise work ticket =>
      have hlock : g.lock.get (Gate.raise g.flag g.purge s) = g.lock.get s := by
        rw [Gate.raise, g.lock_purge, g.lock_set_flag]
      have hflag : g.flag.get (Gate.raise g.flag g.purge s) = true := by
        rw [Gate.raise, g.flag_purge, g.flag.get_set]
      exact h.replace hi rfl hlock (fun _ heq _ => h.head_eq hi heq trivial) (fun _ => hflag)
        fun _ _ _ _ _ => hflag
  | work work ticket s' hturn =>
      obtain ⟨hsame, -⟩ := (hwork work rfl).turn g.untouched_refl hturn
      have hup : g.flag.get s' = true := hsame.1.trans (h.flag_up hi trivial)
      exact h.replace hi rfl hsame.2 (fun _ heq _ => h.head_eq hi heq trivial) (fun _ => hup)
        fun _ _ _ _ _ => hup
  | lower work ticket result hdone =>
      exact h.replace hi rfl (g.lock_set_flag ..) (fun _ heq _ => h.head_eq hi heq trivial)
        (fun hworking => hworking.elim) fun j stage' hji hj hworking =>
          (halone trivial j stage' hji hj hworking).elim
  | leave result ticket =>
      refine h.leave hi rfl (fun stage' hstage => ?_) (g.lock.get_set ..)
        fun j stage' hji hj hworking => (halone trivial j stage' hji hj hworking).elim
      rw [← Option.some.inj hstage]
      rfl

/-- **Stopping a refresh** keeps the exclusion, also while it works. -/
theorem stop (h : g.Exclusive stages s) {t : Tracking σ ε α ρ} {lowered : ε} {i : Nat}
    {stage : RefreshStage ρ α} {rest : σ × List ε} (hi : stages i = some stage)
    (hwork : ∀ work, stage.work? = some work → (t.rest work).Keeps g.Untouched)
    (hhalt : g.Halts t lowered s stage rest) :
    g.Exclusive (Function.update stages i none) rest.1 := by
  have hnone : ∀ stage' : RefreshStage ρ α, none = some stage' → stage'.ticket? = none :=
    fun _ heq => by contradiction
  cases hhalt with
  | queued work ticket =>
      refine h.leave hi rfl hnone (g.lock.get_set ..) fun j stage' _ hj hworking => ?_
      exact (g.flag_set_lock ..).trans (h.flag_up hj hworking)
  | working work ticket s' hstop =>
      have hsame := (hwork work rfl).stop hstop
      refine h.leave hi rfl hnone ?_ fun j stage' hji hj hworking =>
        (hji (h.holder_unique hj hi hworking.holds trivial)).elim
      rw [SerialGate.leave, Field.modify, g.lock.get_set, g.lock_set_flag, hsame.2]

end Exclusive

end SerialGate

end AttrFederation
