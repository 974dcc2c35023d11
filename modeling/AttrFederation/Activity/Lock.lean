import AttrFederation.Activity.Basic
import AttrFederation.Activity.Field

/-!
# Fair locks

A lock is held by one activity at a time and goes to the others in the order in which they asked.
It is a queue of tickets: who asks draws a ticket and joins the queue, the head of the queue holds
the lock, and releasing it takes the head away.
-/

namespace AttrFederation

/-- The tickets of the holder and, behind it, of those who wait. -/
structure Lock where
  /-- The queue; its head holds the lock. -/
  queue : List Nat := []
  nextTicket : Nat := 0
deriving DecidableEq, Repr

namespace Lock

/-- One more ticket at the end of the queue. -/
def join (lock : Lock) : Lock :=
  ⟨lock.queue ++ [lock.nextTicket], lock.nextTicket + 1⟩

/-- The ticket is at the head of the queue. -/
def heldBy (lock : Lock) (ticket : Nat) : Bool :=
  lock.queue.head? == some ticket

/-- The queue without a ticket. -/
def leave (lock : Lock) (ticket : Nat) : Lock :=
  { lock with queue := lock.queue.filter (· ≠ ticket) }

/-- An activity that holds a lock while it runs, and waits for the lock first. -/
def holding {σ α : Type} (field : Field σ Lock) (body : Activity σ α) : Activity σ α :=
  .step (field.modify join) fun s =>
    let ticket := (field.get s).nextTicket
    .await (fun s => (field.get s).heldBy ticket) (field.modify (·.leave ticket))
      (body.guarded (field.modify (·.leave ticket)))

end Lock

end AttrFederation
