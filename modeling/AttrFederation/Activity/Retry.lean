import AttrFederation.Activity.Basic
import AttrFederation.Settings
import AttrFederation.SourceError

/-!
# Retries

An operation that fails for a reason that may pass is run again, after a pause, so often as the
policy says.  Any other outcome, and the outcome of the last attempt, is the result.
-/

namespace AttrFederation.RetryPolicy

variable {σ α : Type}

/-- An operation with so many further attempts, each after a pause. -/
def attempts (interval : Nat) (operation : Activity σ (Except SourceError α)) :
    Nat → Activity σ (Except SourceError α)
  | 0 => operation
  | retries + 1 =>
    operation.bind fun outcome =>
      match outcome with
      | .ok a => .done (.ok a)
      | .error e =>
        if e.retryable then .sleep interval id (attempts interval operation retries)
        else .done (.error e)

def execute (policy : RetryPolicy) (operation : Activity σ (Except SourceError α)) :
    Activity σ (Except SourceError α) :=
  attempts policy.intervalMillis operation policy.retries.toNat

end AttrFederation.RetryPolicy
