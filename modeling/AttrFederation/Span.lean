import AttrFederation.Json

/-!
# Spans of time

A span is a whole number of seconds and a fraction in nanoseconds.  Its JSON form is a record of
the two; a fraction of a second or more carries over into the seconds when it is read.
-/

namespace AttrFederation

/-- Nanoseconds in a second. -/
def nanosPerSecond : Nat := 1000000000

/-- A length of time. -/
structure Span where
  secs : UInt64
  /-- The fraction of a second. -/
  nanos : Fin nanosPerSecond
deriving DecidableEq, Repr

namespace Span

instance : Inhabited Span := ⟨⟨0, ⟨0, by decide⟩⟩⟩

def ofSecs (secs : UInt64) : Span :=
  ⟨secs, ⟨0, by decide⟩⟩

/-- A span of so many nanoseconds. -/
def ofNanos (n : Nat) : Span :=
  ⟨UInt64.ofNat (n / nanosPerSecond), ⟨n % nanosPerSecond, Nat.mod_lt _ (by decide)⟩⟩

def toNanos (d : Span) : Nat :=
  d.secs.toNat * nanosPerSecond + d.nanos.val

/-- The length in whole milliseconds, a fraction of one counting in full. -/
def toMillis (d : Span) : Nat :=
  (d.toNanos + 999999) / 1000000

/-- A span as a record of seconds and nanoseconds. -/
def toJson (d : Span) : Json :=
  .object [("secs", .natural d.secs.toNat), ("nanos", .natural d.nanos.val)]

/-- The span of so many seconds and nanoseconds, unless the seconds overflow. -/
def ofParts? (secs : UInt64) (nanos : UInt32) : Option Span :=
  let seconds := secs.toNat + nanos.toNat / nanosPerSecond
  if seconds < UInt64.size then
    some ⟨UInt64.ofNat seconds, ⟨nanos.toNat % nanosPerSecond, Nat.mod_lt _ (by decide)⟩⟩
  else none

/-- A span is read from exactly its two fields. -/
def ofJson? : Json → Option Span
  | .object members =>
    if members.all (fun (name, _) => name == "secs" || name == "nanos") then do
      let secs ← (members.lookup "secs").bind Json.uint64?
      let nanos ← (members.lookup "nanos").bind Json.uint32?
      ofParts? secs nanos
    else none
  | .array [secs, nanos] => do
    ofParts? (← secs.uint64?) (← nanos.uint32?)
  | _ => none

end Span

end AttrFederation
