import AttrFederation.Assoc
import AttrFederation.OrgUnit
import AttrFederation.Record
import AttrFederation.Settings

/-!
# Cache regions

A region holds values under keys, within a bound on the number of entries and a bound on their
bytes.  Three parts describe it together:

* `slots` — each key's value, when it was stored, its size and its sequence number;
* `age` — the sequence numbers and keys, oldest first, which is the order of eviction;
* `bytes` — the total size.

Storing an absent key first evicts the oldest entries until the new one fits; storing a present key
evicts nothing and makes the entry the newest.  An entry is dropped by the first read that finds it
older than the time to live.  Every operation that depends on time takes the present instant, in
nanoseconds, as `now`.
-/

namespace AttrFederation

/-- Values with a size in bytes. -/
class Measured (V : Type) where
  /-- The bytes that a value takes. -/
  size : V → Nat

instance : Measured Record := ⟨Record.size⟩

instance : Measured OrgUnit := ⟨OrgUnit.size⟩

/-- What a region keeps for a key. -/
structure Slot (V : Type) where
  value : V
  /-- When it was stored. -/
  cachedAt : Nat
  /-- The bytes it counts for. -/
  size : Nat
  /-- Its number in the order of storing. -/
  seq : Nat
deriving DecidableEq, Repr

/-- What a region counts. -/
structure RegionCounts where
  hits : Nat := 0
  /-- Reads that found none. -/
  misses : Nat := 0
  /-- Entries dropped because they were too old. -/
  expirations : Nat := 0
  evictions : Nat := 0
deriving DecidableEq, Repr

/-- A bounded store of values. -/
structure Region (V : Type) where
  settings : RegionSettings
  slots : Assoc (Slot V) := ∅
  /-- Sequence numbers and keys, oldest first. -/
  age : List (Nat × String) := []
  /-- The total size of the entries. -/
  bytes : Nat := 0
  /-- The sequence number of the next entry. -/
  nextSeq : Nat := 0
  counts : RegionCounts := {}
deriving DecidableEq, Repr

structure RegionStats where
  counts : RegionCounts := {}
  entries : Nat := 0
  /-- The bound on the number of entries. -/
  maxEntries : Nat := 0
  /-- The total size of the entries. -/
  bytes : Nat := 0
deriving DecidableEq, Repr

/-- The part of the reads that found an entry, zero without reads. -/
def RegionCounts.hitRate (c : RegionCounts) : Float :=
  if c.hits + c.misses = 0 then 0
  else (UInt64.ofNat c.hits).toFloat / (UInt64.ofNat (c.hits + c.misses)).toFloat

namespace Region

variable {V : Type}

/-! ## Questions -/

/-- An entry stored at `since` is too old. -/
def expired (r : Region V) (now since : Nat) : Bool :=
  match r.settings.ttl.lifetime? with
  | none => false
  | some lifetime => lifetime.toNanos < now - since

/-- The bytes that an entry takes beside its key and value. -/
def slotOverhead : Nat := 64

def slotSize [Measured V] (key : String) (value : V) : Nat :=
  Measured.size value + key.utf8ByteSize + slotOverhead

/-- The region has an entry for a key, expired or not. -/
def contains (r : Region V) (key : String) : Bool :=
  r.slots.contains key

def size (r : Region V) : Nat :=
  r.slots.size

def isEmpty (r : Region V) : Bool :=
  r.size = 0

/-- The keys, in ascending order. -/
def keys (r : Region V) : List String :=
  Record.sorted r.slots.keys

def stats (r : Region V) : RegionStats where
  counts := r.counts
  entries := r.size
  maxEntries := r.settings.maxObjects.toNat
  bytes := r.bytes

/-! ## Dropping entries -/

/-- The region without an entry's key, number and bytes. -/
def drop (r : Region V) (key : String) (slot : Slot V) : Region V :=
  { r with
    slots := r.slots.erase key
    age := r.age.filter fun (seq, _) => seq ≠ slot.seq
    bytes := r.bytes - slot.size }

/-- The region without a key, and whether it had one. -/
def remove (r : Region V) (key : String) : Bool × Region V :=
  match r.slots.get? key with
  | some slot => (true, r.drop key slot)
  | none => (false, r)

/-- The region without entries; its counts stay. -/
def clear (r : Region V) : Region V :=
  { r with slots := ∅, age := [], bytes := 0 }

/-! ## Reading -/

/-- The value of a key that has not expired.  A read that finds an expired entry drops it. -/
def get (r : Region V) (now : Nat) (key : String) : Option V × Region V :=
  match r.slots.get? key with
  | none => (none, { r with counts.misses := r.counts.misses + 1 })
  | some slot =>
    if r.expired now slot.cachedAt then
      (none,
        { r.drop key slot with
          counts.expirations := r.counts.expirations + 1
          counts.misses := r.counts.misses + 1 })
    else (some slot.value, { r with counts.hits := r.counts.hits + 1 })

/-! ## Storing -/

/-- There is room for an entry of so many bytes. -/
def hasRoom (r : Region V) (incoming : Nat) : Bool :=
  r.size < r.settings.maxObjects.toNat && r.bytes + incoming ≤ r.settings.heapBytes

/-- The region after its oldest entry has gone, unless the key was stored anew under a later
number. -/
def evict (r : Region V) (seq : Nat) (key : String) (younger : List (Nat × String)) : Region V :=
  match r.slots.get? key with
  | some slot =>
    if slot.seq = seq then
      { r with
        slots := r.slots.erase key
        age := younger
        bytes := r.bytes - slot.size
        counts.evictions := r.counts.evictions + 1 }
    else { r with age := younger }
  | none => { r with age := younger }

/-- Evicts the entries of a list, oldest first, until an entry of so many bytes has room. -/
def evictUntilRoom (incoming : Nat) : List (Nat × String) → Region V → Region V
  | [], r => r
  | (seq, key) :: younger, r =>
    if r.hasRoom incoming then r else evictUntilRoom incoming younger (r.evict seq key younger)

/-- Makes room for an entry of so many bytes, as far as that can be done. -/
def makeRoom (r : Region V) (incoming : Nat) : Region V :=
  evictUntilRoom incoming r.age r

/-- Stores an entry under the next number, in place of what the key had. -/
def store (r : Region V) (now : Nat) (key : String) (value : V) (size : Nat) : Region V :=
  let slot : Slot V := ⟨value, now, size, r.nextSeq⟩
  let (bytes, age) :=
    match r.slots.get? key with
    | some previous =>
      (r.bytes + size - previous.size, r.age.filter fun (seq, _) => seq ≠ previous.seq)
    | none => (r.bytes + size, r.age)
  { r with
    slots := r.slots.set key slot
    age := age ++ [(r.nextSeq, key)]
    bytes
    nextSeq := r.nextSeq + 1 }

/-- Stores a value under a key and starts its lifetime anew. -/
def put [Measured V] (r : Region V) (now : Nat) (key : String) (value : V) : Region V :=
  let size := slotSize key value
  let r := if r.contains key then r else r.makeRoom size
  r.store now key value size

end Region

end AttrFederation
