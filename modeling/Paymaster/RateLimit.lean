import Paymaster.Text.Blank
/-!
# Rate limits

Calls are counted for each key in windows of fixed length. A call is denied when its key has used up
the window, with the time until the next one. The table of keys is bounded: when it is full and a
new key comes, the keys of past windows go first, and if that does not help the oldest key goes.
-/

namespace Paymaster.RateLimit

/-- How calls are limited. -/
structure Policy where
  /-- Calls are limited at all. -/
  enabled : Bool
  /-- The calls of one key in one window. -/
  maxRequests : UInt32
  /-- The length of a window in seconds. -/
  windowSeconds : UInt64
  /-- The keys that are kept. -/
  maxKeys : UInt64
  deriving DecidableEq, Repr

namespace Policy

/-- The length of a window, at least a second. -/
def window (p : Policy) : Nat := max p.windowSeconds.toNat 1

/-- The calls of one key in one window, at least one. -/
def limit (p : Policy) : Nat := max p.maxRequests.toNat 1

/-- The keys that are kept, at least one. -/
def capacity (p : Policy) : Nat := max p.maxKeys.toNat 1

end Policy

/-- What is kept for a key. -/
structure Bucket where
  /-- The first second of the key's window. -/
  start : Nat
  /-- The calls in the window. -/
  count : Nat
  /-- When the key was put into the table, as the number of keys put in before. -/
  seq : UInt64
  deriving DecidableEq, Repr

/-- The keys that are kept. -/
structure Table where
  /-- What is kept for each key. -/
  buckets : List (String × Bucket)
  /-- How many keys have been put in so far, as far as 64 bits can count them. -/
  nextSeq : UInt64
  deriving DecidableEq, Repr

/-- Whether a call is allowed. -/
structure Decision where
  /-- The call is allowed. -/
  allowed : Bool
  /-- The seconds after which a denied caller may come back. -/
  retryAfter : Nat
  deriving DecidableEq, Repr

/-- The call is allowed. -/
def Decision.allow : Decision := ⟨true, 0⟩

namespace Table

/-- The table without keys. -/
def empty : Table := ⟨[], 0⟩

/-- The number of keys. -/
def size (t : Table) : Nat := t.buckets.length

/-- What is kept for a key. -/
def get? (t : Table) (key : String) : Option Bucket := t.buckets.lookup key

/-- The bucket of the window is over at a second. -/
def isOver (window now : Nat) (b : Bucket) : Bool := b.start + window ≤ now

/-- One bucket is older than another: by its window, then by when it was put in. -/
def isOlder (a b : Bucket) : Bool := a.start < b.start || (a.start == b.start && a.seq < b.seq)

/-- The oldest of some buckets, with its key. -/
def oldest? : List (String × Bucket) → Option (String × Bucket)
  | [] => none
  | x :: rest =>
    match oldest? rest with
    | none => some x
    | some y => if isOlder y.2 x.2 then some y else some x

/-- The buckets without that of a key. -/
def without (key : String) (buckets : List (String × Bucket)) : List (String × Bucket) :=
  buckets.filter fun x => x.1 != key

/-- The table with room for one more key: nothing goes while there is room; then the buckets of past
windows, and if that is not enough the oldest. -/
def makeRoom (t : Table) (window capacity now : Nat) : Table :=
  if t.size < capacity then t
  else
    let kept := t.buckets.filter fun x => !isOver window now x.2
    if kept.length < capacity then { t with buckets := kept }
    else
      match oldest? kept with
      | none => { t with buckets := kept }
      | some (key, _) => { t with buckets := without key kept }

/-- The table with a bucket put in for a key, and the bucket. -/
def insert (t : Table) (key : String) (start : Nat) : Table × Bucket :=
  let b : Bucket := ⟨start, 0, t.nextSeq⟩
  ({ t with buckets := (key, b) :: t.buckets }, b)

/-- The table after a bucket was found or put in: if it has the number of the next one, the next one
gets another. -/
def advance (t : Table) (b : Bucket) : Table :=
  if b.seq = t.nextSeq then { t with nextSeq := t.nextSeq + 1 } else t

/-- The table with another bucket for a key. -/
def set (t : Table) (key : String) (b : Bucket) : Table :=
  { t with buckets := t.buckets.map fun x => if x.1 == key then (key, b) else x }

end Table

/-- The key under which a call without a usable key is counted. -/
def unknownKey : String := "<unknown>"

/-- The key under which a call is counted. -/
def effectiveKey (key : String) : String := if Text.isBlankText key then unknownKey else key

/-- The first second of the window around a second. -/
def windowStart (window now : Nat) : Nat := now - now % window

/-- The table in which a key has a bucket, and what the bucket is in the current window. -/
def prepare (p : Policy) (t : Table) (key : String) (now : Nat) : Table × Bucket :=
  let start := windowStart p.window now
  let (t, b) :=
    match t.get? key with
    | some b => (t, b)
    | none => (t.makeRoom p.window p.capacity now).insert key start
  (t.advance b, if b.start = start then b else ⟨start, 0, b.seq⟩)

/-- Decides about a call at a second and counts it if it is allowed. -/
def checkAt (p : Policy) (t : Table) (key : String) (now : Nat) : Decision × Table :=
  let (t, b) := prepare p t key now
  if p.limit ≤ b.count then
    (⟨false, max (b.start + p.window - now) 1⟩, t.set key b)
  else (Decision.allow, t.set key { b with count := b.count + 1 })

/-- Milliseconds in a second. -/
def millisPerSecond : Nat := 1000

/-- Decides about a call at a time in milliseconds. -/
def check (p : Policy) (t : Table) (key : String) (nowMillis : UInt64) : Decision × Table :=
  if p.enabled then checkAt p t (effectiveKey key) (nowMillis.toNat / millisPerSecond)
  else (Decision.allow, t)

end Paymaster.RateLimit
