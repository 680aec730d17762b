import ReliableMulticast.Frame.Basic
import ReliableMulticast.Duration

/-!
What a subscriber hands to the application, and a sink that keeps all of it for those who wait
until enough has come.
-/

namespace ReliableMulticast

inductive Delivery
  /-- A frame of the snapshot that follows a login. -/
  | snapshot (f : Frame)
  /-- The snapshot covers everything below `seq`, and live frames follow from there. -/
  | endOfSnapshot (seq : Nat)
  | message (f : Frame)
deriving DecidableEq, Repr, Inhabited

/-! ### Collecting what is delivered -/

/-- What somebody waits for. -/
inductive Awaited
  | messages (count : Nat)
  | endOfSnapshot
deriving DecidableEq, Repr, Inhabited

structure Waiter where
  number : Nat
  awaited : Awaited
  /-- The next look at the sink. -/
  lookAt : Instant
  /-- When the wait is given up. -/
  giveUpAt : Instant
deriving DecidableEq, Repr, Inhabited

structure Collector where
  now : Instant
  snapshots : List (ChannelId × Frame)
  /-- The newest end of a snapshot. -/
  endSeq : Option Nat
  messages : List (ChannelId × Frame)
  waiters : List Waiter
deriving DecidableEq, Repr, Inhabited

namespace Collector

def new : Collector := ⟨0, [], none, [], []⟩

/-- The pause between two looks of a waiter. -/
def pause : Duration := .ofMillis 5

/-- How long anybody waits. -/
def patience : Duration := .ofSeconds 5

def deliver (c : Collector) (channel : ChannelId) : Delivery → Collector
  | .snapshot f => { c with snapshots := c.snapshots ++ [(channel, f)] }
  | .endOfSnapshot seq => { c with endSeq := some seq }
  | .message f => { c with messages := c.messages ++ [(channel, f)] }

def holds (c : Collector) : Awaited → Bool
  | .messages count => count ≤ c.messages.length
  | .endOfSnapshot => c.endSeq.isSome

/-- How a wait ends: with or without what was awaited. -/
structure Done where
  number : Nat
  found : Bool
deriving DecidableEq, Repr, Inhabited

/-- One look of a waiter: it is done, or it looks again later. -/
def look (c : Collector) (w : Waiter) : Waiter ⊕ Done :=
  if w.lookAt ≤ c.now && c.holds w.awaited then .inr ⟨w.number, true⟩
  else if w.giveUpAt ≤ c.now then .inr ⟨w.number, false⟩
  else if w.lookAt ≤ c.now then .inl { w with lookAt := c.now + pause.nanos }
  else .inl w

/-- Everyone whose time has come looks. -/
def lookAll (c : Collector) : List Done × Collector :=
  let looks := c.waiters.map c.look
  (looks.filterMap (·.getRight?), { c with waiters := looks.filterMap (·.getLeft?) })

/-- A new waiter, known by the number of those before it, looks at once. -/
def await (c : Collector) (awaited : Awaited) : List Done × Collector :=
  let w := ⟨c.waiters.length, awaited, c.now, c.now + patience.nanos⟩
  { c with waiters := c.waiters ++ [w] }.lookAll

/-- The next point in time, not after `limit`, at which somebody looks or gives up. -/
def nextTime (c : Collector) (limit : Instant) : Option Instant :=
  let times := c.waiters.flatMap (fun w => [w.lookAt, w.giveUpAt])
  (times.filter (· ≤ limit)).min?

/-- Time passes until `target`, each look at its time. -/
def advanceTo : Nat → Collector → Instant → List Done × Collector
  | 0, c, target => ([], { c with now := target })
  | fuel + 1, c, target =>
    match c.nextTime target with
    | none => ([], { c with now := target })
    | some time =>
      let (done, c) := { c with now := max c.now time }.lookAll
      let (more, c) := advanceTo fuel c target
      (done ++ more, c)

/-- Lets time pass. Looks are five milliseconds apart, so there are no more of them than
milliseconds for each waiter. -/
def advance (c : Collector) (d : Duration) : List Done × Collector :=
  advanceTo (c.waiters.length * (d.millis + 2) + 1) c (c.now + d.nanos)

end Collector

end ReliableMulticast
