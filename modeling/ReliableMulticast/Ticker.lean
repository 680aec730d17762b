import ReliableMulticast.Duration

/-!
Periodic timers. A timer rings at the first whole millisecond at or after its deadline. A ring
that comes late is either made up for, so that the count of rings stays right, or it delays all
later ones, so that their distance stays right.
-/

namespace ReliableMulticast

/-- The whole milliseconds before a point in time. -/
def millisFloor (t : Instant) : Nat := t / 1000000

/-- The first whole millisecond at or after a point in time. -/
def millisCeil (t : Instant) : Nat := (t + 999999) / 1000000

/-- What becomes of the rings after a late one. -/
inductive Lateness
  | makeUp
  | delay
deriving DecidableEq, Repr, Inhabited

structure Ticker where
  period : Duration
  next : Instant
  lateness : Lateness
deriving DecidableEq, Repr, Inhabited

namespace Ticker

/-- A ticker whose first ring, at `start`, has passed. -/
def startedAt (start : Instant) (period : Duration) (lateness : Lateness) : Ticker :=
  ⟨period, start + period.nanos, lateness⟩

/-- How much later than its deadline a ring may come without being late. -/
def grace : Duration := .ofMillis 5

def dueAt (t : Ticker) : Nat := millisCeil t.next

def isDue (t : Ticker) (now : Instant) : Bool := t.dueAt ≤ millisFloor now

def isLate (t : Ticker) (now : Instant) : Bool := t.next + grace.nanos < now

/-- The ticker after it rang. -/
def ring (t : Ticker) (now : Instant) : Ticker :=
  match t.lateness with
  | .makeUp => { t with next := t.next + t.period.nanos }
  | .delay => { t with next := (if t.isLate now then now else t.next) + t.period.nanos }

end Ticker

end ReliableMulticast
