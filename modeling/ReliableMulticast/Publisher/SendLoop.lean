import ReliableMulticast.Publisher.Transmitter
import ReliableMulticast.Ticker

/-!
A transmitter with its two periodic timers: one trims the frames it keeps, the other sends
heartbeats.
-/

namespace ReliableMulticast

structure SendLoop where
  transmitter : Transmitter
  trim : Ticker
  heartbeat : Ticker
deriving DecidableEq, Repr, Inhabited

namespace SendLoop

/-- The loop after the first ring of its timers, at the time it was started. A trim that is late
is made up for; a late heartbeat is sent once and delays the next. -/
def new (settings : Settings) (now : Instant) : SendLoop :=
  { transmitter := .new settings now
    trim := .startedAt now settings.trimInterval .makeUp
    heartbeat := .startedAt now settings.heartbeatInterval .delay }

def onTask (l : SendLoop) (now : Instant) (task : Transmitter.Task) : SendLoop × List Datagram :=
  let (transmitter, sent) := l.transmitter.onTask now task
  ({ l with transmitter := transmitter }, sent)

def onTasks (now : Instant) : List Transmitter.Task → SendLoop → SendLoop × List Datagram
  | [], l => (l, [])
  | task :: rest, l =>
    let (l, sent) := l.onTask now task
    let (l, more) := onTasks now rest l
    (l, sent ++ more)

/-- The whole millisecond at which the next timer rings. -/
def dueAt (l : SendLoop) : Nat := min l.trim.dueAt l.heartbeat.dueAt

/-- Lets one timer ring that is due, if there is one. The heartbeat's stamp is the clock's time. -/
def ring? (l : SendLoop) (now : Instant) : Option (SendLoop × List Datagram) :=
  if l.trim.isDue now then
    some ({ l with transmitter := l.transmitter.onTrimTick, trim := l.trim.ring now }, [])
  else if l.heartbeat.isDue now then
    let (transmitter, sent) := l.transmitter.onHeartbeatTick now ⟨now⟩
    some ({ l with transmitter := transmitter, heartbeat := l.heartbeat.ring now }, sent)
  else none

/-- Lets timers ring until none is due. -/
def ringAll : Nat → SendLoop → Instant → SendLoop × List Datagram
  | 0, l, _ => (l, [])
  | fuel + 1, l, now =>
    match l.ring? now with
    | none => (l, [])
    | some (l, sent) =>
      let (l, more) := ringAll fuel l now
      (l, sent ++ more)

/-- No more rings than this are due at a time: each moves a deadline by a millisecond or more. -/
def ringLimit (now : Instant) : Nat := 2 * (millisFloor now + 2)

def ringDue (l : SendLoop) (now : Instant) : SendLoop × List Datagram :=
  ringAll (ringLimit now) l now

/-- Lets time pass up to the whole millisecond `target`, each ring at its time. The clock moves by
whole milliseconds. -/
def advanceTo : Nat → SendLoop → Instant → Nat → SendLoop × Instant × List Datagram
  | 0, l, now, _ => (l, now, [])
  | fuel + 1, l, now, target =>
    let time := min l.dueAt target
    let now := now + (time - millisFloor now) * 1000000
    let (l, sent) := l.ringDue now
    if target ≤ time then (l, now, sent)
    else
      let (l, now, more) := advanceTo fuel l now target
      (l, now, sent ++ more)

/-- Lets this much time pass. -/
def advance (l : SendLoop) (now : Instant) (d : Duration) : SendLoop × Instant × List Datagram :=
  let target := millisCeil (now + d.nanos)
  advanceTo (target + 1) l now target

end SendLoop

end ReliableMulticast
