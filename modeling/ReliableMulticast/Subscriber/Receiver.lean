import ReliableMulticast.Link.Status
import ReliableMulticast.Sequence.Arrivals
import ReliableMulticast.Settings
import ReliableMulticast.Subscriber.Sink

/-!
The receiving side of one connection of a subscriber: frames in sequence for the application,
repetition of what is missing, and a watch on signs of life. What it can not mend is answered as a
failure, for the link to connect anew.
-/

namespace ReliableMulticast

/-- What a receiver can not mend. -/
inductive Desync
  | gapTooLarge (gap : Gap)
  | queueOverflow (length : Nat)
  | silent (ticks : Nat)
deriving DecidableEq, Repr, Inhabited

namespace Desync

def message : Desync → String
  | gapTooLarge gap => "gap " ++ gap.text ++ " exceeds the maximum resend gap"
  | queueOverflow length =>
    "receive queue length " ++ toString length ++ " exceeds the maximum queue size"
  | silent ticks => "no traffic for " ++ toString ticks ++ " ticks"

/-- A lost place in the stream is mended at once; a silent publisher is given time. -/
def isImmediate : Desync → Bool
  | silent _ => false
  | _ => true

end Desync

structure Receiver where
  settings : Settings
  /-- Where repetitions are asked for. -/
  resendTo : Endpoint
  queue : Arrivals
  /-- When the open gap is asked for again. -/
  requestAt : Option Instant
  /-- There was traffic since the last tick. -/
  active : Bool
  idleTicks : Nat
  snapshotSeq : Option Nat
  lastHeartbeat : Option Duration
deriving DecidableEq, Repr, Inhabited

namespace Receiver

inductive Output
  | deliver (d : Delivery)
  | send (dest : Endpoint) (f : Frame)
  | warn (text : String)
deriving DecidableEq, Repr, Inhabited

/-- What a receiver answers to an input. -/
structure Answer where
  receiver : Receiver
  outputs : List Output
  failure : Option Desync
deriving DecidableEq, Repr, Inhabited

/-- A receiver waits for the end of the snapshot first. -/
def new (settings : Settings) (resendTo : Endpoint) : Receiver :=
  { settings := settings
    resendTo := resendTo
    queue := .empty
    requestAt := none
    active := false
    idleTicks := 0
    snapshotSeq := none
    lastHeartbeat := none }

def quiet (r : Receiver) : Answer := ⟨r, [], none⟩

/-- The answer with earlier outputs before its own. -/
def Answer.after (a : Answer) (outputs : List Output) : Answer :=
  { a with outputs := outputs ++ a.outputs }

def status (r : Receiver) : Link.QueueStatus :=
  ⟨r.queue.head, r.queue.gap, r.queue.length, r.queue.count⟩

/-! ### Asking for repetition -/

def request (r : Receiver) (gap : Gap) : Output :=
  .send r.resendTo (.control (.resendRequest (.ofNat gap.start) (.ofNat gap.count)) 0)

/-- Asks for a gap and sets the time to ask again. -/
def requestNow (r : Receiver) (now : Instant) (gap : Gap) : Answer :=
  ⟨{ r with requestAt := some (now + r.settings.requestInterval.nanos) }, [r.request gap], none⟩

/-- A new gap is asked for at once. While a request is under way the timer asks for whatever the
gap is when it rings, so there is at most one request per interval. -/
def onGapChange (r : Receiver) (now : Instant) (change : Option GapChange) : Answer :=
  match change with
  | none => r.quiet
  | some change =>
    if change.now.isEmpty then quiet { r with requestAt := none }
    else if r.settings.maxGap < change.now.count then ⟨r, [], some (.gapTooLarge change.now)⟩
    else if r.requestAt.isNone then r.requestNow now change.now
    else r.quiet

/-- The window may not grow without limit. -/
def checkLength (r : Receiver) : Option Desync :=
  if r.settings.maxQueue < r.queue.length then some (.queueOverflow r.queue.length) else none

/-- Notes a change of the gap; the length counts only if the gap is bearable. -/
def settleGap (r : Receiver) (now : Instant) (change : Option GapChange) : Answer :=
  let a := r.onGapChange now change
  match a.failure with
  | some _ => a
  | none => { a with failure := a.receiver.checkLength }

/-- Hands over what can be delivered, then looks at the gap. -/
def onInserted (r : Receiver) (now : Instant) (i : Arrivals.Inserted) : Answer :=
  (r.settleGap now i.gapChange).after (i.delivered.map fun f => .deliver (.message f))

def onRequestTimer (r : Receiver) (now : Instant) : Answer :=
  let gap := r.queue.gap
  if gap.isEmpty then quiet { r with requestAt := none }
  else if r.settings.maxGap < gap.count then ⟨r, [], some (.gapTooLarge gap)⟩
  else r.requestNow now gap

/-! ### Frames -/

def onSnapshotFrame (r : Receiver) (f : Frame) : Answer :=
  ⟨{ r with active := true }, [.deliver (.snapshot f)], none⟩

def onEndOfSnapshot (r : Receiver) (now : Instant) (seq : Nat) : Answer :=
  let (inserted, queue) := r.queue.stopQueuing seq
  (onInserted { r with snapshotSeq := some seq, queue := queue } now inserted).after
    [.deliver (.endOfSnapshot seq)]

/-- A frame from the data socket. -/
def onFrame (r : Receiver) (now : Instant) (f : Frame) : Answer :=
  let r := { r with active := true }
  match f.message? with
  | .ok none =>
    let (inserted, queue) := r.queue.insert f
    onInserted { r with queue := queue } now inserted
  | .ok (some (.heartbeat stamp)) =>
    let (change, queue) := r.queue.raiseBound f.seq
    settleGap { r with lastHeartbeat := some stamp, queue := queue } now change
  | .ok (some m) =>
    ⟨r, [.warn ("unexpected " ++ m.type.name ++ " on the data path - dropping")], none⟩
  | .error e =>
    ⟨r, [.warn ("undecodable frame #" ++ toString f.seq ++ " on the data path - dropping: "
      ++ e.message)], none⟩

/-- Frames one after the other, each at its time, up to the first that the receiver fails at. -/
def hear (r : Receiver) : List (Instant × Frame) → Answer
  | [] => r.quiet
  | (now, f) :: rest =>
    let a := r.onFrame now f
    if a.failure.isSome then a else (a.receiver.hear rest).after a.outputs

/-- Frames that come together are heard at one time. -/
def onFrames (r : Receiver) (now : Instant) (fs : List Frame) : Answer := r.hear (fs.map (now, ·))

/-! ### Signs of life -/

/-- Once per second. Traffic since the last tick is a sign of life. -/
def onLivenessTick (r : Receiver) : Answer :=
  if r.active then quiet { r with active := false, idleTicks := 0 }
  else if r.settings.timeout ≤ r.idleTicks + 1 then
    ⟨{ r with idleTicks := 0 }, [], some (.silent (r.idleTicks + 1))⟩
  else quiet { r with idleTicks := r.idleTicks + 1 }

end Receiver

end ReliableMulticast
