import ReliableMulticast.Link.Status
import ReliableMulticast.Sequence.Retained
import ReliableMulticast.Settings

/-!
The sending side of a publisher's link. It numbers every frame, keeps the newest ones, and sends
all that leaves on UDP: live frames, repetitions and heartbeats.
-/

namespace ReliableMulticast

/-- The number under which the network knows a socket. -/
abbrev SocketId := Nat

/-- The sockets of one connection. -/
structure Outlets where
  data : SocketId
  dataTo : Endpoint
  resend : SocketId
  shard : Option UInt8
deriving DecidableEq, Repr, Inhabited

/-- A channel without a shard sends everything, and frames without a shard are always sent. -/
def Outlets.accepts (o : Outlets) (f : Frame) : Bool :=
  match o.shard with
  | none => true
  | some shard => f.shard == shard || f.shard == noShard

structure Datagram where
  socket : SocketId
  dest : Endpoint
  frame : Frame
deriving DecidableEq, Repr, Inhabited

structure Transmitter where
  settings : Settings
  queue : Retained
  outlets : Option Outlets
  /-- Live frames and heartbeats are sent. -/
  attached : Bool
  lastHeartbeat : Instant
deriving DecidableEq, Repr, Inhabited

namespace Transmitter

def firstSeq : Nat := 1

def new (settings : Settings) (now : Instant) : Transmitter :=
  { settings := settings
    queue := .startingAt firstSeq
    outlets := none
    attached := false
    lastHeartbeat := now }

inductive Task
  /-- Send on the sockets of a new connection. -/
  | attach (o : Outlets)
  | send (f : Frame)
  | resend (seq count : Nat) (dest : Endpoint)
  /-- Send nothing live any more, but keep the sockets for now. -/
  | detach
  /-- Let the sockets go. -/
  | release
deriving DecidableEq, Repr, Inhabited

/-- The outlets for live frames. -/
def live? (t : Transmitter) : Option Outlets := if t.attached then t.outlets else none

/-- The largest offset from a heartbeat that fits a header. -/
def maxOffset : Nat := 0xffffffff

/-- The frame with its offset from the last heartbeat. -/
def stampOffset (t : Transmitter) (now : Instant) (f : Frame) : Frame :=
  { f with header := { f.header with nanos := .ofNat (min (now - t.lastHeartbeat) maxOffset) } }

def onSend (t : Transmitter) (now : Instant) (f : Frame) : Transmitter × List Datagram :=
  match t.live? with
  | none => (t, [])
  | some o =>
    if o.accepts f then
      let f := t.stampOffset now f
      ({ t with queue := t.queue.push f }, [⟨o.data, o.dataTo, t.queue.stamp f⟩])
    else (t, [])

/-- Requests outside the kept window or above the largest gap are ignored: they come from
subscribers that have lost their place and will connect anew. -/
def onResend (t : Transmitter) (seq count : Nat) (dest : Endpoint) : List Datagram :=
  match t.outlets with
  | none => []
  | some o =>
    if count = 0 ∨ t.settings.maxGap < count then []
    else if seq < t.queue.tail ∨ t.queue.head ≤ seq then []
    else (t.queue.range seq count).map fun f => ⟨o.resend, dest, f⟩

def onTask (t : Transmitter) (now : Instant) : Task → Transmitter × List Datagram
  | .attach o => ({ t with outlets := some o, attached := true, lastHeartbeat := now }, [])
  | .send f => t.onSend now f
  | .resend seq count dest => (t, t.onResend seq count dest)
  | .detach => ({ t with attached := false }, [])
  | .release => ({ t with attached := false, outlets := none }, [])

/-- What a datagram on the socket for repetitions asks for. Anything but a request is ignored. -/
def Task.ofDatagram? (sender : Endpoint) (bytes : Bytes) : Option Task :=
  match Frame.decode bytes with
  | .error _ => none
  | .ok f =>
    match f.message? with
    | .ok (some (.resendRequest seq count)) => some (.resend seq.toNat count.toNat sender)
    | _ => none

/-- The view of the frames that are kept. -/
def queueStatus (t : Transmitter) : Link.QueueStatus :=
  ⟨t.queue.head, Gap.none, t.queue.length, t.queue.length⟩

def onTrimTick (t : Transmitter) : Transmitter :=
  { t with queue := t.queue.trim t.settings.maxQueue }

/-- Heartbeats carry the next number without using it up, so that loss at the end of the stream
is noticed. -/
def onHeartbeatTick (t : Transmitter) (now : Instant) (stamp : Duration) :
    Transmitter × List Datagram :=
  match t.live? with
  | none => (t, [])
  | some o =>
    ({ t with lastHeartbeat := now },
      [⟨o.data, o.dataTo, .control (.heartbeat stamp) (.ofNat t.queue.head)⟩])

end Transmitter

end ReliableMulticast
