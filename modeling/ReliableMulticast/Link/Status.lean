import ReliableMulticast.Channel.Basic
import ReliableMulticast.Link.Event
import ReliableMulticast.Sequence.Gap

/-!
A view of a link at one moment, and its text for operators.
-/

namespace ReliableMulticast.Link

inductive TcpState
  | login
  /-- Pushing the snapshot. -/
  | sending
  /-- Taking the snapshot. -/
  | receiving
  | disconnect
deriving DecidableEq, Repr, Inhabited

def TcpState.name : TcpState → String
  | login => "Login"
  | sending => "Sending"
  | receiving => "Receiving"
  | disconnect => "Disconnect"

def TcpState.ofName? (name : String) : Option TcpState :=
  [login, sending, receiving, disconnect].find? (·.name == name)

inductive UdpState
  | sending
  | receiving
  | disconnect
deriving DecidableEq, Repr, Inhabited

def UdpState.name : UdpState → String
  | sending => "Sending"
  | receiving => "Receiving"
  | disconnect => "Disconnect"

def UdpState.ofName? (name : String) : Option UdpState :=
  [sending, receiving, disconnect].find? (·.name == name)

structure QueueStatus where
  head : Nat
  gap : Gap
  length : Nat
  count : Nat
deriving DecidableEq, Repr, Inhabited

structure Status where
  side : Side
  channel : ChannelId
  state : State
  reconnects : UInt32
  endpoints : Option Endpoints
  tcp : List (Peer × TcpState)
  udp : Option UdpState
  queue : Option QueueStatus
  snapshotSeq : Option Nat
  /-- The stamp of the last heartbeat received. -/
  lastHeartbeat : Option Duration
deriving DecidableEq, Repr, Inhabited

namespace Status

/-- The view of a link without a connection. -/
def unconnected (side : Side) (channel : ChannelId) (state : State) (reconnects : UInt32) :
    Status :=
  { side := side
    channel := channel
    state := state
    reconnects := reconnects
    endpoints := none
    tcp := []
    udp := none
    queue := none
    snapshotSeq := none
    lastHeartbeat := none }

def queueLine (q : QueueStatus) : String :=
  "  Queue head " ++ toString q.head ++ " gap " ++ q.gap.text ++ " length " ++ toString q.length
    ++ " count " ++ toString q.count

def stampText (stamp : Duration) : String :=
  toString stamp.seconds ++ "." ++ String.ofList (Duration.paddedDigits 9 stamp.subsecond)

/-- The lines of a report, given how the stamp of the last heartbeat is written. -/
def lines (stampText : Duration → String) (s : Status) : List String :=
  [s.side.name ++ " link " ++ s.channel ++ ": " ++ s.state.name ++ " #Reconnects "
      ++ toString s.reconnects.toNat,
    match s.endpoints with
    | some endpoints => "  " ++ endpoints.text
    | none => "  not connected"]
  ++ s.tcp.map (fun (peer, state) => "  TCP " ++ peer.text ++ " " ++ state.name)
  ++ (s.udp.map fun udp => "  UDP " ++ udp.name).toList
  ++ (s.queue.map queueLine).toList
  ++ (s.snapshotSeq.map fun seq => "  Snapshot seqNo " ++ toString seq).toList
  ++ (s.lastHeartbeat.map fun stamp => "  Last heartbeat " ++ stampText stamp).toList

def textWith (stampText : Duration → String) (s : Status) : String :=
  String.join ((s.lines stampText).map (· ++ "\n"))

def text (s : Status) : String := s.textWith stampText

/-- The report without the time of day that is in a stamp. -/
def timelessText (s : Status) : String := s.textWith fun _ => "*"

end Status

end ReliableMulticast.Link
