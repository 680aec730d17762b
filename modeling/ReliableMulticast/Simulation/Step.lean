import ReliableMulticast.Link.Engine
import ReliableMulticast.Settings
import ReliableMulticast.Subscriber.Link

/-!
The steps of a script, what a step itself comes to, and what is seen after it.
-/

namespace ReliableMulticast.Simulation

inductive Step
  | update (side : Link.Side) (channel : Channel)
  | start (side : Link.Side)
  | stop (side : Link.Side)
  | command (side : Link.Side) (id : ChannelId) (commands : List Link.Command)
  | status (side : Link.Side)
  | settings (side : Link.Side)
  | links
  | find (id : ChannelId)
  | publish (f : Frame) (times : Nat)
  | send (id : ChannelId) (f : Frame)
  | ingest (frames : List Frame)
  | endIngest
  | resend (id : ChannelId) (seq count : Nat)
  | abandonResend (number : Nat)
  | await (side : Link.Side) (id : ChannelId) (state : Link.State)
  | drop (side : Link.Side)
  | listen (name : String) (addr : Endpoint)
  | closeListener (name : String)
  | connect (name : String) (sender dest : Endpoint)
  | tcpSend (name : String) (bytes : Bytes) (thenClose : Bool)
  | tcpClose (name : String)
  | openSocket (name : String) (addr : Endpoint) (reuse : Bool) (group : Option Ipv4)
  | closeSocket (name : String)
  | udpSend (sender dest : Endpoint) (packets : List Bytes)
  | blackhole (addr : Endpoint) (on : Bool)
  | lose (addr : Endpoint) (numbers : List Nat)
  | sendErrors (addr : Endpoint) (count : Nat)
  | acceptError (addr : Endpoint)
  | receiveError (addr : Endpoint)
  | advance (ms : Nat)
  | settle
  | release
  /-- Several steps before anything reacts to the first of them. -/
  | batch (steps : List Step)
deriving Inhabited

/-- The states of the links of one side, if there is that side. -/
abbrev Overview := Option (List (ChannelId × Link.State))

/-- What a step itself comes to. -/
inductive Outcome
  | nothing
  | state (s : Link.State)
  | number (n : Nat)
  | flag (b : Bool)
  | counts (ns : List Nat)
  | text (s : String)
  | settings (s : Settings)
  | links (publisher subscriber : Overview)
  | found (publisher subscriber : Option Link.State)
  | failed (error : IoError)
  /-- The step makes no sense. -/
  | mistaken (reason : String)
  | each (outcomes : List Outcome)
deriving Inhabited

/-- The values of equal keys together, each in their order. -/
def grouped {α : Type} (pairs : List (String × α)) : List (String × List α) :=
  (pairs.map (·.1)).eraseDups.map fun key =>
    (key, pairs.filterMap fun p => if p.1 = key then some p.2 else none)

/-- What is seen after a step. -/
structure Seen where
  outcome : Outcome
  /-- The reports of each link, by side and channel. -/
  reports : List (String × List Link.Report)
  deliveries : List (ChannelId × List Delivery)
  /-- The frames that arrived at each connection of the script, and whether its stream ended. -/
  streams : List (String × List Frame × Bool)
  /-- The datagrams that arrived at each socket of the script. -/
  datagrams : List (String × List (Endpoint × Bytes))
  /-- The manual requests that were answered, by number. -/
  resends : List (Nat × Except ResendFailure Frame)
  /-- The waits that are over, by number. -/
  waits : List Nat
  /-- In alphabetical order. -/
  warnings : List String
  /-- What was asked of the network. -/
  network : List String
deriving Inhabited

end ReliableMulticast.Simulation
