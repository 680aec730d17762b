import ReliableMulticast.Fault
import ReliableMulticast.Frame.Stream
import ReliableMulticast.Link.Control
import ReliableMulticast.Publisher.Transmitter
import ReliableMulticast.Subscriber.Receiver

/-!
The control of a subscriber's link: it logs in over TCP, takes the snapshot there and then follows
the live frames on UDP. The data socket is opened before the login is sent, so that no frame after
the snapshot is missed. What the TCP and UDP sides report carries the generation of their
connection, and reports of an earlier connection are ignored.
-/

namespace ReliableMulticast

/-- How a TCP connection comes to a bad end. -/
inductive TcpFailure
  | io (error : IoError)
  | stream (error : StreamError)
deriving DecidableEq, Repr, Inhabited

def TcpFailure.message : TcpFailure → String
  | io error => error.message
  | stream error => error.message

/-- Why a manual request is not answered with a frame. -/
inductive ResendFailure
  | invalidCount (max count : Nat)
  | outstanding (gap : Gap)
  | notConnected (id : ChannelId)
  | noSocket (id : ChannelId)
  | disconnected (gap : Gap)
  | timedOut (gap : Gap) (within : Duration)
  | call (error : CallError)
  | noLink (id : ChannelId)
deriving DecidableEq, Repr, Inhabited

def ResendFailure.message : ResendFailure → String
  | invalidCount max count =>
    "resend count must be between 1 and " ++ toString max ++ ", was " ++ toString count
  | outstanding gap => "a manual resend for " ++ gap.text ++ " is already outstanding"
  | notConnected id => "link " ++ id ++ " is not connected"
  | noSocket id => "link " ++ id ++ " has no open UDP socket"
  | disconnected gap => "link disconnected while waiting for resend of " ++ gap.text
  | timedOut gap within => "no resend of " ++ gap.text ++ " within " ++ within.text
  | call error => error.message
  | noLink id => "no link for channel " ++ id

namespace SubscriberLink

structure Connection where
  generation : Nat
  endpoints : Endpoints
  /-- The publisher's end, once the connection is there. -/
  peer : Option Endpoint
  tcpState : Link.TcpState
  /-- The data socket with the receiver that it feeds. -/
  receiver : Option (SocketId × Receiver)
  /-- When the login has to be acknowledged. -/
  loginDeadline : Option Instant
deriving DecidableEq, Repr, Inhabited

inductive Task
  | up
  | down
  | update (channel : Channel)
  /-- The connection is there, and waits for the login to send. -/
  | tcpConnected (generation : Nat) (peer : Endpoint)
  | tcpFrame (generation : Nat) (f : Frame)
  | tcpClosed (generation : Nat) (error : Option TcpFailure)
  | udp (generation : Nat) (f : Frame)
  /-- Ask the publisher for a range on behalf of an operator, and answer the call. -/
  | manualResend (call : Nat) (gap : Gap)
  /-- The pause before a reconnect is over. -/
  | reconnectDue
  | loginTimeout
  /-- The open gap is to be asked for again. -/
  | requestTimer
  | livenessTick
deriving DecidableEq, Repr, Inhabited

/-- What the control asks its surroundings for, in order. -/
inductive Effect
  | notify (e : Link.Event)
  /-- Start a TCP connection. -/
  | connect (generation : Nat) (dest : Endpoint)
  /-- Open the data socket and read it. -/
  | openUdp (generation : Nat) (addr : Endpoint) (channel : Channel)
  /-- Try to, in vain. -/
  | openUdpInVain (addr : Endpoint)
  /-- Send the login, then read the answer and the snapshot. -/
  | login (generation : Nat) (f : Frame)
  /-- End the TCP side of a connection. -/
  | closeTcp (generation : Nat)
  /-- End everything that belongs to a connection. -/
  | close (generation : Nat)
  | deliver (d : Delivery)
  | send (socket : SocketId) (dest : Endpoint) (f : Frame)
  /-- Nobody is waited for any more. -/
  | clearManual
  /-- Tell the caller of a manual request whether the publisher was asked. -/
  | answer (call : Nat) (failure : Option ResendFailure)
  | warn (text : String)
deriving DecidableEq, Repr, Inhabited

/-- What the control knows of its surroundings: the time, the interface for groups, and which
data socket it gets if it opens one. -/
structure Surroundings where
  now : Instant
  openUdp? : Endpoint → Except IoError SocketId

end SubscriberLink

structure SubscriberLink where
  channel : Channel
  settings : Settings
  control : Link.Control
  /-- The operator's last wish. -/
  wantsUp : Bool
  /-- The number of connections so far. -/
  generation : Nat
  connection : Option SubscriberLink.Connection
  reconnectAt : Option Instant
deriving DecidableEq, Repr, Inhabited

namespace SubscriberLink

def state (l : SubscriberLink) : Link.State := l.control.state

/-! ### The machine -/

/-- Feeds an input to the machine; the answer ends with the action to carry out. -/
def drive (l : SubscriberLink) (input : Link.Input) : SubscriberLink × List Effect × Link.Action :=
  let (control, action, events) := l.control.drive input
  ({ l with control := control }, events.map .notify, action)

def alert (l : SubscriberLink) (severity : Link.Severity) (message : String) : Effect :=
  .notify (l.control.alert severity message)

/-- A channel that can not be followed fails the link for good. -/
def rejectChannel (l : SubscriberLink) (fault : ChannelFault) :
    SubscriberLink × List Effect × Link.Action :=
  let (after, effects, action) := l.drive .failed
  (after, l.alert .error fault.report :: effects, action)

/-! ### Connecting and disconnecting -/

/-- Starts a connection. The link is up once the publisher acknowledged the login. -/
def connect (l : SubscriberLink) (env : Surroundings) :
    SubscriberLink × List Effect × Link.Action :=
  match l.channel.fault? with
  | some fault => l.rejectChannel fault
  | none =>
    let endpoints := l.channel.endpoints l.control.isSecondary
    let generation := l.generation + 1
    ({ l with
        generation := generation
        connection := some
          { generation := generation
            endpoints := endpoints
            peer := none
            tcpState := .login
            receiver := none
            loginDeadline := some (env.now + l.settings.loginTimeout.nanos) } },
      [.connect generation endpoints.tcp], .none)

/-- Closes whatever there is, at once. -/
def disconnect (l : SubscriberLink) : SubscriberLink × List Effect × Link.Action :=
  let closing := (l.connection.map fun c => Effect.close c.generation).toList
  let (l, effects, action) := { l with connection := none }.drive .disconnected
  (l, closing ++ .clearManual :: effects, action)

/-! ### Actions -/

/-- Carries out one action. The answer ends with the action that follows from its outcome. -/
def perform (l : SubscriberLink) (env : Surroundings) :
    Link.Action → SubscriberLink × List Effect × Link.Action
  | .none => (l, [], .none)
  | .connect => l.connect env
  | .disconnect => l.disconnect
  | .scheduleReconnect true => l.drive .reconnectDue
  | .scheduleReconnect false =>
    ({ l with reconnectAt := some (env.now + l.settings.reconnectInterval.nanos) }, [], .none)
  | .cancelReconnect => ({ l with reconnectAt := none }, [], .none)

/-- Carries out an action and those that follow from it, at most `fuel` of them. -/
def act (env : Surroundings) : Nat → SubscriberLink → Link.Action → SubscriberLink × List Effect
  | 0, l, _ => (l, [])
  | fuel + 1, l, action =>
    match action with
    | .none => (l, [])
    | action =>
      let (l, effects, next) := l.perform env action
      let (l, more) := act env fuel l next
      (l, effects ++ more)

/-- More actions than these never follow from one another. -/
def actLimit : Nat := 8

/-- Feeds an input to the machine and carries out what it asks for. -/
def driveAndAct (l : SubscriberLink) (env : Surroundings) (input : Link.Input) :
    SubscriberLink × List Effect :=
  let (l, effects, action) := l.drive input
  let (l, more) := act env actLimit l action
  (l, effects ++ more)

/-- Tells operators of a failure and connects anew. -/
def failWith (l : SubscriberLink) (env : Surroundings) (message : String) (immediate : Bool) :
    SubscriberLink × List Effect :=
  let (after, effects) := l.driveAndAct env (.reconnect immediate)
  (after, l.alert .warning message :: effects)

def violation (l : SubscriberLink) (env : Surroundings) (message : String) :
    SubscriberLink × List Effect :=
  l.failWith env ("protocol violation: " ++ message) false

/-! ### The channel -/

/-- Enables a link that was at rest; it comes up if the operator wants it up. -/
def revive (l : SubscriberLink) (env : Surroundings) : SubscriberLink × List Effect :=
  let (l, effects, _) := l.drive (.enable true)
  if l.wantsUp then
    let (l, more) := l.driveAndAct env .up
    (l, effects ++ more)
  else (l, effects)

def onUpdate (l : SubscriberLink) (env : Surroundings) (channel : Channel) :
    SubscriberLink × List Effect :=
  if channel = l.channel then (l, [])
  else
    let l := { l with channel := channel }
    match channel.fault? with
    | some fault =>
      let (l, effects, action) := l.rejectChannel fault
      let (l, more) := act env actLimit l action
      (l, effects ++ more)
    | none =>
      if !channel.enabled then l.driveAndAct env (.enable false)
      else if l.state = .disabled ∨ l.state = .failed then l.revive env
      else l.driveAndAct env (.reconnect true)

/-! ### The receiver -/

/-- What a receiver asks for, through its socket. -/
def ofOutput (socket : SocketId) : Receiver.Output → Effect
  | .deliver d => .deliver d
  | .send dest f => .send socket dest f
  | .warn text => .warn text

/-- Lets the receiver of a connection answer; what it can not mend makes the link connect anew.
With `thenClose` the TCP connection has done its work and is closed before that. -/
def onReceiver (l : SubscriberLink) (env : Surroundings) (thenClose : Bool)
    (ask : Receiver → Receiver.Answer) : SubscriberLink × List Effect :=
  match l.connection with
  | none => (l, [])
  | some c =>
    match c.receiver with
    | none => (l, [])
    | some (socket, r) =>
      let a := ask r
      let after :=
        { c with
          receiver := some (socket, a.receiver)
          tcpState := if thenClose then .disconnect else c.tcpState }
      let l := { l with connection := some after }
      let effects :=
        a.outputs.map (ofOutput socket) ++ (if thenClose then [.closeTcp c.generation] else [])
      match a.failure with
      | none => (l, effects)
      | some e =>
        let (l, more) := l.failWith env e.message e.isImmediate
        (l, effects ++ more)

/-- The current connection, if it is of this generation. -/
def current? (l : SubscriberLink) (generation : Nat) : Option Connection :=
  l.connection.filter (·.generation == generation)

/-! ### TCP -/

def loginFrame (c : Channel) : Frame := .control (.login c.username c.password) 0

/-- The connection is there: open the data socket, then log in. -/
def onTcpConnected (l : SubscriberLink) (env : Surroundings) (generation : Nat) (peer : Endpoint) :
    SubscriberLink × List Effect :=
  match l.current? generation with
  | none => (l, [])
  | some c =>
    let addr := c.endpoints.udp
    match env.openUdp? addr with
    | .error e =>
      let (l, effects) :=
        l.failWith env ("opening UDP " ++ addr.text ++ " failed: " ++ e.message) false
      (l, .openUdpInVain addr :: effects)
    | .ok socket =>
      let r := Receiver.new l.settings c.endpoints.resend
      ({ l with connection := some { c with peer := some peer, receiver := some (socket, r) } },
        [.openUdp generation addr l.channel, .login generation (loginFrame l.channel)])

/-- The answer to the login. -/
def onLoginAnswer (l : SubscriberLink) (env : Surroundings) (c : Connection) (f : Frame) :
    SubscriberLink × List Effect :=
  match f.message? with
  | .ok (some (.login ..)) =>
    let acknowledged := { c with tcpState := .receiving, loginDeadline := none }
    { l with connection := some acknowledged }.driveAndAct env .connected
  | _ =>
    l.violation env
      ("expected login acknowledgement, received message type " ++ toString f.type.toNat)

/-- A frame of the snapshot, or its end. -/
def onSnapshot (l : SubscriberLink) (env : Surroundings) (f : Frame) :
    SubscriberLink × List Effect :=
  match f.message? with
  | .ok none => l.onReceiver env false (·.onSnapshotFrame f)
  | .ok (some (.endOfSnapshot id seq ok)) =>
    if !ok then l.violation env "publisher reported an incomplete snapshot"
    else if id ≠ l.control.channel then l.violation env ("end of snapshot for channel " ++ id)
    else l.onReceiver env true (·.onEndOfSnapshot env.now seq.toNat)
  | .ok (some m) => l.violation env ("unexpected " ++ m.type.name ++ " during snapshot")
  | .error e => (l, [.warn ("undecodable snapshot frame - dropping: " ++ e.message)])

def onTcpFrame (l : SubscriberLink) (env : Surroundings) (generation : Nat) (f : Frame) :
    SubscriberLink × List Effect :=
  match l.current? generation with
  | none => (l, [])
  | some c =>
    match c.tcpState with
    | .login => l.onLoginAnswer env c f
    | .receiving => l.onSnapshot env f
    | .sending => (l, [])
    | .disconnect => (l, [])

def closedMessage : Option TcpFailure → String
  | some e => "TCP connection failed: " ++ e.message
  | none => "TCP connection closed before end of snapshot"

def onTcpClosed (l : SubscriberLink) (env : Surroundings) (generation : Nat)
    (error : Option TcpFailure) : SubscriberLink × List Effect :=
  match l.current? generation with
  | none => (l, [])
  | some c =>
    if c.tcpState = .disconnect then (l, []) else l.failWith env (closedMessage error) false

/-! ### UDP and timers -/

def onUdp (l : SubscriberLink) (env : Surroundings) (generation : Nat) (f : Frame) :
    SubscriberLink × List Effect :=
  match l.current? generation with
  | none => (l, [])
  | some _ => l.onReceiver env false (·.onFrame env.now f)

/-- The link without a deadline for the login. -/
def forgetDeadline (l : SubscriberLink) : SubscriberLink :=
  { l with
    connection := l.connection.map fun (c : Connection) => { c with loginDeadline := none } }

def onLoginTimeout (l : SubscriberLink) (env : Surroundings) : SubscriberLink × List Effect :=
  l.forgetDeadline.failWith env
    ("no login acknowledgement within " ++ l.settings.loginTimeout.text) false

def onLivenessTick (l : SubscriberLink) (env : Surroundings) : SubscriberLink × List Effect :=
  if l.state = .up then l.onReceiver env false (·.onLivenessTick) else (l, [])

/-! ### Manual requests -/

/-- Asks the publisher for a range on behalf of an operator. -/
def onManualResend (l : SubscriberLink) (call : Nat) (gap : Gap) : List Effect :=
  if l.state ≠ .up then [.answer call (some (.notConnected l.control.channel))]
  else
    match l.connection.bind (·.receiver) with
    | some (socket, r) => [ofOutput socket (r.request gap), .answer call none]
    | none => [.answer call (some (.noSocket l.control.channel))]

/-! ### Tasks -/

def onTask (l : SubscriberLink) (env : Surroundings) : Task → SubscriberLink × List Effect
  | .up => { l with wantsUp := true }.driveAndAct env .up
  | .down => { l with wantsUp := false }.driveAndAct env .down
  | .update channel => l.onUpdate env channel
  | .tcpConnected generation peer => l.onTcpConnected env generation peer
  | .tcpFrame generation f => l.onTcpFrame env generation f
  | .tcpClosed generation error => l.onTcpClosed env generation error
  | .udp generation f => l.onUdp env generation f
  | .manualResend call gap => (l, l.onManualResend call gap)
  | .reconnectDue => { l with reconnectAt := none }.driveAndAct env .reconnectDue
  | .loginTimeout => l.onLoginTimeout env
  | .requestTimer => l.onReceiver env false (·.onRequestTimer env.now)
  | .livenessTick => l.onLivenessTick env

/-! ### The whole link -/

/-- When the next timer of the link itself rings, the one for signs of life apart. -/
def timers (l : SubscriberLink) : List (Instant × Task) :=
  let login := (l.connection.bind (·.loginDeadline)).map fun t => (t, Task.loginTimeout)
  let request :=
    ((l.connection.bind (·.receiver)).bind (·.2.requestAt)).map fun t => (t, Task.requestTimer)
  (l.reconnectAt.map fun t => (t, Task.reconnectDue)).toList ++ login.toList ++ request.toList

/-- A new link, at rest. A channel that can not be followed fails it at once. -/
def new (channel : Channel) (settings : Settings) : SubscriberLink × List Effect :=
  let l : SubscriberLink :=
    { channel := channel
      settings := settings
      control := .new .subscriber channel.id channel.enabled
      wantsUp := false
      generation := 0
      connection := none
      reconnectAt := none }
  match channel.fault? with
  | some fault =>
    let (l, effects, _) := l.rejectChannel fault
    (l, effects)
  | none => (l, [])

def status (l : SubscriberLink) : Link.Status :=
  let base := Link.Status.unconnected .subscriber l.control.channel l.state l.control.reconnects
  match l.connection with
  | none => base
  | some c =>
    { base with
      endpoints := some c.endpoints
      tcp := (c.peer.map fun p => (Peer.ofEndpoint p, c.tcpState)).toList
      udp := c.receiver.map fun _ => .receiving
      queue := c.receiver.map (·.2.status)
      snapshotSeq := c.receiver.bind (·.2.snapshotSeq)
      lastHeartbeat := c.receiver.bind (·.2.lastHeartbeat) }

end SubscriberLink

end ReliableMulticast
