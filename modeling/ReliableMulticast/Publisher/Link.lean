import ReliableMulticast.Link.Control
import ReliableMulticast.Publisher.Session
import ReliableMulticast.Publisher.Transmitter

/-!
The control of a publisher's link: it opens and closes what a channel is served with, accepts
logins, and follows the operator's wishes and every failure through the link's machine.

Disconnecting takes three phases, each of which ends when the transmitter has dealt with all that
was posted to it: nothing live is sent any more, then the repetitions under way are sent, then the
sockets are let go. Reports carry the generation of the connection that they belong to, and those
of an earlier connection are ignored.
-/

namespace ReliableMulticast

/-- The phases of a disconnect. -/
inductive DisconnectPhase
  /-- The transmitter stops sending live frames. -/
  | detaching
  /-- Nothing comes in any more, and the repetitions under way are sent. -/
  | draining
  /-- The transmitter lets its sockets go. -/
  | releasing
deriving DecidableEq, Repr, Inhabited

def DisconnectPhase.name : DisconnectPhase → String
  | detaching => "Detaching"
  | draining => "Draining"
  | releasing => "Releasing"

/-- The number under which the network knows a connection. -/
abbrev ConnId := Nat

/-- The number of a session among all sessions of its link. -/
abbrev SessionId := Nat

namespace PublisherLink

/-- What is known of a session. -/
structure SessionEntry where
  id : SessionId
  peer : Endpoint
  state : Link.TcpState
deriving DecidableEq, Repr, Inhabited

structure Connection where
  generation : Nat
  endpoints : Endpoints
  /-- Logins and requests are still taken. -/
  listening : Bool
  /-- The sessions under way, oldest first. -/
  sessions : List SessionEntry
deriving DecidableEq, Repr, Inhabited

inductive Task
  | up
  | down
  | update (channel : Channel)
  | accepted (generation : Nat) (conn : ConnId) (peer : Endpoint)
  | listenerFailed (generation : Nat) (error : IoError)
  | sessionState (generation : Nat) (session : SessionId) (state : Link.TcpState)
  | sessionClosed (generation : Nat) (session : SessionId) (result : Except SessionFailure Bool)
  /-- The transmitter has dealt with all that was posted before this phase. -/
  | drained (phase : DisconnectPhase)
  /-- The pause before a reconnect is over. -/
  | reconnectDue
deriving Repr, Inhabited

/-- What the control asks its surroundings for, in order. -/
inductive Effect
  | notify (e : Link.Event)
  /-- Open the listener and the sockets of a connection. -/
  | listen (generation : Nat) (endpoints : Endpoints)
  /-- Try to, in vain. -/
  | listenInVain (endpoints : Endpoints)
  | transmit (task : Transmitter.Task)
  /-- Say when the transmitter has dealt with all that was posted so far. -/
  | drain (phase : DisconnectPhase)
  /-- Take no more logins and requests for a connection, and break off its sessions. -/
  | closeTcp (generation : Nat)
  | serve (generation : Nat) (session : SessionId) (conn : ConnId) (peer : Endpoint)
      (channel : Channel)
  | refuse (conn : ConnId)
  | warn (text : String)
deriving DecidableEq, Repr, Inhabited

/-- What the control knows of its surroundings: the time, and which sockets for data and
repetitions it gets if it opens a connection. -/
structure Surroundings where
  now : Instant
  listen? : Endpoints → Except IoError (SocketId × SocketId)

end PublisherLink

structure PublisherLink where
  channel : Channel
  settings : Settings
  control : Link.Control
  /-- The operator's last wish. -/
  wantsUp : Bool
  /-- The number of connections so far. -/
  generation : Nat
  /-- The number of sessions so far. -/
  sessionCount : Nat
  connection : Option PublisherLink.Connection
  /-- The phase of the disconnect under way. -/
  phase : Option DisconnectPhase
  reconnectAt : Option Instant
deriving DecidableEq, Repr, Inhabited

namespace PublisherLink

def state (l : PublisherLink) : Link.State := l.control.state

/-! ### The machine -/

/-- Feeds an input to the machine; the answer ends with the action to carry out. -/
def drive (l : PublisherLink) (input : Link.Input) : PublisherLink × List Effect × Link.Action :=
  let (control, action, events) := l.control.drive input
  ({ l with control := control }, events.map .notify, action)

def alert (l : PublisherLink) (severity : Link.Severity) (message : String) : Effect :=
  .notify (l.control.alert severity message)

/-- A channel that can not be served fails the link for good. -/
def rejectChannel (l : PublisherLink) (fault : ChannelFault) :
    PublisherLink × List Effect × Link.Action :=
  let (after, effects, action) := l.drive .failed
  (after, l.alert .error fault.report :: effects, action)

/-! ### Connecting -/

/-- Ends what a connection takes in, if there is one. -/
def closing (c : Option Connection) : List Effect :=
  (c.map fun c => Effect.closeTcp c.generation).toList

/-- A new connection on the sockets that were opened for it. It takes the place of an earlier one
whose disconnect is still under way. -/
def establish (l : PublisherLink) (endpoints : Endpoints) (data resend : SocketId) :
    PublisherLink × List Effect :=
  let generation := l.generation + 1
  ({ l with
      generation := generation
      connection := some ⟨generation, endpoints, true, []⟩ },
    .listen generation endpoints
      :: .transmit (.attach ⟨data, endpoints.udp, resend, l.channel.shard⟩)
      :: closing l.connection)

def connect (l : PublisherLink) (env : Surroundings) : PublisherLink × List Effect × Link.Action :=
  match l.channel.fault? with
  | some fault => l.rejectChannel fault
  | none =>
    let endpoints := l.channel.endpoints l.control.isSecondary
    match env.listen? endpoints with
    | .ok (data, resend) =>
      let (l, opened) := l.establish endpoints data resend
      let (l, effects, action) := l.drive .connected
      (l, opened ++ effects, action)
    | .error e =>
      let (after, effects, action) := l.drive (.reconnect false)
      (after,
        .listenInVain endpoints
          :: l.alert .warning ("connecting " ++ endpoints.text ++ " failed: " ++ e.message)
          :: effects,
        action)

/-! ### Disconnecting -/

def enterPhase (l : PublisherLink) (phase : DisconnectPhase) : PublisherLink × List Effect :=
  ({ l with phase := some phase }, [.drain phase])

/-- Begins a disconnect, unless one is under way. -/
def startDisconnect (l : PublisherLink) : PublisherLink × List Effect :=
  match l.phase with
  | some _ => (l, [])
  | none =>
    let (l, effects) := l.enterPhase .detaching
    (l, .transmit .detach :: effects)

/-! ### Actions -/

/-- Carries out one action. The answer ends with the action that follows from its outcome. -/
def perform (l : PublisherLink) (env : Surroundings) :
    Link.Action → PublisherLink × List Effect × Link.Action
  | .none => (l, [], .none)
  | .connect => l.connect env
  | .disconnect =>
    let (l, effects) := l.startDisconnect
    (l, effects, .none)
  | .scheduleReconnect true => l.drive .reconnectDue
  | .scheduleReconnect false =>
    ({ l with reconnectAt := some (env.now + l.settings.reconnectInterval.nanos) }, [], .none)
  | .cancelReconnect => ({ l with reconnectAt := none }, [], .none)

/-- Carries out an action and those that follow from it, at most `fuel` of them. -/
def act (env : Surroundings) : Nat → PublisherLink → Link.Action → PublisherLink × List Effect
  | 0, l, _ => (l, [])
  | fuel + 1, l, action =>
    match action with
    | .none => (l, [])
    | action =>
      let (l, effects, next) := l.perform env action
      let (l, more) := act env fuel l next
      (l, effects ++ more)

/-- More actions than these never follow from one another. -/
def actLimit : Nat := 8

/-- Feeds an input to the machine and carries out what it asks for. -/
def driveAndAct (l : PublisherLink) (env : Surroundings) (input : Link.Input) :
    PublisherLink × List Effect :=
  let (l, effects, action) := l.drive input
  let (l, more) := act env actLimit l action
  (l, effects ++ more)

/-! ### Tasks -/

def isCurrent (l : PublisherLink) (generation : Nat) : Bool :=
  l.connection.any (·.generation == generation)

/-- Enables a link that was at rest; it comes up if the operator wants it up. -/
def revive (l : PublisherLink) (env : Surroundings) : PublisherLink × List Effect :=
  let (l, effects, _) := l.drive (.enable true)
  if l.wantsUp then
    let (l, more) := l.driveAndAct env .up
    (l, effects ++ more)
  else (l, effects)

def onUpdate (l : PublisherLink) (env : Surroundings) (channel : Channel) :
    PublisherLink × List Effect :=
  if channel = l.channel then (l, [])
  else
    let l := { l with channel := channel }
    match channel.fault? with
    | some fault =>
      let (l, effects, action) := l.rejectChannel fault
      let (l, more) := act env actLimit l action
      (l, effects ++ more)
    | none =>
      if !channel.enabled then l.driveAndAct env (.enable false)
      else if l.state = .disabled ∨ l.state = .failed then l.revive env
      else l.driveAndAct env (.reconnect true)

def onDrained (l : PublisherLink) (env : Surroundings) (phase : DisconnectPhase) :
    PublisherLink × List Effect :=
  if l.phase ≠ some phase then
    let current :=
      match l.phase with
      | some p => "Some(" ++ p.name ++ ")"
      | none => "None"
    (l, [.warn ("unexpected drain of phase " ++ phase.name ++ " in " ++ current ++ " - ignoring")])
  else
    match phase with
    | .detaching =>
      let closed := l.connection.map fun c => { c with listening := false, sessions := [] }
      let (after, effects) := { l with connection := closed }.enterPhase .draining
      (after, closing l.connection ++ effects)
    | .draining =>
      let (l, effects) := l.enterPhase .releasing
      (l, .transmit .release :: effects)
    | .releasing =>
      let gone := { l with phase := none, connection := none }
      let (after, effects) := gone.driveAndAct env .disconnected
      (after, closing l.connection ++ effects)

def onAccepted (l : PublisherLink) (generation : Nat) (conn : ConnId) (peer : Endpoint) :
    PublisherLink × List Effect :=
  match l.connection with
  | some c =>
    if c.generation = generation ∧ l.state = .up ∧ l.phase = none then
      let id := l.sessionCount + 1
      ({ l with
          sessionCount := id
          connection := some { c with sessions := c.sessions ++ [⟨id, peer, .login⟩] } },
        [.serve generation id conn peer l.channel])
    else (l, [.refuse conn])
  | none => (l, [.refuse conn])

/-- Notes how far a session of the current connection is. -/
def onSessionState (l : PublisherLink) (generation : Nat) (session : SessionId)
    (state : Link.TcpState) : PublisherLink :=
  { l with
    connection := l.connection.map fun c =>
      if c.generation = generation then
        { c with sessions := c.sessions.map fun s =>
            if s.id = session then { s with state := state } else s }
      else c }

/-- What operators are told of the end of a session. -/
def closedMessage? (peer : Endpoint) : Except SessionFailure Bool → Option String
  | .ok true => none
  | .ok false => some ("incomplete snapshot sent to " ++ peer.text)
  | .error e => some ("dropped connection from " ++ peer.text ++ ": " ++ e.message)

def onSessionClosed (l : PublisherLink) (generation : Nat) (session : SessionId)
    (result : Except SessionFailure Bool) : PublisherLink × List Effect :=
  match l.connection with
  | some c =>
    if c.generation = generation then
      match c.sessions.find? (·.id == session) with
      | some s =>
        ({ l with
            connection := some { c with sessions := c.sessions.filter (·.id != session) } },
          ((closedMessage? s.peer result).map fun m => l.alert .warning m).toList)
      | none => (l, [])
    else (l, [])
  | none => (l, [])

def onTask (l : PublisherLink) (env : Surroundings) : Task → PublisherLink × List Effect
  | .up => { l with wantsUp := true }.driveAndAct env .up
  | .down => { l with wantsUp := false }.driveAndAct env .down
  | .update channel => l.onUpdate env channel
  | .accepted generation conn peer => l.onAccepted generation conn peer
  | .listenerFailed generation error =>
    if l.isCurrent generation then
      let (after, effects) := l.driveAndAct env (.reconnect false)
      (after, l.alert .warning ("TCP listener failed: " ++ error.message) :: effects)
    else (l, [])
  | .sessionState generation session state => (l.onSessionState generation session state, [])
  | .sessionClosed generation session result => l.onSessionClosed generation session result
  | .drained phase => l.onDrained env phase
  | .reconnectDue => { l with reconnectAt := none }.driveAndAct env .reconnectDue

/-! ### The whole link -/

/-- A new link, at rest. A channel that can not be served fails it at once. -/
def new (channel : Channel) (settings : Settings) : PublisherLink × List Effect :=
  let l : PublisherLink :=
    { channel := channel
      settings := settings
      control := .new .publisher channel.id channel.enabled
      wantsUp := false
      generation := 0
      sessionCount := 0
      connection := none
      phase := none
      reconnectAt := none }
  match channel.fault? with
  | some fault =>
    let (l, effects, _) := l.rejectChannel fault
    (l, effects)
  | none => (l, [])

/-- The view of a link without its transmitter. -/
def status (l : PublisherLink) : Link.Status :=
  let base := Link.Status.unconnected .publisher l.control.channel l.state l.control.reconnects
  match l.connection with
  | none => base
  | some c =>
    { base with
      endpoints := some c.endpoints
      tcp := c.sessions.map fun s => (Peer.ofEndpoint s.peer, s.state)
      udp := some (if l.phase.isSome then .disconnect else .sending) }

end PublisherLink

end ReliableMulticast
