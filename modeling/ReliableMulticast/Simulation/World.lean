import ReliableMulticast.Link.Engine
import ReliableMulticast.Link.Feed
import ReliableMulticast.Mailbox
import ReliableMulticast.Publisher.SendLoop
import ReliableMulticast.Simulation.Network
import ReliableMulticast.Subscriber.Intake
import ReliableMulticast.Subscriber.ResendCall

/-!
The state of a simulation: a publisher, a subscriber, the network between them, what the script
has opened itself, and the activities that have something to do.
-/

namespace ReliableMulticast.Simulation

/-- What is posted to the control of a link: tasks, or the question for its status. -/
inductive ControlTask (τ : Type)
  | task (t : τ)
  | status
deriving Repr

/-! ### The publisher -/

/-- What is posted to a transmitter: tasks, or questions for its next number and its status. -/
inductive SendTask
  | task (t : Transmitter.Task)
  | head
  | status
deriving Repr, Inhabited

/-- Who waits for a transmitter: a disconnect, or a session. -/
inductive SendCaller
  | disconnect (phase : DisconnectPhase)
  | session (id : SessionId)
deriving Repr, Inhabited

/-- A session with its end of the connection. -/
structure RunningSession where
  id : SessionId
  generation : Nat
  conn : ConnId
  session : Session
  /-- The transmitter's answer that the session has not looked at. -/
  head : Option Nat
deriving Inhabited

/-- A link of a publisher. Its mailboxes are closed once its control and its transmitter are
gone. -/
structure PublisherNode where
  link : PublisherLink
  inbox : Mailbox (ControlTask PublisherLink.Task) Unit
  sendLoop : SendLoop
  sendBox : Mailbox SendTask SendCaller
  /-- The phase of a disconnect that the transmitter is through with, until the control knows. -/
  drained : Option DisconnectPhase
  sessions : List RunningSession
deriving Inhabited

instance : Link.Commanded PublisherNode where
  give command node :=
    let task : PublisherLink.Task :=
      match command with
      | .up => .up
      | .down => .down
      | .update channel => .update channel
    { node with inbox := (node.inbox.run (.task task)).2 }

/-- A source with the link and the session that it writes for. -/
structure RunningSource where
  link : ChannelId
  session : SessionId
  run : SnapshotRun
deriving Inhabited

/-- What the snapshots of a publisher are: one script for all channels, or one for each. -/
inductive Sources
  | all (script : SnapshotScript)
  | byChannel (scripts : List (ChannelId × SnapshotScript))
deriving Inhabited

def Sources.script (s : Sources) (id : ChannelId) : SnapshotScript :=
  match s with
  | all script => script
  | byChannel scripts => (scripts.lookup id).getD .empty

structure PublisherSide where
  settings : Settings
  sources : Sources
  engine : Link.Engine PublisherNode
  /-- Dropped; its links end one after the other, those for which somebody waits at last. -/
  leaving : Bool
deriving Inhabited

/-! ### The subscriber -/

/-- How far the TCP side of a subscriber's connection is. -/
inductive TcpStage
  | connecting (dest : Endpoint)
  /-- The connection is never established. -/
  | stuck
  /-- Connected, without the login to send. -/
  | waiting (conn : ConnId)
  | login (conn : ConnId) (f : Frame)
  | reading (conn : ConnId)
deriving Inhabited

def TcpStage.conn? : TcpStage → Option ConnId
  | waiting conn => some conn
  | login conn _ => some conn
  | reading conn => some conn
  | _ => none

structure TcpSide where
  generation : Nat
  stage : TcpStage
deriving Inhabited

structure UdpSide where
  generation : Nat
  channel : Channel
deriving Inhabited

/-- A link of a subscriber. Its mailbox is closed once its control is gone. -/
structure SubscriberNode where
  link : SubscriberLink
  inbox : Mailbox (ControlTask SubscriberLink.Task) Unit
  /-- Manual requests that the link has not looked at. -/
  manual : ManualResend
  tcp : List TcpSide
  udp : List UdpSide
  liveness : Ticker
deriving Inhabited

instance : Link.Commanded SubscriberNode where
  give command node :=
    let task : SubscriberLink.Task :=
      match command with
      | .up => .up
      | .down => .down
      | .update channel => .update channel
    { node with inbox := (node.inbox.run (.task task)).2 }

structure SubscriberSide where
  settings : Settings
  engine : Link.Engine SubscriberNode
  /-- Dropped; manual requests that are under way and waits still keep its links. -/
  leaving : Bool
deriving Inhabited

/-- A manual request that is under way. -/
structure RunningCall where
  number : Nat
  link : ChannelId
  seq : Nat
  count : Nat
  /-- What it has come to, once it has begun. -/
  call : Option ResendCall
  /-- The link's answer that the caller has not looked at. -/
  asked : Option (Option ResendFailure)
deriving Inhabited

/-! ### The script -/

/-- Somebody waits for a link to reach a state, and keeps the link meanwhile. -/
structure StateWait where
  number : Nat
  side : Link.Side
  link : ChannelId
  state : Link.State
deriving Inhabited

/-- An end of a connection that the script has. -/
structure ScriptConn where
  name : String
  conn : ConnId
  which : Which
  /-- The end of the stream was seen. -/
  endSeen : Bool
deriving Inhabited

/-- What the script is told about a link. -/
inductive Answer
  | status (s : Link.Status)
  | queue (q : Link.QueueStatus)
deriving Inhabited

/-- What is seen of a simulation between two looks, events apart. -/
structure Trace where
  deliveries : List (ChannelId × Delivery)
  warnings : List String
  resends : List (Nat × Except ResendFailure Frame)
  /-- The waits that are over. -/
  waits : List Nat
deriving Inhabited

def Trace.empty : Trace := ⟨[], [], [], []⟩

/-! ### The world -/

structure World where
  now : Instant
  /-- Reports show the stamps of heartbeats. Those of a publisher are the time of day. -/
  showsStamps : Bool
  network : Network
  publisher : Option PublisherSide
  subscriber : Option SubscriberSide
  /-- The activities that may have something to do; the first one runs. -/
  ready : List Actor
  /-- The activities that are broken off. They end instead of taking their next turn. -/
  ending : List Actor
  /-- The sources that go on once nobody else has anything to do. -/
  running : List RunningSource
  /-- The sources that are held up. -/
  held : List RunningSource
  calls : List RunningCall
  callCount : Nat
  waits : List StateWait
  waitCount : Nat
  /-- Frames that are fed to the publisher, oldest first. -/
  ingest : List Frame
  /-- The frame that was taken from those last. -/
  inHand : Option Frame
  /-- How many more times the script looks up links before it lets others work. -/
  patience : Nat
  /-- The answer to the script's question. -/
  answer : Option Answer
  scriptConns : List ScriptConn
  scriptSockets : List (String × SocketId)
  scriptListeners : List (String × Nat)
  /-- How many connections were accepted under the name of a listener. -/
  acceptCounts : List (String × Nat)
  /-- The events of each side, which the script reads. -/
  publisherFeed : Link.Feed
  subscriberFeed : Link.Feed
  trace : Trace
deriving Inhabited

namespace World

/-- Makes an activity run some time after those that have something to do already. -/
def wake (w : World) (a : Actor) : World :=
  if w.ready.contains a then w else { w with ready := w.ready ++ [a] }

def wakeAll (w : World) (actors : List Actor) : World := actors.foldl wake w

/-- Puts an operation on the network into effect. -/
def withNetwork (w : World) (step : Network × List Actor) : World :=
  { w with network := step.1 }.wakeAll step.2

def warn (w : World) (text : String) : World :=
  { w with trace := { w.trace with warnings := w.trace.warnings ++ [text] } }

/-- Those who wait for a state of a link. -/
def waitsFor (w : World) (side : Link.Side) (id : ChannelId) : List StateWait :=
  w.waits.filter fun x => x.side = side && x.link == id

def changeFeed (w : World) (side : Link.Side) (change : Link.Feed → Link.Feed) : World :=
  match side with
  | .publisher => { w with publisherFeed := change w.publisherFeed }
  | .subscriber => { w with subscriberFeed := change w.subscriberFeed }

/-- Feeds an event; whoever waits for a state looks again. -/
def emit (w : World) (e : Link.Event) : World :=
  let fed := w.changeFeed e.side (·.emit e)
  match e.report with
  | .stateChanged .. => fed.wakeAll ((w.waitsFor e.side e.channel).map (.stateWait ·.number))
  | .alert .. => fed

def deliver (w : World) (id : ChannelId) (d : Delivery) : World :=
  { w with trace := { w.trace with deliveries := w.trace.deliveries ++ [(id, d)] } }

/-! ### Links -/

def publisherNode? (w : World) (id : ChannelId) : Option PublisherNode :=
  w.publisher.bind (·.engine.links.get? id)

def subscriberNode? (w : World) (id : ChannelId) : Option SubscriberNode :=
  w.subscriber.bind (·.engine.links.get? id)

def modifyPublisherNode (w : World) (id : ChannelId) (change : PublisherNode → PublisherNode) :
    World :=
  { w with
    publisher := w.publisher.map fun p =>
      { p with engine := { p.engine with links := p.engine.links.modify id change } } }

def modifySubscriberNode (w : World) (id : ChannelId) (change : SubscriberNode → SubscriberNode) :
    World :=
  { w with
    subscriber := w.subscriber.map fun s =>
      { s with engine := { s.engine with links := s.engine.links.modify id change } } }

def publisherIds (w : World) : List ChannelId :=
  (w.publisher.map (·.engine.links.ids)).getD []

def subscriberIds (w : World) : List ChannelId :=
  (w.subscriber.map (·.engine.links.ids)).getD []

def postPublisher (w : World) (id : ChannelId) (task : ControlTask PublisherLink.Task) : World :=
  match (w.publisherNode? id).map (·.inbox.run task) with
  | some (true, box) =>
    (w.modifyPublisherNode id fun node => { node with inbox := box }).wake (.publisherControl id)
  | _ => w

/-- Posts a task to a publisher's link. -/
def tellPublisher (w : World) (id : ChannelId) (task : PublisherLink.Task) : World :=
  w.postPublisher id (.task task)

def postSubscriber (w : World) (id : ChannelId) (task : ControlTask SubscriberLink.Task) : World :=
  match (w.subscriberNode? id).map (·.inbox.run task) with
  | some (true, box) =>
    (w.modifySubscriberNode id fun node => { node with inbox := box }).wake (.subscriberControl id)
  | _ => w

/-- Posts a task to a subscriber's link. -/
def tellSubscriber (w : World) (id : ChannelId) (task : SubscriberLink.Task) : World :=
  w.postSubscriber id (.task task)

/-- Posts to the transmitter of a publisher's link. -/
def tellTransmitter (w : World) (id : ChannelId) (e : Envelope SendTask SendCaller) : World :=
  match (w.publisherNode? id).map (·.sendBox.post e) with
  | some (true, box) =>
    (w.modifyPublisherNode id fun node => { node with sendBox := box }).wake (.sendLoop id)
  | _ => w

/-! ### Sending -/

/-- Sends a datagram from a link's socket; an error is only logged. -/
def sendDatagram (w : World) (socket : SocketId) (dest : Endpoint) (f : Frame) : World :=
  let (result, n, woken) := w.network.send socket dest f.encode
  let w := { w with network := n }.wakeAll woken
  match result with
  | .ok _ => w
  | .error e => w.warn ("error sending UDP packet to " ++ dest.text ++ ": " ++ e.message)

def sendDatagrams (w : World) (sent : List Datagram) : World :=
  sent.foldl (fun w d => w.sendDatagram d.socket d.dest d.frame) w

/-- An activity lets sockets go. -/
def letGo (w : World) (a : Actor) (ids : List SocketId) : World :=
  { w with network := ids.foldl (Network.letGo · a) w.network }

def letGoAll (w : World) (a : Actor) : World := { w with network := w.network.letGoAll a }

def dropEnd (w : World) (conn : ConnId) (which : Which) : World :=
  w.withNetwork (w.network.dropEnd conn which)

/-! ### Breaking off -/

def session? (w : World) (id : ChannelId) (s : SessionId) : Option RunningSession :=
  (w.publisherNode? id).bind fun node => node.sessions.find? (·.id == s)

def tcpSide? (w : World) (id : ChannelId) (generation : Nat) : Option TcpSide :=
  (w.subscriberNode? id).bind fun node => node.tcp.find? (·.generation == generation)

/-- An activity that can be broken off. -/
def isRunning (w : World) (a : Actor) : Bool :=
  match a with
  | .publisherControl id => (w.publisherNode? id).any (!·.inbox.closed)
  | .sendLoop id => (w.publisherNode? id).any (!·.sendBox.closed)
  | .acceptLoop .. => (w.network.listenerOf? a).isSome
  | .requestLoop .. => (w.network.socketOf? a).isSome
  | .session id s => (w.session? id s).isSome
  | .subscriberControl id => (w.subscriberNode? id).any (!·.inbox.closed)
  | .tcpLoop id generation => (w.tcpSide? id generation).isSome
  | .udpLoop .. => (w.network.socketOf? a).isSome
  | .resendCall number => w.calls.any (·.number == number)
  | _ => false

/-- Breaks an activity off: its next turn is its last one. -/
def breakOff (w : World) (a : Actor) : World :=
  if w.isRunning a then { w with ending := a :: w.ending.erase a }.wake a else w

def breakOffAll (w : World) (actors : List Actor) : World := actors.foldl breakOff w

end World

end ReliableMulticast.Simulation
