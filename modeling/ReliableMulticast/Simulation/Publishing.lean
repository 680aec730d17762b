import ReliableMulticast.Simulation.World

/-!
The activities of a publisher's links: the control, the transmitter with its timers, the loop that
accepts logins, the one that reads requests for repetition, and the sessions. Each is given as one
unit of its work, or nothing when there is none, and by its end when it is broken off.
-/

namespace ReliableMulticast.Simulation.World

/-! ### Sessions -/

def modifySession (w : World) (id : ChannelId) (s : SessionId)
    (change : RunningSession → RunningSession) : World :=
  w.modifyPublisherNode id fun node =>
    { node with sessions := node.sessions.map fun r => if r.id = s then change r else r }

def forgetSession (w : World) (id : ChannelId) (s : SessionId) : World :=
  w.modifyPublisherNode id fun node =>
    { node with sessions := node.sessions.filter (·.id != s) }

/-- What the source of a channel does. -/
def script (w : World) (channel : ChannelId) : SnapshotScript :=
  (w.publisher.map (·.sources.script channel)).getD .empty

/-- Lets a source go on once nobody else has anything to do. -/
def startSource (w : World) (source : RunningSource) : World :=
  { w with running := w.running ++ [source] }

def hold (w : World) (source : RunningSource) : World := { w with held := w.held ++ [source] }

/-- What a write of a session fails with. -/
def broken (w : World) (r : RunningSession) : Option IoError :=
  if w.network.isBroken r.conn .callee then some .brokenPipe else none

def sessionOutput (id : ChannelId) (r : RunningSession) (w : World) : Session.Output → World
  | .report state => w.tellPublisher id (.sessionState r.generation r.id state)
  | .write f => w.withNetwork (w.network.write r.conn .callee f.encode)
  | .askHead => w.tellTransmitter id (.request .head (.session r.id))
  | .startSnapshot => w.startSource ⟨id, r.id, .new (w.script r.session.channel.id)⟩
  | .warn text => w.warn text
  | .shutdown => w.withNetwork (w.network.shutdown r.conn .callee)
  | .closed result =>
    ((w.tellPublisher id (.sessionClosed r.generation r.id result)).dropEnd r.conn
      .callee).forgetSession id r.id

/-- Puts a session's answer to an input into effect. -/
def answerSession (w : World) (id : ChannelId) (r : RunningSession)
    (answer : Session × List Session.Output) : World :=
  answer.2.foldl (sessionOutput id r)
    (w.modifySession id r.id fun r => { r with session := answer.1 })

def loginTurn (w : World) (id : ChannelId) (r : RunningSession) (deadline : Instant) :
    Option World :=
  match (w.network.connEnd? r.conn .callee).bind fun e => Stream.poll e.inbox e.ended with
  | some (outcome, rest) =>
    let w := { w with network := w.network.setInbox r.conn .callee rest }
    some (w.answerSession id r (r.session.onRead (w.broken r) outcome))
  | none =>
    if deadline ≤ w.now then some (w.answerSession id r r.session.onLoginTimeout) else none

def sessionTurn (w : World) (id : ChannelId) (s : SessionId) : Option World :=
  match w.session? id s with
  | none => none
  | some r =>
    match r.session.stage with
    | .login deadline => w.loginTurn id r deadline
    | .head => r.head.map fun seq => w.answerSession id r (r.session.onHead (.ok seq))
    | .snapshot _ => none
    | .over => none

def endSession (w : World) (id : ChannelId) (s : SessionId) : World :=
  match w.session? id s with
  | none => w
  | some r => (w.dropEnd r.conn .callee).forgetSession id s

/-! ### Sources -/

/-- A source goes on up to its next hold, and its session with it. Without the session it is told
so at its next write. -/
def runSource (w : World) (source : RunningSource) : World :=
  match w.session? source.link source.session with
  | none =>
    match source.run.resume true with
    | (_, run, none) => w.hold { source with run := run }
    | (_, _, some _) => w
  | some r =>
    let (frames, run, ending) := source.run.resume r.session.isOver
    let (session, outputs) := r.session.onSnapshotFrames (w.broken r) frames
    match ending with
    | none => (w.answerSession source.link r (session, outputs)).hold { source with run := run }
    | some ending =>
      let (session, more) := session.onSnapshotEnd (w.broken r) ending
      w.answerSession source.link r (session, outputs ++ more)

def runSources (w : World) : World := w.running.foldl runSource { w with running := [] }

/-! ### The control -/

/-- Opens a listener and sockets for a link, as far as that is possible. -/
def openListening (w : World) (id : ChannelId) (generation : Nat) (endpoints : Endpoints) : World :=
  match w.publisherNode? id with
  | none => w
  | some node =>
    { w with network := (w.network.openPublisher node.link.settings endpoints id generation).2 }

/-- Breaks off the loops and the sessions of a connection. -/
def closeListening (w : World) (id : ChannelId) (generation : Nat) : World :=
  let sessions := ((w.publisherNode? id).map (·.sessions)).getD []
  ((w.breakOff (.acceptLoop id generation)).breakOff (.requestLoop id generation)).breakOffAll
    ((sessions.filter (·.generation == generation)).map fun r => .session id r.id)

def serve (w : World) (id : ChannelId) (generation : Nat) (s : SessionId) (conn : ConnId)
    (peer : Endpoint) (channel : Channel) : World :=
  let start (node : PublisherNode) : PublisherNode :=
    { node with
      sessions := node.sessions
        ++ [⟨s, generation, conn, .start channel node.link.settings peer w.now, none⟩] }
  ({ w with network := w.network.setReader conn .callee (.actor (.session id s))
      }.modifyPublisherNode id start).wake (.session id s)

def publisherEffect (id : ChannelId) (w : World) : PublisherLink.Effect → World
  | .notify e => w.emit e
  | .listen generation endpoints =>
    (w.openListening id generation endpoints).wakeAll
      [.acceptLoop id generation, .requestLoop id generation]
  | .listenInVain endpoints => w.openListening id 0 endpoints
  | .transmit task => w.tellTransmitter id (.task (.task task))
  | .drain phase => (w.tellTransmitter id (.barrier (.disconnect phase))).wake (.drain id)
  | .closeTcp generation => w.closeListening id generation
  | .serve generation s conn peer channel => w.serve id generation s conn peer channel
  | .refuse conn => w.dropEnd conn .callee
  | .warn text => w.warn text

/-- What a link's control knows of the world. -/
def publisherView (w : World) (node : PublisherNode) : PublisherLink.Surroundings where
  now := w.now
  listen? endpoints :=
    (w.network.openPublisher node.link.settings endpoints node.link.channel.id 0).1.map fun o =>
      (o.data, o.resend)

/-- Gives a task to a link's control and puts its answer into effect. -/
def controlPublisher (w : World) (id : ChannelId) (node : PublisherNode)
    (task : PublisherLink.Task) : World :=
  let (link, effects) := node.link.onTask (w.publisherView node) task
  effects.foldl (publisherEffect id)
    (w.modifyPublisherNode id fun node => { node with link := link })

/-- The script learns the status of a link. -/
def tellScript (w : World) (answer : Answer) : World := { w with answer := some answer }

def publisherControlTurn (w : World) (id : ChannelId) : Option World :=
  match w.publisherNode? id with
  | none => none
  | some node =>
    match node.inbox.take? with
    | some (e, box) =>
      let w := w.modifyPublisherNode id fun node => { node with inbox := box }
      match e with
      | .task (.task task) => some (w.controlPublisher id node task)
      | .task .status => some (w.tellScript (.status node.link.status))
      | _ => some w
    | none =>
      if !node.inbox.closed && node.link.reconnectAt.any (· ≤ w.now) then
        some (w.controlPublisher id node .reconnectDue)
      else none

/-- Connections that a control has not looked at. -/
def unseenConns (lost : List (Envelope (ControlTask PublisherLink.Task) Unit)) : List ConnId :=
  lost.filterMap fun e =>
    match e with
    | .task (.task (.accepted _ conn _)) => some conn
    | _ => none

/-- A control ends, and its connection with it. -/
def endPublisherControl (w : World) (id : ChannelId) : World :=
  match w.publisherNode? id with
  | none => w
  | some node =>
    let (lost, box) := node.inbox.close
    let w := w.modifyPublisherNode id fun node => { node with inbox := box }
    let w := (unseenConns lost).foldl (fun w conn => w.dropEnd conn .callee) w
    match node.link.connection with
    | none => w
    | some c => w.closeListening id c.generation

/-! ### The transmitter -/

/-- The sockets that a transmitter holds. -/
def heldSockets (t : Transmitter) : List SocketId :=
  match t.outlets with
  | none => []
  | some o => [o.data, o.resend]

/-- Gives a task to a transmitter, which may let go of sockets. -/
def transmit (w : World) (id : ChannelId) (node : PublisherNode) (task : Transmitter.Task) :
    World :=
  let (l, sent) := node.sendLoop.onTask w.now task
  let gone := (heldSockets node.sendLoop.transmitter).filter fun s =>
    !(heldSockets l.transmitter).contains s
  ((w.modifyPublisherNode id fun node => { node with sendLoop := l }).sendDatagrams
    sent).letGo (.sendLoop id) gone

/-- Tells a session the number of the next live frame. -/
def answerHead (w : World) (id : ChannelId) (seq : Nat) : SendCaller → World
  | .session s => (w.modifySession id s fun r => { r with head := some seq }).wake (.session id s)
  | .disconnect _ => w

/-- Notes that everything before a phase of a link's disconnect is dealt with. -/
def answerBarrier (id : ChannelId) (w : World) : SendCaller → World
  | .disconnect phase =>
    (w.modifyPublisherNode id fun node => { node with drained := some phase }).wake (.drain id)
  | .session _ => w

/-- Tells a link's control of the phase that the transmitter is through with. -/
def drainTurn (w : World) (id : ChannelId) : Option World :=
  ((w.publisherNode? id).bind (·.drained)).map fun phase =>
    (w.modifyPublisherNode id fun node => { node with drained := none }).tellPublisher id
      (.drained phase)

def sendLoopTurn (w : World) (id : ChannelId) : Option World :=
  match w.publisherNode? id with
  | none => none
  | some node =>
    match node.sendBox.take? with
    | some (e, box) =>
      let w := w.modifyPublisherNode id fun node => { node with sendBox := box }
      match e with
      | .task (.task task) => some (w.transmit id node task)
      | .task .status => some (w.tellScript (.queue node.sendLoop.transmitter.queueStatus))
      | .task .head => some w
      | .request _ caller => some (w.answerHead id node.sendLoop.transmitter.queue.head caller)
      | .barrier caller => some (answerBarrier id w caller)
    | none =>
      if node.sendBox.closed then none
      else
        (node.sendLoop.ring? w.now).map fun (l, sent) =>
          (w.modifyPublisherNode id fun node => { node with sendLoop := l }).sendDatagrams sent

/-- A transmitter ends. Who waits for it to be through with something waits no longer. -/
def endSendLoop (w : World) (id : ChannelId) : World :=
  match w.publisherNode? id with
  | none => w
  | some node =>
    let (lost, box) := node.sendBox.close
    let w := (w.modifyPublisherNode id fun node => { node with sendBox := box }).letGoAll
      (.sendLoop id)
    lost.foldl (fun w e =>
      match e with
      | .barrier caller => answerBarrier id w caller
      | _ => w) w

/-! ### What comes in -/

/-- An accept loop ends. Logins that its listener has not accepted are dropped. -/
def endAcceptLoop (w : World) (a : Actor) : World :=
  match w.network.listenerOf? a with
  | none => w
  | some l => w.withNetwork (w.network.closeListener l.id)

/-- Accepts a login. A listener that fails is closed. -/
def acceptTurn (w : World) (id : ChannelId) (generation : Nat) : Option World :=
  match w.network.listenerOf? (.acceptLoop id generation) with
  | none => none
  | some l =>
    match w.network.accept l.id .nobody with
    | (.conn conn peer, n) =>
      some ({ w with network := n }.tellPublisher id (.accepted generation conn peer))
    | (.failed e, n) =>
      some (({ w with network := n }.tellPublisher id (.listenerFailed generation e)).endAcceptLoop
        (.acceptLoop id generation))
    | (.pending, _) => none

/-- Reads a datagram on the socket for repetitions. -/
def requestTurn (w : World) (id : ChannelId) (generation : Nat) : Option World :=
  match w.network.socketOf? (.requestLoop id generation) with
  | none => none
  | some socket =>
    match w.network.receive socket.id with
    | (none, _) => none
    | (some (sender, bytes), n) =>
      let w := { w with network := n }
      match Transmitter.Task.ofDatagram? sender bytes with
      | some task => some (w.tellTransmitter id (.task (.task task)))
      | none => some w

/-! ### The engine -/

/-- A new link of a publisher, with its transmitter. -/
def newPublisherNode (w : World) (settings : Settings) (channel : Channel) :
    PublisherNode × List PublisherLink.Effect :=
  let (link, effects) := PublisherLink.new channel settings
  ({ link := link
     inbox := .new
     sendLoop := .new settings w.now
     sendBox := .new
     drained := none
     sessions := [] }, effects)

/-- Hands a channel to its link, or to a new one; the answer is the state of the link. -/
def updatePublisher (w : World) (p : PublisherSide) (channel : Channel) : Link.State × World :=
  let known := (p.engine.links.get? channel.id).isSome
  let (node, effects) := w.newPublisherNode p.settings channel
  let engine := p.engine.updateLink channel node
  let w := { w with publisher := some { p with engine := engine } }
  let w := if known then w else (effects.foldl (publisherEffect channel.id) w)
  let w := w.wake (.publisherControl channel.id)
  (((engine.links.get? channel.id).map (·.link.state)).getD .down,
    if known then w else w.wake (.sendLoop channel.id))

/-- Hands a frame to the transmitter of a link that is up. -/
def sendOn (w : World) (id : ChannelId) (f : Frame) : Bool × World :=
  match w.publisherNode? id with
  | some node =>
    if node.link.state = .up then (true, w.tellTransmitter id (.task (.task (.send f))))
    else (false, w)
  | none => (false, w)

/-- What is said of a control message that an application publishes. -/
def refuseControl (w : World) (f : Frame) : World :=
  if f.type = ControlType.wake.code then w
  else
    w.warn ("control message type " ++ toString f.type.toNat
      ++ " can not be published - dropping")

/-- Hands a frame to all links that are up; the answer is how many these are. -/
def fanOut (w : World) (f : Frame) : Nat × World :=
  ((w.publisher.map (·.engine.links.visitOrder)).getD []).foldl (fun (count, w) id =>
    match w.sendOn id f with
    | (true, w) => (count + 1, w)
    | (false, w) => (count, w)) (0, w)

/-- Takes the next of the frames that are fed to the publisher, or publishes the one that was
taken. Control messages are not for applications to publish. -/
def ingestTurn (w : World) : Option World :=
  match w.inHand with
  | some f => some ({ w with inHand := none }.fanOut f).2
  | none =>
    match w.ingest with
    | [] => none
    | f :: rest =>
      let w := { w with ingest := rest }
      some (if f.isControl then w.refuseControl f else { w with inHand := some f })

/-- The links of a publisher that was dropped end once nobody waits for their state. -/
def endPublisherLinks (w : World) : World :=
  match w.publisher with
  | none => w
  | some p =>
    if p.leaving then
      let links := p.engine.links.visitOrder.filter fun id => (w.waitsFor .publisher id).isEmpty
      w.breakOffAll (links.flatMap fun id => [.publisherControl id, .sendLoop id])
    else w

/-- Drops the publisher with everything that belongs to its links. -/
def dropPublisher (w : World) : World :=
  let dropped : World :=
    { w with
      publisher := w.publisher.map fun p => { p with leaving := true }
      ingest := []
      inHand := none }
  dropped.endPublisherLinks

end ReliableMulticast.Simulation.World
