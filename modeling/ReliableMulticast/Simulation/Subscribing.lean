import ReliableMulticast.Simulation.World

/-!
The activities of a subscriber's links: the control with its timers, the TCP side, the data socket,
and the manual requests of operators. Each is given as one unit of its work, or nothing when there
is none, and by its end when it is broken off.
-/

namespace ReliableMulticast.Simulation.World

/-! ### The TCP side -/

/-- Notes how far the TCP side of a connection is. -/
def setTcp (w : World) (id : ChannelId) (side : TcpSide) : World :=
  w.modifySubscriberNode id fun node =>
    { node with tcp := node.tcp.filter (·.generation != side.generation) ++ [side] }

/-- A TCP side ends, however far it is. -/
def endTcpLoop (w : World) (id : ChannelId) (generation : Nat) : World :=
  match w.tcpSide? id generation with
  | none => w
  | some side =>
    let w := w.modifySubscriberNode id fun node =>
      { node with tcp := node.tcp.filter (·.generation != generation) }
    match side.stage.conn? with
    | some conn => w.dropEnd conn .caller
    | none => w

/-- Starts a connection. Where connections are never established it stays as it is. -/
def startTcp (w : World) (id : ChannelId) (generation : Nat) (dest : Endpoint) : World :=
  let n := w.network.note ("tcp connect " ++ dest.text)
  if n.blackholes.contains dest then
    { w with network := n }.setTcp id ⟨generation, .stuck⟩
  else
    match n.connect (Network.ephemeral dest) dest (.actor (.tcpLoop id generation)) with
    | (.error e, n, _) =>
      ({ w with network := n }.endTcpLoop id generation).tellSubscriber id
        (.tcpClosed generation (some (.io e)))
    | (.ok conn, n, woken) =>
      ((w.withNetwork (n, woken)).setTcp id ⟨generation, .waiting conn⟩).tellSubscriber id
        (.tcpConnected generation dest)

/-- The TCP side ends by itself and says why. -/
def leaveTcp (w : World) (id : ChannelId) (generation : Nat) (failure : Option TcpFailure) :
    World :=
  (w.endTcpLoop id generation).tellSubscriber id (.tcpClosed generation failure)

def readTcp (w : World) (id : ChannelId) (generation : Nat) (conn : ConnId) : Option World :=
  match (w.network.connEnd? conn .caller).bind fun e => Stream.poll e.inbox e.ended with
  | none => none
  | some (.frame f, rest) =>
    some ({ w with network := w.network.setInbox conn .caller rest }.tellSubscriber id
      (.tcpFrame generation f))
  | some (.ended, _) => some (w.leaveTcp id generation none)
  | some (.failed e, _) => some (w.leaveTcp id generation (some (.stream e)))

def tcpTurn (w : World) (id : ChannelId) (generation : Nat) : Option World :=
  match w.tcpSide? id generation with
  | none => none
  | some side =>
    match side.stage with
    | .connecting dest => some (w.startTcp id generation dest)
    | .stuck => none
    | .waiting _ => none
    | .login conn f =>
      if w.network.isBroken conn .caller then
        some (w.leaveTcp id generation (some (.io .brokenPipe)))
      else
        some ((w.withNetwork (w.network.write conn .caller f.encode)).setTcp id
          ⟨generation, .reading conn⟩)
    | .reading conn => w.readTcp id generation conn

/-! ### The control -/

/-- Opens the data socket of a connection, if that is possible. -/
def openUdp (w : World) (id : ChannelId) (interface : Ipv4) (generation : Nat) (addr : Endpoint)
    (channel : Channel) : World :=
  let (opened, n) := w.network.openReceiver interface addr id generation
  let w := { w with network := n }
  match opened with
  | .error _ => w
  | .ok _ =>
    (w.modifySubscriberNode id fun node =>
      { node with udp := node.udp ++ [⟨generation, channel⟩] }).wake (.udpLoop id generation)

/-- Hands the login to a TCP side that waits for it. -/
def sendLogin (w : World) (id : ChannelId) (generation : Nat) (f : Frame) : World :=
  match (w.tcpSide? id generation).map TcpSide.stage with
  | some (.waiting conn) =>
    (w.setTcp id ⟨generation, .login conn f⟩).wake (.tcpLoop id generation)
  | _ => w

/-- Breaks off all that belongs to a connection; the control itself lets its socket go at once. -/
def closeConnection (w : World) (id : ChannelId) (generation : Nat) : World :=
  ((w.breakOff (.tcpLoop id generation)).breakOff (.udpLoop id generation)).letGoAll
    (.subscriberControl id)

def modifyCall (w : World) (number : Nat) (change : RunningCall → RunningCall) : World :=
  { w with calls := w.calls.map fun c => if c.number = number then change c else c }

def answerCall (w : World) (call : Nat) (failure : Option ResendFailure) : World :=
  (w.modifyCall call fun c => { c with asked := some failure }).wake (.resendCall call)

/-- Makes the caller look again whose request is in the slot of `m`. -/
def wakeCaller (w : World) (id : ChannelId) (m : ManualResend) : World :=
  match m.slot with
  | none => w
  | some (ticket, _) =>
    let callers := w.calls.filter fun c => c.link == id && c.call.any (·.ticket == ticket)
    w.wakeAll (callers.map fun c => .resendCall c.number)

def setManual (w : World) (id : ChannelId) (m : ManualResend) : World :=
  w.modifySubscriberNode id fun node => { node with manual := m }

def clearManual (w : World) (id : ChannelId) : World :=
  match w.subscriberNode? id with
  | none => w
  | some node => (w.setManual id node.manual.clear).wakeCaller id node.manual

def subscriberEffect (id : ChannelId) (interface : Ipv4) (w : World) : SubscriberLink.Effect → World
  | .notify e => w.emit e
  | .connect generation dest =>
    (w.setTcp id ⟨generation, .connecting dest⟩).wake (.tcpLoop id generation)
  | .openUdp generation addr channel => w.openUdp id interface generation addr channel
  | .openUdpInVain addr => { w with network := (w.network.openReceiver interface addr id 0).2 }
  | .login generation f => w.sendLogin id generation f
  | .closeTcp generation => w.breakOff (.tcpLoop id generation)
  | .close generation => w.closeConnection id generation
  | .deliver d => w.deliver id d
  | .send socket dest f => w.sendDatagram socket dest f
  | .clearManual => w.clearManual id
  | .answer call failure => w.answerCall call failure
  | .warn text => w.warn text

/-- What a link's control knows of the world. -/
def subscriberView (w : World) (node : SubscriberNode) : SubscriberLink.Surroundings where
  now := w.now
  openUdp? addr :=
    (w.network.openReceiver node.link.settings.interface addr node.link.channel.id 0).1

/-- Gives a task to a link's control and puts its answer into effect. -/
def controlSubscriber (w : World) (id : ChannelId) (node : SubscriberNode)
    (task : SubscriberLink.Task) : World :=
  let (link, effects) := node.link.onTask (w.subscriberView node) task
  effects.foldl (subscriberEffect id link.settings.interface)
    (w.modifySubscriberNode id fun node => { node with link := link })

/-- Deals with a timer of a link's control that is due. -/
def ringSubscriber (w : World) (id : ChannelId) (node : SubscriberNode) : Option World :=
  match node.link.timers.find? (·.1 ≤ w.now) with
  | some (_, task) => some (w.controlSubscriber id node task)
  | none =>
    if node.liveness.isDue w.now then
      let ring (node : SubscriberNode) : SubscriberNode :=
        { node with liveness := node.liveness.ring w.now }
      some ((w.modifySubscriberNode id ring).controlSubscriber id node .livenessTick)
    else none

def subscriberControlTurn (w : World) (id : ChannelId) : Option World :=
  match w.subscriberNode? id with
  | none => none
  | some node =>
    match node.inbox.take? with
    | some (e, box) =>
      let w := w.modifySubscriberNode id fun node => { node with inbox := box }
      match e with
      | .task (.task task) => some (w.controlSubscriber id node task)
      | .task .status => some { w with answer := some (.status node.link.status) }
      | _ => some w
    | none => if node.inbox.closed then none else w.ringSubscriber id node

/-- A control ends, and its connection with it. -/
def endSubscriberControl (w : World) (id : ChannelId) : World :=
  match w.subscriberNode? id with
  | none => w
  | some node =>
    let box := node.inbox.close.2
    let w := w.modifySubscriberNode id fun node => { node with inbox := box }
    match node.link.connection with
    | none => w
    | some c => w.closeConnection id c.generation

/-! ### The data socket -/

def udpTurn (w : World) (id : ChannelId) (generation : Nat) : Option World :=
  match w.subscriberNode? id, w.network.socketOf? (.udpLoop id generation) with
  | some node, some socket =>
    match node.udp.find? (·.generation == generation), w.network.receive socket.id with
    | some side, (some (sender, bytes), n) =>
      let w := { w with network := n }
      match Intake.ofDatagram side.channel node.manual sender bytes with
      | .undecodable e =>
        some (w.warn ("undecodable datagram from " ++ sender.text ++ " - dropping: " ++ e.message))
      | .foreign => some w
      | .taken m => some ((w.setManual id m).wakeCaller id node.manual)
      | .pass f => some (w.tellSubscriber id (.udp generation f))
    | _, _ => none
  | _, _ => none

def endUdpLoop (w : World) (id : ChannelId) (generation : Nat) : World :=
  (w.letGoAll (.udpLoop id generation)).modifySubscriberNode id fun node =>
    { node with udp := node.udp.filter (·.generation != generation) }

/-! ### The engine -/

def newSubscriberNode (w : World) (settings : Settings) (channel : Channel) :
    SubscriberNode × List SubscriberLink.Effect :=
  let (link, effects) := SubscriberLink.new channel settings
  ({ link := link
     inbox := .new
     manual := .new
     tcp := []
     udp := []
     liveness := .startedAt w.now (.ofSeconds 1) .delay }, effects)

/-- Hands a channel to its link, or to a new one; the answer is the state of the link. -/
def updateSubscriber (w : World) (s : SubscriberSide) (channel : Channel) : Link.State × World :=
  let known := (s.engine.links.get? channel.id).isSome
  let (node, effects) := w.newSubscriberNode s.settings channel
  let engine := s.engine.updateLink channel node
  let w := { w with subscriber := some { s with engine := engine } }
  let w :=
    if known then w else effects.foldl (subscriberEffect channel.id s.settings.interface) w
  (((engine.links.get? channel.id).map (·.link.state)).getD .down,
    w.wake (.subscriberControl channel.id))

/-- The links of a subscriber that was dropped end with the last manual request, except that one
for whose state somebody waits goes on. -/
def endSubscriberLinks (w : World) : World :=
  match w.subscriber with
  | none => w
  | some s =>
    if s.leaving && w.calls.isEmpty then
      let links := s.engine.links.visitOrder.filter fun id => (w.waitsFor .subscriber id).isEmpty
      w.breakOffAll (links.map .subscriberControl)
    else w

def leave (w : World) : World :=
  { w with subscriber := w.subscriber.map fun s => { s with leaving := true } }

/-- Drops the subscriber; manual requests that are under way are still answered. -/
def dropSubscriber (w : World) : World := w.leave.endSubscriberLinks

/-! ### Manual requests -/

/-- Starts a manual request; the answer is its number. -/
def startCall (w : World) (id : ChannelId) (seq count : Nat) : Nat × World :=
  let number := w.callCount
  let called : World :=
    { w with callCount := number + 1, calls := w.calls ++ [⟨number, id, seq, count, none, none⟩] }
  (number, called.wake (.resendCall number))

def forgetCall (w : World) (number : Nat) : World :=
  { w with calls := w.calls.filter (·.number != number) }.endSubscriberLinks

/-- A manual request is over. -/
def finishCall (w : World) (number : Nat) (result : Except ResendFailure Frame) : World :=
  { w with
    trace := { w.trace with resends := w.trace.resends ++ [(number, result)] } }.forgetCall number

/-- A manual request begins: it takes the slot and has the link ask the publisher. -/
def beginCall (w : World) (c : RunningCall) : World :=
  match w.subscriberNode? c.link with
  | none => w.finishCall c.number (.error (.noLink c.link))
  | some node =>
    match ResendCall.start node.link.settings node.manual c.seq c.count with
    | .error e => w.finishCall c.number (.error e)
    | .ok (call, m) =>
      let w := (w.setManual c.link m).modifyCall c.number fun c => { c with call := some call }
      w.tellSubscriber c.link (.manualResend c.number call.gap)

/-- Goes on with a manual request that has begun. -/
def proceedCall (w : World) (c : RunningCall) (call : ResendCall) (m : ManualResend) :
    Option World :=
  match c.asked with
  | some failure =>
    match call.onAsked m w.now failure with
    | .inl call =>
      some (w.modifyCall c.number fun c => { c with call := some call, asked := none })
    | .inr (result, m) => some ((w.setManual c.link m).finishCall c.number result)
  | none =>
    (call.poll m w.now).map fun (result, m) => (w.setManual c.link m).finishCall c.number result

def callTurn (w : World) (number : Nat) : Option World :=
  match w.calls.find? (·.number == number) with
  | none => none
  | some c =>
    match c.call with
    | none => some (w.beginCall c)
    | some call =>
      (w.subscriberNode? c.link).bind fun node => w.proceedCall c call node.manual

/-- The caller of a manual request does not wait any longer. -/
def endCall (w : World) (number : Nat) : World :=
  match w.calls.find? (·.number == number) with
  | none => w
  | some c =>
    let giveUp (node : SubscriberNode) : SubscriberNode :=
      match c.call with
      | none => node
      | some call => { node with manual := node.manual.giveUp call.ticket }
    (w.modifySubscriberNode c.link giveUp).forgetCall number

end ReliableMulticast.Simulation.World
