import ReliableMulticast.Simulation.Schedule
import ReliableMulticast.Simulation.Step

/-!
Running a script. A step is carried out first; then everything happens that can happen without time
passing, and then the script looks at what has come of it.
-/

namespace ReliableMulticast.Simulation.World

def new (publisher : Option PublisherSide) (subscriber : Option SubscriberSide) : World :=
  { now := 0
    showsStamps := publisher.isNone
    network := .new
    publisher := publisher
    subscriber := subscriber
    ready := []
    ending := []
    running := []
    held := []
    calls := []
    callCount := 0
    waits := []
    waitCount := 0
    ingest := []
    inHand := none
    patience := scriptPatience
    answer := none
    scriptConns := []
    scriptSockets := []
    scriptListeners := []
    acceptCounts := []
    publisherFeed := Link.Feed.new.subscribe.2
    subscriberFeed := Link.Feed.new.subscribe.2
    trace := .empty }

/-! ### Engines -/

/-- A publisher that was dropped takes no more steps. -/
def presentPublisher? (w : World) : Option PublisherSide := w.publisher.filter (!·.leaving)

/-- A subscriber that was dropped takes no more steps. -/
def presentSubscriber? (w : World) : Option SubscriberSide := w.subscriber.filter (!·.leaving)

def isPresent (w : World) : Link.Side → Bool
  | .publisher => w.presentPublisher?.isSome
  | .subscriber => w.presentSubscriber?.isSome

def noSide : Link.Side → Outcome
  | .publisher => .mistaken "no publisher"
  | .subscriber => .mistaken "no subscriber"

/-- A step that needs one side of the simulation. -/
def onSide (w : World) (side : Link.Side) (step : Outcome × World) : Outcome × World :=
  if w.isPresent side then step else (noSide side, w)

/-- A step that looks up the links of one side. -/
def onLinks (w : World) (side : Link.Side) (step : World → Outcome × World) : Outcome × World :=
  if w.isPresent side then step w.lookUp else (noSide side, w)

/-- A step that needs a link. -/
def onLink (w : World) (side : Link.Side) (id : ChannelId) (step : World → Outcome × World) :
    Outcome × World :=
  w.onLinks side fun w => if (w.stateOf? side id).isSome then step w else (noSide side, w)

def idsOf (w : World) : Link.Side → List ChannelId
  | .publisher => w.publisherIds
  | .subscriber => w.subscriberIds

def controlOf (side : Link.Side) (id : ChannelId) : Actor :=
  match side with
  | .publisher => .publisherControl id
  | .subscriber => .subscriberControl id

def changeEngine (w : World) (side : Link.Side)
    (change : {α : Type} → [Link.Commanded α] → Link.Engine α → Link.Engine α) : World :=
  match side with
  | .publisher =>
    { w with publisher := w.publisher.map fun p => { p with engine := change p.engine } }
  | .subscriber =>
    { w with subscriber := w.subscriber.map fun s => { s with engine := change s.engine } }

/-- Starts or stops an engine, and lets all its links look at what they were told. -/
def commandAll (w : World) (side : Link.Side)
    (change : {α : Type} → [Link.Commanded α] → Link.Engine α → Link.Engine α) : World :=
  (w.changeEngine side change).wakeAll ((w.idsOf side).map (controlOf side))

/-- Gives commands to one link. -/
def giveCommands (w : World) (side : Link.Side) (id : ChannelId) (commands : List Link.Command) :
    World :=
  let told := w.changeEngine side fun e =>
    { e with links := e.links.modify id fun node =>
        commands.foldl (fun node c => Link.Commanded.give c node) node }
  if commands.isEmpty then told else told.wake (controlOf side id)

def updateLink (w : World) (side : Link.Side) (channel : Channel) : Outcome × World :=
  match side with
  | .publisher =>
    match w.publisher with
    | none => (noSide side, w)
    | some p =>
      let (state, w) := w.updatePublisher p channel
      (.state state, w)
  | .subscriber =>
    match w.subscriber with
    | none => (noSide side, w)
    | some s =>
      let (state, w) := w.updateSubscriber s channel
      (.state state, w)

/-- The report of all links of a side. -/
def report (w : World) (side : Link.Side) : Outcome × World :=
  let (statuses, w) :=
    match side with
    | .publisher => askAll askPublisher w.publisherIds w
    | .subscriber => askAll askSubscriber w.subscriberIds w
  (.text (String.join (statuses.map fun s => if w.showsStamps then s.text else s.timelessText)), w)

def settingsOf (w : World) (side : Link.Side) : Outcome :=
  let settings : Option Settings :=
    match side with
    | .publisher => w.presentPublisher?.map (·.settings)
    | .subscriber => w.presentSubscriber?.map (·.settings)
  (settings.map Outcome.settings).getD (noSide side)

/-- Something about the links of one side, if there is that side. -/
def view {α : Type} (w : World) (side : Link.Side) (what : World → α) : Option α × World :=
  if w.isPresent side then
    let w := w.lookUp
    (some (what w), w)
  else (none, w)

def overview (side : Link.Side) (w : World) : List (ChannelId × Link.State) :=
  (w.idsOf side).filterMap fun id => (w.stateOf? side id).map fun s => (id, s)

/-- The links of both sides. -/
def overviews (w : World) : Outcome × World :=
  let (publisher, w) := w.view .publisher (overview .publisher)
  let (subscriber, w) := w.view .subscriber (overview .subscriber)
  (.links publisher subscriber, w)

/-- The link of a channel on both sides. -/
def find (w : World) (id : ChannelId) : Outcome × World :=
  let (publisher, w) := w.view .publisher fun w => w.stateOf? .publisher id
  let (subscriber, w) := w.view .subscriber fun w => w.stateOf? .subscriber id
  (.found publisher.join subscriber.join, w)

/-- Leaves one of several equal neighbours. -/
def mergeEqual : List Nat → List Nat
  | [] => []
  | n :: rest =>
    match mergeEqual rest with
    | [] => [n]
    | m :: merged => if n = m then m :: merged else n :: m :: merged

/-- Publishes a frame a number of times; the answer is how many links took it each time. -/
def publishMany (f : Frame) : Nat → World → List Nat × World
  | 0, w => ([], w)
  | n + 1, w =>
    let (count, w) := if f.isControl then (0, w.refuseControl f) else w.lookUp.fanOut f
    let (counts, w) := publishMany f n w
    (count :: counts, w)

def addWait (w : World) (x : StateWait) : World :=
  { w with waits := w.waits ++ [x], waitCount := w.waitCount + 1 }

/-- Starts a wait; the answer is its number. -/
def startWait (w : World) (side : Link.Side) (id : ChannelId) (state : Link.State) :
    Outcome × World :=
  let number := w.waitCount
  (.number number, (w.addWait ⟨number, side, id, state⟩).wake (.stateWait number))

def dropSide (w : World) : Link.Side → World
  | .publisher => w.dropPublisher
  | .subscriber => w.dropSubscriber

/-- Lets all sources that are held go on; the answer is how many these are. -/
def releaseAll (w : World) : Nat × World :=
  (w.held.length, { w with running := w.running ++ w.held, held := [] })

/-! ### The script's own part in the network -/

/-- How many connections may wait for a listener of the script. -/
def scriptBacklog : Nat := 1024

def closeScriptListener (w : World) (name : String) : World :=
  match w.scriptListeners.lookup name with
  | none => w
  | some listener =>
    { w with scriptListeners := w.scriptListeners.filter (·.1 != name) }.withNetwork
      (w.network.closeListener listener)

def scriptListen (w : World) (name : String) (addr : Endpoint) : Outcome × World :=
  match w.network.listen addr scriptBacklog (.listener name) with
  | (.error e, n) => (.failed e, { w with network := n })
  | (.ok listener, n) =>
    let w := { w with network := n }.closeScriptListener name
    (.nothing, { w with scriptListeners := w.scriptListeners ++ [(name, listener)] })

/-- The connection that a name stands for; `X#*` is the newest connection of a listener `X`. -/
def connName (w : World) (name : String) : String :=
  match name.toList.reverse with
  | '*' :: '#' :: listener =>
    let listener := String.ofList listener.reverse
    listener ++ "#" ++ toString ((w.acceptCounts.lookup listener).getD 0)
  | _ => name

def scriptConn? (w : World) (name : String) : Option ScriptConn :=
  w.scriptConns.find? (·.name == w.connName name)

def closeConn (w : World) (c : ScriptConn) : World :=
  { w with scriptConns := w.scriptConns.filter (·.name != c.name) }.dropEnd c.conn c.which

def scriptConnect (w : World) (name : String) (sender dest : Endpoint) : Outcome × World :=
  match w.network.connect (fun n => (sender, n)) dest .script with
  | (.error e, n, _) => (.failed e, { w with network := n })
  | (.ok conn, n, woken) =>
    let w := w.withNetwork (n, woken)
    let w :=
      match w.scriptConn? name with
      | some old => w.closeConn old
      | none => w
    (.nothing, { w with scriptConns := w.scriptConns ++ [⟨name, conn, .caller, false⟩] })

def noConn : Outcome := .mistaken "no such connection"

def scriptSend (w : World) (name : String) (bytes : Bytes) (thenClose : Bool) : Outcome × World :=
  match w.scriptConn? name with
  | none => (noConn, w)
  | some c =>
    let (outcome, w) :=
      if w.network.isBroken c.conn c.which then (.failed .brokenPipe, w)
      else (.nothing, w.withNetwork (w.network.write c.conn c.which bytes))
    (outcome, if thenClose then w.closeConn c else w)

def scriptClose (w : World) (name : String) : World :=
  match w.scriptConn? name with
  | none => w
  | some c => w.closeConn c

def closeScriptSocket (w : World) (name : String) : World :=
  match w.scriptSockets.lookup name with
  | none => w
  | some socket =>
    { w with
      scriptSockets := w.scriptSockets.filter (·.1 != name)
      network := w.network.closeSocket socket }

def openScriptSocket (w : World) (name : String) (addr : Endpoint) (reuse : Bool)
    (group : Option Ipv4) : Outcome × World :=
  match w.network.bind addr reuse .script [] with
  | (.error e, n) => (.failed e, { w with network := n })
  | (.ok socket, n) =>
    let n :=
      match group with
      | some group => n.join socket group .unspecified
      | none => n
    let w := { w with network := n }.closeScriptSocket name
    (.nothing, { w with scriptSockets := w.scriptSockets ++ [(name, socket)] })

/-- Sends datagrams without a socket; the answer is how many sockets got each. -/
def sendPackets (sender dest : Endpoint) : List Bytes → World → List Nat × World
  | [], w => ([], w)
  | bytes :: rest, w =>
    let (count, n, woken) := w.network.sendFrom sender dest bytes
    let (counts, w) := sendPackets sender dest rest (w.withNetwork (n, woken))
    (count :: counts, w)

def changeNetwork (w : World) (change : Network → Network) : World :=
  { w with network := change w.network }

/-! ### Steps -/

mutual

/-- Carries out a step. What it causes comes later. -/
def perform (w : World) : Step → Outcome × World
  | .update side channel => w.onLinks side fun w => w.updateLink side channel
  | .start side => w.onLinks side fun w => (.nothing, w.commandAll side fun e => e.start)
  | .stop side => w.onLinks side fun w => (.nothing, w.commandAll side fun e => e.stop)
  | .command side id commands =>
    w.onLink side id fun w => (.nothing, w.giveCommands side id commands)
  | .status side => w.onLinks side fun w => w.report side
  | .settings side => (w.settingsOf side, w)
  | .links => w.overviews
  | .find id => w.find id
  | .publish f times =>
    let (counts, after) := publishMany f times w
    w.onSide .publisher (.counts (mergeEqual counts), after)
  | .send id f =>
    w.onLink .publisher id fun w =>
      let (sent, after) := w.sendOn id f
      (.flag sent, after)
  | .ingest frames =>
    w.onSide .publisher (.nothing, { w with ingest := w.ingest ++ frames }.wake .ingest)
  | .endIngest => (.nothing, w)
  | .resend id seq count =>
    let (number, after) := w.startCall id seq count
    w.onSide .subscriber (.number number, after)
  | .abandonResend number => (.nothing, w.breakOff (.resendCall number))
  | .await side id state => w.onLink side id fun w => w.startWait side id state
  | .drop side => (.nothing, w.dropSide side)
  | .listen name addr => w.scriptListen name addr
  | .closeListener name => (.nothing, w.closeScriptListener name)
  | .connect name sender dest => w.scriptConnect name sender dest
  | .tcpSend name bytes thenClose => w.scriptSend name bytes thenClose
  | .tcpClose name => (.nothing, w.scriptClose name)
  | .openSocket name addr reuse group => w.openScriptSocket name addr reuse group
  | .closeSocket name => (.nothing, w.closeScriptSocket name)
  | .udpSend sender dest packets =>
    let (counts, after) := sendPackets sender dest packets w
    (.counts (mergeEqual counts), after)
  | .blackhole addr on => (.nothing, w.changeNetwork fun n => n.setBlackhole addr on)
  | .lose addr numbers => (.nothing, w.changeNetwork fun n => n.setLosses addr numbers)
  | .sendErrors addr count => (.nothing, w.changeNetwork fun n => n.setSendErrors addr count)
  | .acceptError addr =>
    let (found, step) := w.network.failAccept addr
    (.flag found, w.withNetwork step)
  | .receiveError addr => (.flag (w.network.sockets.any (·.addr == addr)), w)
  | .advance ms =>
    if w.held.isEmpty then (.nothing, w.settle.advance ms)
    else (.mistaken "a snapshot is held", w)
  | .settle => (.nothing, w)
  | .release =>
    let (count, after) := w.releaseAll
    (.number count, after)
  | .batch steps =>
    let (outcomes, after) := performAll w steps
    (.each outcomes, after)

def performAll (w : World) : List Step → List Outcome × World
  | [] => ([], w)
  | step :: rest =>
    let (outcome, after) := perform w step
    let (outcomes, after) := performAll after rest
    (outcome :: outcomes, after)

end

/-! ### Looking -/

/-- Reads the events that are at hand, at most `fuel` of them. A script that fell behind stops
where it is told so, and goes on at the next look. -/
def readEvents : Nat → Link.Feed → List Link.Event × Link.Feed
  | 0, f => ([], f)
  | fuel + 1, f =>
    match f.poll 0 with
    | (.event e, f) =>
      let (events, f) := readEvents fuel f
      (e :: events, f)
    | (_, f) => ([], f)

/-- What has arrived at a connection of the script since the last look. -/
def streamOf (w : World) (c : ScriptConn) : List Frame × List Bytes × Bool :=
  match w.network.connEnd? c.conn c.which with
  | none => ([], [], false)
  | some e =>
    let (frames, rest) := Stream.frames e.inbox
    (frames, rest, e.ended && !c.endSeen)

/-- Takes what has arrived at a connection of the script. -/
def lookAtConn (w : World) (c : ScriptConn) : (String × List Frame × Bool) × World :=
  let (frames, rest, ended) := w.streamOf c
  ((c.name, frames, ended),
    { w with
      network := w.network.setInbox c.conn c.which rest
      scriptConns := w.scriptConns.map fun x =>
        if x.name = c.name then { x with endSeen := x.endSeen || ended } else x })

def lookAtConns : List ScriptConn → World → List (String × List Frame × Bool) × World
  | [], w => ([], w)
  | c :: rest, w =>
    let (seen, w) := w.lookAtConn c
    let (more, w) := lookAtConns rest w
    (seen :: more, w)

/-- What has arrived at the sockets of the script since the last look. -/
def datagramsSeen (w : World) : List (String × List (Endpoint × Bytes)) :=
  w.scriptSockets.map fun (name, socket) =>
    (name, ((w.network.findSocket? socket).map (·.inbox)).getD [])

def emptySockets (w : World) : World :=
  w.changeNetwork fun n =>
    w.scriptSockets.foldl (fun n s => n.modifySocket s.2 ({ · with inbox := [] })) n

/-- The world after a look. -/
def cleared (w : World) (publisherFeed subscriberFeed : Link.Feed) : World :=
  { w with
    publisherFeed := publisherFeed
    subscriberFeed := subscriberFeed
    trace := .empty
    network := { w.network with log := [] } }.emptySockets

/-- Looks at everything that has happened since the last look. -/
def look (w : World) (outcome : Outcome) : Seen × World :=
  let (published, publisherFeed) := readEvents Link.Feed.capacity w.publisherFeed
  let (subscribed, subscriberFeed) := readEvents Link.Feed.capacity w.subscriberFeed
  let (streams, after) := lookAtConns w.scriptConns w
  let reports := (published ++ subscribed).map fun e => (e.side.name ++ " " ++ e.channel, e.report)
  ({ outcome := outcome
     reports := grouped reports
     deliveries := grouped w.trace.deliveries
     streams := streams
     datagrams := w.datagramsSeen
     resends := w.trace.resends.mergeSort fun a b => a.1 ≤ b.1
     waits := w.trace.waits.mergeSort
     warnings := w.trace.warnings.mergeSort fun a b => !(b < a)
     network := w.network.log },
    after.cleared publisherFeed subscriberFeed)

/-- Takes a step and looks at what comes of it. -/
def step (w : World) (s : Step) : Seen × World :=
  let (outcome, w) := w.perform s
  w.settle.look outcome

/-- Takes all steps of a script. -/
def run : List Step → World → List Seen
  | [], _ => []
  | s :: rest, w =>
    let (seen, w) := w.step s
    seen :: run rest w

end ReliableMulticast.Simulation.World
