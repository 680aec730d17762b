import ReliableMulticast.Simulation.Publishing
import ReliableMulticast.Simulation.Subscribing

/-!
Who runs when. The activities that have something to do stand in a line; the first one works until
it has to wait or has worked long enough, then the next. The script itself goes on after a round of
them, which ends with the line or after a fixed number of turns. Sources of snapshots work on their
own and get to their next frames only when the line is empty.

Time passes only when nobody has anything to do, and it passes from one point at which a timer is
due to the next.
-/

namespace ReliableMulticast.Simulation.World

/-! ### The script's own activities -/

/-- Gives a connection the name of its listener with a running number. -/
def addAccepted (w : World) (name : String) (conn : ConnId) : World :=
  let count := (w.acceptCounts.lookup name).getD 0 + 1
  { w with
    acceptCounts := (name, count) :: w.acceptCounts.filter (·.1 != name)
    scriptConns := w.scriptConns ++ [⟨name ++ "#" ++ toString count, conn, .callee, false⟩] }

/-- Accepts a connection for the script, which gets a name after the listener's. -/
def scriptAcceptTurn (w : World) (name : String) : Option World :=
  match w.scriptListeners.lookup name with
  | none => none
  | some listener =>
    match w.network.accept listener .script with
    | (.conn conn _, n) => some ({ w with network := n }.addAccepted name conn)
    | (.failed _, n) => some { w with network := n }
    | (.pending, _) => none

/-- The state of a link, while there is such a link. -/
def stateOf? (w : World) (side : Link.Side) (id : ChannelId) : Option Link.State :=
  match side with
  | .publisher => ((w.publisherNode? id).filter (!·.inbox.closed)).map (·.link.state)
  | .subscriber => ((w.subscriberNode? id).filter (!·.inbox.closed)).map (·.link.state)

/-- Somebody waits no longer. A link that was kept only for this ends. -/
def finishWait (w : World) (x : StateWait) : World :=
  let after : World :=
    { w with
      waits := w.waits.filter (·.number != x.number)
      trace := { w.trace with waits := w.trace.waits ++ [x.number] } }
  match x.side with
  | .publisher => after.endPublisherLinks
  | .subscriber => after.endSubscriberLinks

/-- Looks whether a link is in the state that somebody waits for. -/
def waitTurn (w : World) (number : Nat) : Option World :=
  (w.waits.find? (·.number == number)).bind fun x =>
    if w.stateOf? x.side x.link = some x.state then some (w.finishWait x) else none

/-! ### Turns -/

/-- One unit of an activity's work, unless it has to wait. -/
def turn (w : World) : Actor → Option World
  | .publisherControl id => w.publisherControlTurn id
  | .sendLoop id => w.sendLoopTurn id
  | .drain id => w.drainTurn id
  | .acceptLoop id generation => w.acceptTurn id generation
  | .requestLoop id generation => w.requestTurn id generation
  | .session id s => w.sessionTurn id s
  | .subscriberControl id => w.subscriberControlTurn id
  | .tcpLoop id generation => w.tcpTurn id generation
  | .udpLoop id generation => w.udpTurn id generation
  | .resendCall number => w.callTurn number
  | .stateWait number => w.waitTurn number
  | .ingest => w.ingestTurn
  | .listener name => w.scriptAcceptTurn name

/-- The last turn of an activity that was broken off: it lets go of all that it has. -/
def lastTurn (w : World) (a : Actor) : World :=
  match a with
  | .publisherControl id => w.endPublisherControl id
  | .sendLoop id => w.endSendLoop id
  | .acceptLoop .. => w.endAcceptLoop a
  | .requestLoop .. => w.letGoAll a
  | .session id s => w.endSession id s
  | .subscriberControl id => w.endSubscriberControl id
  | .tcpLoop id generation => w.endTcpLoop id generation
  | .udpLoop id generation => w.endUdpLoop id generation
  | .resendCall number => w.endCall number
  | _ => w

/-- The most units that an activity works before it lets others work. Only those that take what
was posted to them are held to it; the others work off all that has arrived. -/
def slice : Actor → Nat
  | .publisherControl _ | .sendLoop _ | .subscriberControl _ | .ingest => 128
  | _ => 0xffffffff

/-- Lets an activity work for at most `fuel` units. The answer is whether it has to wait. -/
def workWithin (a : Actor) : Nat → World → Bool × World
  | 0, w => (false, w)
  | fuel + 1, w =>
    match w.turn a with
    | some after => workWithin a fuel after
    | none => (true, w)

/-- Lets an activity work, or end. The answer is whether it has to wait. -/
def work (w : World) (a : Actor) : Bool × World :=
  if w.ending.contains a then (true, { w with ending := w.ending.erase a }.lastTurn a)
  else workWithin a (slice a) w

/-- Lets the first activities in line work, at most `turns` of them. The answer starts with those
that had more to do, the last one first. -/
def roundWithin : Nat → List Actor → World → List Actor × World
  | 0, tired, w => (tired, w)
  | turns + 1, tired, w =>
    match w.ready with
    | [] => (tired, w)
    | a :: _ =>
      let (done, after) := w.work a
      roundWithin turns (if done then tired else a :: tired)
        { after with ready := after.ready.drop 1 }

/-- The most turns of a round. -/
def turnLimit : Nat := 61

/-- A round of turns. Activities that had more to do stand in line again after it. -/
def round (w : World) : World :=
  let (tired, w) := roundWithin turnLimit [] w
  w.wakeAll tired

def settleWithin : Nat → World → World
  | 0, w => w
  | rounds + 1, w =>
    if !w.ready.isEmpty then settleWithin rounds w.round
    else if !w.running.isEmpty then settleWithin rounds w.runSources
    else w

/-- More rounds than these are not waited for. Links that fail without a pause between their
attempts could go on for ever. -/
def roundLimit : Nat := 300

/-- How often the script looks up links before it lets others work. -/
def scriptPatience : Nat := 128

def rested (w : World) : World := { w with patience := scriptPatience }

/-- Lets everything happen that can happen without time passing. -/
def settle (w : World) : World := (w.settleWithin roundLimit).rested

/-! ### Looking up links -/

/-- The script looks up links once more, which it does not do for ever without a round of the
others. -/
def lookUp (w : World) : World :=
  let w := if w.patience = 0 then w.round.rested else w
  { w with patience := w.patience - 1 }

/-- Waits for the answer to a question of the script, which goes on after a round. -/
def awaitAnswer : Nat → World → Option Answer × World
  | 0, w => (none, w.rested)
  | rounds + 1, w =>
    let w := w.round
    match w.answer with
    | some answer => (some answer, { w with answer := none }.rested)
    | none => awaitAnswer rounds w

/-- More rounds than these no answer takes. -/
def answerLimit : Nat := 0xffffff

def askPublisher (w : World) (id : ChannelId) : Option Link.Status × World :=
  match (w.postPublisher id .status).awaitAnswer answerLimit with
  | (some (.status s), w) =>
    match (w.tellTransmitter id (.task .status)).awaitAnswer answerLimit with
    | (some (.queue q), w) => (some { s with queue := some q }, w)
    | (_, w) => (none, w)
  | (_, w) => (none, w)

def askSubscriber (w : World) (id : ChannelId) : Option Link.Status × World :=
  match (w.postSubscriber id .status).awaitAnswer answerLimit with
  | (some (.status s), w) => (some s, w)
  | (_, w) => (none, w)

/-- Asks links for their status, one after the other. -/
def askAll (ask : World → ChannelId → Option Link.Status × World) :
    List ChannelId → World → List Link.Status × World
  | [], w => ([], w)
  | id :: rest, w =>
    let (status, w) := ask w id
    let (more, w) := askAll ask rest w
    (status.toList ++ more, w)

/-! ### Timers -/

/-- The point in time of a whole millisecond. -/
def atMilli (ms : Nat) : Instant := ms * 1000000

def sessionTimer (id : ChannelId) (r : RunningSession) : Option (Instant × Actor) :=
  match r.session.stage with
  | .login deadline => some (deadline, .session id r.id)
  | _ => none

def publisherTimers (id : ChannelId) (node : PublisherNode) : List (Instant × Actor) :=
  (if node.sendBox.closed then [] else [(atMilli node.sendLoop.dueAt, .sendLoop id)])
    ++ (if node.inbox.closed then []
      else (node.link.reconnectAt.map fun t => (t, Actor.publisherControl id)).toList)
    ++ node.sessions.filterMap (sessionTimer id)

def subscriberTimers (id : ChannelId) (node : SubscriberNode) : List (Instant × Actor) :=
  if node.inbox.closed then []
  else
    (atMilli node.liveness.dueAt, .subscriberControl id)
      :: node.link.timers.map fun t => (t.1, .subscriberControl id)

def callTimer (c : RunningCall) : Option (Instant × Actor) :=
  match c.call.map ResendCall.stage with
  | some (.waiting deadline) => some (deadline, .resendCall c.number)
  | _ => none

/-- All timers that run, each with the activity that it is for. -/
def timers (w : World) : List (Instant × Actor) :=
  ((w.publisher.map (·.engine.links.entries)).getD []).flatMap (fun e => publisherTimers e.1 e.2)
    ++ ((w.subscriber.map (·.engine.links.entries)).getD []).flatMap
      (fun e => subscriberTimers e.1 e.2)
    ++ w.calls.filterMap callTimer

/-- Those for whom a timer is due stand in line. -/
def wakeDue (w : World) : World :=
  w.wakeAll ((w.timers.filter (·.1 ≤ w.now)).map (·.2))

/-- Lets time pass up to `target`, from one point at which a timer is due to the next. -/
def advanceTo : Nat → World → Instant → World
  | 0, w, target => { w with now := target }
  | fuel + 1, w, target =>
    match ((w.timers.map (·.1)).filter fun time => w.now < time && time ≤ target).min? with
    | none => { w with now := target }
    | some time => advanceTo fuel ({ w with now := time }.wakeDue.settle) target

/-- Lets time pass. Timers are due at whole milliseconds, so there are no more such points than
milliseconds. -/
def advance (w : World) (ms : Nat) : World := w.advanceTo (ms + 1) (w.now + atMilli ms)

end ReliableMulticast.Simulation.World
