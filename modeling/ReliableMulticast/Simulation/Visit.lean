import ReliableMulticast.Publisher.Session
import ReliableMulticast.Ticker

/-!
A visit: one session served to a client at the other end of a stream within the process. What the
session asks the rest of its link for is answered at once.
-/

namespace ReliableMulticast.Simulation

structure Visit where
  now : Instant
  session : Session
  /-- The number of the next live frame, unless nobody answers. -/
  head : Option Nat
  /-- What the source does, if it is a scripted one. -/
  script : Option SnapshotScript
  /-- The source, while it is held up. -/
  held : Option SnapshotRun
  /-- What the client has sent and the session has not read. -/
  inbox : List Bytes
  /-- The client still has its end of the stream. -/
  clientOpen : Bool
  /-- The client sends nothing more. -/
  clientDone : Bool
deriving Inhabited

namespace Visit

/-- What can be seen of a visit. -/
inductive Sight
  | received (f : Frame)
  | reported (state : Link.TcpState)
  | closed (result : Except SessionFailure Bool)
  /-- What a scripted source got for its writes. -/
  | writes (errors : List SnapshotError) (written : Nat)
  | warned (text : String)
deriving Repr, Inhabited

/-- What the session gets for a write. -/
def broken (v : Visit) : Option IoError := if v.clientOpen then none else some .streamGone

def sights (outputs : List Session.Output) : List Sight :=
  outputs.filterMap fun o =>
    match o with
    | .report state => some (.reported state)
    | .write f => some (.received f)
    | .warn text => some (.warned text)
    | .closed result => some (.closed result)
    | _ => none

/-- The source goes on up to its next hold, and the session with it. -/
def runSource (v : Visit) (run : SnapshotRun) : Visit × List Sight :=
  let (frames, run, ending) := run.resume v.session.isOver
  let (session, outputs) := v.session.onSnapshotFrames v.broken frames
  match ending with
  | none => ({ v with session := session, held := some run }, sights outputs)
  | some ending =>
    let (session, more) := session.onSnapshotEnd v.broken ending
    let written := if v.script.isSome then [.writes run.errors run.written] else []
    ({ v with session := session, held := none }, sights outputs ++ written ++ sights more)

def answerHead (v : Visit) : Visit × List Sight :=
  let answer : Except CallError Nat :=
    match v.head with
    | some seq => .ok seq
    | none => .error .unanswered
  let (session, outputs) := v.session.onHead answer
  let v := { v with session := session }
  match session.stage with
  | .snapshot _ => v.runSource (.new (v.script.getD .empty))
  | _ => (v, sights outputs)

/-- The session reads a login, or the end of the stream before it. -/
def read (v : Visit) (outcome : Stream.Outcome) (rest : List Bytes) : Visit × List Sight :=
  let (session, outputs) := v.session.onRead v.broken outcome
  let v := { v with session := session, inbox := rest }
  match session.stage with
  | .head =>
    let (v, more) := v.answerHead
    (v, sights outputs ++ more)
  | _ => (v, sights outputs)

/-- The session reads what it can. What has arrived counts even at the last moment. -/
def settle (v : Visit) : Visit × List Sight :=
  match v.session.stage with
  | .login deadline =>
    match Stream.poll v.inbox (v.clientDone || !v.clientOpen) with
    | some (outcome, rest) => v.read outcome rest
    | none =>
      if deadline ≤ v.now then
        let (session, outputs) := v.session.onLoginTimeout
        ({ v with session := session }, sights outputs)
      else (v, [])
  | _ => (v, [])

/-! ### What the client does -/

/-- What the client gets for sending bytes; without its end of the stream nothing. -/
def sendResult (v : Visit) (bytes : Bytes) : Option (Except IoError Unit) :=
  if !v.clientOpen then none
  else if !bytes.isEmpty && (v.session.isOver || v.clientDone) then some (.error .streamGone)
  else some (.ok ())

def send (v : Visit) (bytes : Bytes) (close : Bool) : Visit :=
  let delivered := v.clientOpen && !v.clientDone && !v.session.isOver
  { v with
    inbox := if delivered then v.inbox ++ [bytes] else v.inbox
    clientOpen := v.clientOpen && !close }

def finish (v : Visit) : Visit := { v with clientDone := true }

def close (v : Visit) : Visit := { v with clientOpen := false }

/-- Lets a held source go on; the answer is how many there were. -/
def release (v : Visit) : Nat × Visit × List Sight :=
  match v.held with
  | none => (0, v, [])
  | some run =>
    let (v, seen) := v.runSource run
    (1, v, seen)

/-- Lets time pass, which it can not while a source is held. -/
def advance? (v : Visit) (d : Duration) : Option Visit :=
  if v.held.isSome then none else some { v with now := v.now + d.nanos }

end Visit

end ReliableMulticast.Simulation
