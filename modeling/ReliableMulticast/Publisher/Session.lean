import ReliableMulticast.Channel.Basic
import ReliableMulticast.Fault
import ReliableMulticast.Frame.Stream
import ReliableMulticast.Link.Status
import ReliableMulticast.Publisher.Snapshot
import ReliableMulticast.Settings

/-!
One accepted connection of a publisher's link: login, snapshot, end of snapshot. The number at
which live frames take over is asked for after the login and before the snapshot begins. Whatever
goes wrong ends this session only.
-/

namespace ReliableMulticast

/-- Why a session ends early. -/
inductive SessionFailure
  | noLogin (within : Duration)
  | closedBeforeLogin
  | stream (error : StreamError)
  | undecodable (error : DecodeError)
  | invalidCredentials (username : String)
  | notLogin (type : UInt8)
  | io (error : IoError)
  | head (error : CallError)
deriving DecidableEq, Repr, Inhabited

def SessionFailure.message : SessionFailure → String
  | noLogin within => "no login within " ++ within.text
  | closedBeforeLogin => "connection closed before login"
  | stream error => error.message
  | undecodable error => error.message
  | invalidCredentials username => "invalid credentials for user '" ++ username ++ "'"
  | notLogin type => "expected login, received message type " ++ toString type.toNat
  | io error => error.message
  | head error => error.message

/-- How far a session is. -/
inductive SessionStage
  | login (deadline : Instant)
  /-- Waiting for the number at which live frames take over. -/
  | head
  /-- Streaming the snapshot that is followed by the live frames from `seq` on. -/
  | snapshot (seq : Nat)
  | over
deriving DecidableEq, Repr, Inhabited

structure Session where
  channel : Channel
  settings : Settings
  peer : Endpoint
  stage : SessionStage
deriving DecidableEq, Repr, Inhabited

namespace Session

inductive Output
  | report (state : Link.TcpState)
  | write (f : Frame)
  /-- Ask for the number of the next live frame. -/
  | askHead
  | startSnapshot
  | warn (text : String)
  /-- Nothing more is written. -/
  | shutdown
  /-- The last report: whether the snapshot was complete, or why the session failed. -/
  | closed (result : Except SessionFailure Bool)
deriving Repr, Inhabited

/-- A session has until `loginTimeout` after its start to log in. -/
def start (channel : Channel) (settings : Settings) (peer : Endpoint) (now : Instant) : Session :=
  ⟨channel, settings, peer, .login (now + settings.loginTimeout.nanos)⟩

def isOver (s : Session) : Bool := s.stage == .over

def finish (s : Session) (result : Except SessionFailure Bool) : Session × List Output :=
  ({ s with stage := .over }, [.closed result])

def fail (s : Session) (failure : SessionFailure) : Session × List Output :=
  s.finish (.error failure)

/-- Writes a frame and goes on, unless the other end is gone. -/
def writeThen (s : Session) (broken : Option IoError) (f : Frame)
    (go : Session × List Output) : Session × List Output :=
  match broken with
  | some e => s.fail (.io e)
  | none => (go.1, .write f :: go.2)

/-- The frame that acknowledges a login: the name again, without the password. -/
def acknowledgement (username : String) : Frame := .control (.login username "") 0

/-- Answers a login: whoever has the credentials of the channel gets an acknowledgement. -/
def onLogin (s : Session) (broken : Option IoError) (username password : String) :
    Session × List Output :=
  if s.channel.credentialsMatch username password then
    let (s, outputs) :=
      s.writeThen broken (acknowledgement username) ({ s with stage := .head }, [.askHead])
    (s, .report .sending :: outputs)
  else s.fail (.invalidCredentials username)

/-- The first frame, or the end of the stream before it. -/
def onRead (s : Session) (broken : Option IoError) : Stream.Outcome → Session × List Output
  | .ended => s.fail .closedBeforeLogin
  | .failed e => s.fail (.stream e)
  | .frame f =>
    match f.message? with
    | .error e => s.fail (.undecodable e)
    | .ok (some (.login username password)) => s.onLogin broken username password
    | .ok _ => s.fail (.notLogin f.type)

def onLoginTimeout (s : Session) : Session × List Output :=
  s.fail (.noLogin s.settings.loginTimeout)

def onHead (s : Session) : Except CallError Nat → Session × List Output
  | .ok seq => ({ s with stage := .snapshot seq }, [.startSnapshot])
  | .error e => s.fail (.head e)

def onSnapshotFrame (s : Session) (broken : Option IoError) (f : Frame) : Session × List Output :=
  s.writeThen broken f (s, [])

/-- The frame that ends a snapshot. -/
def endOfSnapshot (s : Session) (seq : Nat) (ok : Bool) : Frame :=
  .control (.endOfSnapshot s.channel.id (.ofNat seq) ok) 0

/-- Says whether the snapshot was complete and from where live frames take over. -/
def conclude (s : Session) (broken : Option IoError) (seq : Nat) (ok : Bool) :
    Session × List Output :=
  s.writeThen broken (s.endOfSnapshot seq ok)
    ({ s with stage := .over }, [.report .disconnect, .shutdown, .closed (.ok ok)])

def warning (s : Session) (text : String) : Output := .warn (s.peer.text ++ ": " ++ text)

def onSnapshotEnd (s : Session) (broken : Option IoError) (ending : SnapshotEnd) :
    Session × List Output :=
  match s.stage with
  | .snapshot seq =>
    match ending with
    | .complete => s.conclude broken seq true
    | .failed reason =>
      let (after, outputs) := s.conclude broken seq false
      (after, s.warning ("snapshot failed: " ++ reason) :: outputs)
    | .crashed =>
      let (after, outputs) := s.conclude broken seq false
      (after, s.warning "snapshot task failed" :: outputs)
  | _ => (s, [])

/-- Streams frames of the snapshot as long as the session goes on. -/
def onSnapshotFrames (s : Session) (broken : Option IoError) : List Frame → Session × List Output
  | [] => (s, [])
  | f :: rest =>
    match s.stage with
    | .snapshot _ =>
      let (s, outputs) := s.onSnapshotFrame broken f
      let (s, more) := onSnapshotFrames s broken rest
      (s, outputs ++ more)
    | _ => (s, [])

end Session

end ReliableMulticast
