/-!
The states of a link and what moves it between them. The machine is the same for both kinds of
link: each input answers with the action that the link has to carry out, and the outcome of that
action is the next input. Inputs that change nothing are ignored, so that bringing a link up or
down twice does no harm.
-/

namespace ReliableMulticast.Link

inductive State
  | down
  | disabled
  | connecting
  | up
  /-- Disconnected after a failure, waiting for the next attempt. -/
  | reconnectPending
  /-- Disconnecting after a failure, to connect again afterwards. -/
  | reconnecting
  /-- Not retried before the channel is configured anew. -/
  | failed
  | disconnecting
  /-- Disconnecting, and asked to come up in the meantime. -/
  | connectPending
  /-- Connecting or reconnecting, and asked to go down in the meantime. -/
  | disconnectPending
deriving DecidableEq, Repr, Inhabited

def State.name : State → String
  | down => "Down"
  | disabled => "Disabled"
  | connecting => "Connecting"
  | up => "Up"
  | reconnectPending => "ReconnectPending"
  | reconnecting => "Reconnecting"
  | failed => "Failed"
  | disconnecting => "Disconnecting"
  | connectPending => "ConnectPending"
  | disconnectPending => "DisconnectPending"

def State.all : List State :=
  [down, disabled, connecting, up, reconnectPending, reconnecting, failed, disconnecting,
    connectPending, disconnectPending]

def State.ofName? (name : String) : Option State := State.all.find? (·.name == name)

inductive Action
  | none
  | connect
  | disconnect
  /-- The disconnect before a reconnect is complete: connect again, after a pause unless
  `immediate`. -/
  | scheduleReconnect (immediate : Bool)
  | cancelReconnect
deriving DecidableEq, Repr, Inhabited

inductive Input
  /-- The operator wants the link up. -/
  | up
  /-- The operator wants the link down. -/
  | down
  /-- All parts of an attempt succeeded. -/
  | connected
  /-- Everything that a connection held is released. -/
  | disconnected
  /-- An attempt or a connection failed in a way that calls for another attempt. -/
  | reconnect (immediate : Bool)
  /-- The pause before a reconnect is over. -/
  | reconnectDue
  /-- A failure that no further attempt can mend. -/
  | failed
  | enable (enabled : Bool)
deriving DecidableEq, Repr, Inhabited

structure Machine where
  state : State
  /-- The failures since the link was last up. -/
  reconnects : UInt32
  immediate : Bool
  /-- While a disconnect is wanted: it was already begun. -/
  begun : Bool
deriving DecidableEq, Repr, Inhabited

namespace Machine

def new (enabled : Bool) : Machine := ⟨if enabled then .down else .disabled, 0, false, false⟩

/-- Attempts alternate between primary and secondary places. -/
def isSecondary (m : Machine) : Bool := m.reconnects % 2 == 1

def goTo (m : Machine) (state : State) (action : Action) : Machine × Action :=
  ({ m with state := state }, action)

def stay (m : Machine) : Machine × Action := (m, .none)

def onUp (m : Machine) : Machine × Action :=
  match m.state with
  | .down | .reconnectPending => m.goTo .connecting .connect
  | .disconnecting => m.goTo .connectPending .none
  | .disconnectPending => m.goTo (if m.begun then .connectPending else .connecting) .none
  | _ => m.stay

def onDown (m : Machine) : Machine × Action :=
  match m.state with
  | .connecting => { m with begun := false }.goTo .disconnectPending .none
  | .reconnecting => { m with begun := true }.goTo .disconnectPending .none
  | .up => m.goTo .disconnecting .disconnect
  | .connectPending => m.goTo .disconnecting .none
  | .reconnectPending => m.goTo .down .cancelReconnect
  | _ => m.stay

def onConnected (m : Machine) : Machine × Action :=
  match m.state with
  | .connecting => { m with reconnects := 0 }.goTo .up .none
  | .disconnectPending => if m.begun then m.stay else m.goTo .disconnecting .disconnect
  | _ => m.stay

def onDisconnected (m : Machine) : Machine × Action :=
  match m.state with
  | .disconnecting | .disconnectPending => m.goTo .down .none
  | .connectPending => m.goTo .connecting .connect
  | .reconnecting => m.goTo .reconnectPending (.scheduleReconnect m.immediate)
  | _ => m.stay

/-- Failures reported while a reconnect is under way are ignored. An attempt that is no longer
wanted is given up. -/
def onReconnect (m : Machine) (immediate : Bool) : Machine × Action :=
  match m.state with
  | .connecting | .up =>
    { m with reconnects := m.reconnects + 1, immediate := immediate }.goTo .reconnecting .disconnect
  | .disconnectPending =>
    if m.begun then m.stay else ({ m with begun := true }, .disconnect)
  | _ => m.stay

def onReconnectDue (m : Machine) : Machine × Action :=
  match m.state with
  | .reconnectPending => m.goTo .connecting .connect
  | _ => m.stay

/-- Leaves for a state of rest, from wherever the link is. -/
def retire (m : Machine) (rest : State) : Machine × Action :=
  match m.state with
  | .reconnectPending => m.goTo rest .cancelReconnect
  | .down | .failed | .disabled => m.goTo rest .none
  | _ => m.goTo rest .disconnect

def onFailed (m : Machine) : Machine × Action :=
  match m.state with
  | .failed | .disabled => m.stay
  | _ => m.retire .failed

def onEnable (m : Machine) (enabled : Bool) : Machine × Action :=
  if enabled then
    match m.state with
    | .disabled | .failed => { m with reconnects := 0 }.goTo .down .none
    | _ => m.stay
  else
    match m.state with
    | .disabled => m.stay
    | _ => m.retire .disabled

def step (m : Machine) : Input → Machine × Action
  | .up => m.onUp
  | .down => m.onDown
  | .connected => m.onConnected
  | .disconnected => m.onDisconnected
  | .reconnect immediate => m.onReconnect immediate
  | .reconnectDue => m.onReconnectDue
  | .failed => m.onFailed
  | .enable enabled => m.onEnable enabled

end Machine

end ReliableMulticast.Link
