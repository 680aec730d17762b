import ReliableMulticast.Link.Event

/-!
A link's machine together with the reporting of its transitions.
-/

namespace ReliableMulticast.Link

structure Control where
  side : Side
  channel : ChannelId
  machine : Machine
deriving DecidableEq, Repr, Inhabited

namespace Control

def new (side : Side) (channel : ChannelId) (enabled : Bool) : Control :=
  ⟨side, channel, Machine.new enabled⟩

def state (c : Control) : State := c.machine.state

def reconnects (c : Control) : UInt32 := c.machine.reconnects

def isSecondary (c : Control) : Bool := c.machine.isSecondary

def event (c : Control) (report : Report) : Event := ⟨c.side, c.channel, report⟩

def alert (c : Control) (severity : Severity) (message : String) : Event :=
  c.event (.alert severity message)

/-- Feeds an input to the machine; a change of state is reported once. -/
def drive (c : Control) (input : Input) : Control × Action × List Event :=
  let (machine, action) := c.machine.step input
  let after := { c with machine := machine }
  (after, action,
    if machine.state = c.machine.state then []
    else [after.event (.stateChanged c.machine.state machine.state machine.reconnects)])

end Control

end ReliableMulticast.Link
