import ReliableMulticast.Frame.Control
import ReliableMulticast.Link.Machine

/-!
What links report to operators. A failure is dealt with inside the link, and an event is the only
sign of it outside.
-/

namespace ReliableMulticast.Link

inductive Side
  | publisher
  | subscriber
deriving DecidableEq, Repr, Inhabited

def Side.name : Side → String
  | publisher => "publisher"
  | subscriber => "subscriber"

def Side.ofName? (name : String) : Option Side :=
  [publisher, subscriber].find? (·.name == name)

inductive Severity
  | info
  | warning
  | error
deriving DecidableEq, Repr, Inhabited

namespace Severity

def rank : Severity → Nat
  | info => 0
  | warning => 1
  | error => 2

def name : Severity → String
  | info => "Info"
  | warning => "Warning"
  | error => "Error"

def ofName? (name : String) : Option Severity := [info, warning, error].find? (·.name == name)

end Severity

inductive Report
  | stateChanged (old new : State) (reconnects : UInt32)
  | alert (severity : Severity) (message : String)
deriving DecidableEq, Repr, Inhabited

structure Event where
  side : Side
  channel : ChannelId
  report : Report
deriving DecidableEq, Repr, Inhabited

/-- The levels of a log. -/
inductive LogLevel
  | debug
  | info
  | warn
  | error
deriving DecidableEq, Repr, Inhabited

def LogLevel.name : LogLevel → String
  | debug => "DEBUG"
  | info => "INFO"
  | warn => "WARN"
  | error => "ERROR"

namespace Event

/-- A change of state is never more than information. -/
def severity (e : Event) : Severity :=
  match e.report with
  | .stateChanged .. => .info
  | .alert severity _ => severity

/-- The line that an event leaves in the log. -/
def logLine (e : Event) : LogLevel × String :=
  match e.report with
  | .stateChanged old new _ => (.debug, "link state " ++ old.name ++ " -> " ++ new.name)
  | .alert .info message => (.info, message)
  | .alert .warning message => (.warn, message)
  | .alert .error message => (.error, message)

end Event

end ReliableMulticast.Link
