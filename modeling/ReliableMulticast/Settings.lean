import ReliableMulticast.Address
import ReliableMulticast.Duration

/-!
The settings that all links of one engine share, with the limits that they have to keep.
-/

namespace ReliableMulticast

structure Settings where
  /-- The most frames that a publisher keeps for repetition, and the widest window that a
  subscriber bears before it reconnects. -/
  maxQueue : Nat
  /-- How long a new connection may take to log in. -/
  loginTimeout : Duration
  /-- The pause between a failed attempt and the next. -/
  reconnectInterval : Duration
  /-- The pause before an open gap is asked for again, and the patience of a manual request. -/
  requestInterval : Duration
  /-- The largest gap that is filled by repetition. -/
  maxGap : Nat
  /-- How often a publisher trims the frames it keeps. -/
  trimInterval : Duration
  heartbeatInterval : Duration
  /-- The number of seconds without traffic after which a subscriber gives a link up. -/
  timeout : Nat
  /-- How many logins may wait to be accepted. -/
  backlog : Nat
  ttl : Nat
  loopback : Bool
  /-- Where multicast leaves and where groups are joined. -/
  interface : Ipv4
deriving DecidableEq, Repr

inductive SettingsFault
  | queueSize (size : Nat)
  | zeroGap
  | gapAboveQueue (gap size : Nat)
  | zeroInterval
  | zeroTimeout
  | zeroBacklog
  | largeTtl (value : Nat)
deriving DecidableEq, Repr, Inhabited

namespace Settings

def default : Settings :=
  { maxQueue := 100000
    loginTimeout := .ofSeconds 10
    reconnectInterval := .ofSeconds 10
    requestInterval := .ofSeconds 1
    maxGap := 10
    trimInterval := .ofSeconds 1
    heartbeatInterval := .ofSeconds 1
    timeout := 3
    backlog := 8
    ttl := 1
    loopback := false
    interface := .unspecified }

instance : Inhabited Settings := ⟨default⟩

/-- The largest queue size that can be set. -/
def maxQueueLimit : Nat := 1000000

def maxTtl : Nat := 255

end Settings

def SettingsFault.message : SettingsFault → String
  | queueSize size =>
    "max queue size must be between 1 and " ++ toString Settings.maxQueueLimit ++ ", was "
      ++ toString size
  | zeroGap => "maximum resend gap must be positive"
  | gapAboveQueue gap size =>
    "maximum resend gap " ++ toString gap ++ " exceeds max queue size " ++ toString size
  | zeroInterval => "timeouts and intervals must be positive"
  | zeroTimeout => "heartbeat timeout must be at least one tick"
  | zeroBacklog => "number of accepts must be positive"
  | largeTtl value =>
    "multicast TTL must not exceed " ++ toString Settings.maxTtl ++ ", was " ++ toString value

namespace Settings

/-- The first limit that is not kept. -/
def fault? (s : Settings) : Option SettingsFault :=
  if s.maxQueue = 0 ∨ maxQueueLimit < s.maxQueue then some (.queueSize s.maxQueue)
  else if s.maxGap = 0 then some .zeroGap
  else if s.maxQueue < s.maxGap then some (.gapAboveQueue s.maxGap s.maxQueue)
  else if s.loginTimeout.isZero || s.requestInterval.isZero || s.trimInterval.isZero
      || s.heartbeatInterval.isZero then some .zeroInterval
  else if s.timeout = 0 then some .zeroTimeout
  else if s.backlog = 0 then some .zeroBacklog
  else if maxTtl < s.ttl then some (.largeTtl s.ttl)
  else none

def Valid (s : Settings) : Prop := s.fault? = none

instance (s : Settings) : Decidable s.Valid := inferInstanceAs (Decidable (_ = _))

end Settings

end ReliableMulticast
