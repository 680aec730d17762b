import ReliableMulticast.Address
import ReliableMulticast.Frame.Control
import ReliableMulticast.Frame.Header

/-!
Channels: where one stream of messages is served, who may log in to it, and which shard of the
data it carries. Each of its three services (TCP for login and snapshot, UDP for data, UDP for
repetitions) has a primary place, and a secondary one whose address and port each fall back to
the primary's.
-/

namespace ReliableMulticast

/-- The places of one service. -/
structure Service where
  ip : Ipv4
  port : UInt16
  ip2 : Option Ipv4
  port2 : Option UInt16
deriving DecidableEq, Repr, Inhabited

namespace Service

def ofEndpoint (e : Endpoint) : Service := ⟨e.ip, e.port, none, none⟩

def withSecondary (s : Service) (e : Endpoint) : Service :=
  { s with ip2 := some e.ip, port2 := some e.port }

def primary (s : Service) : Endpoint := ⟨s.ip, s.port⟩

def secondary (s : Service) : Endpoint := ⟨s.ip2.getD s.ip, s.port2.getD s.port⟩

def endpoint (s : Service) (useSecondary : Bool) : Endpoint :=
  if useSecondary then s.secondary else s.primary

end Service

/-- The three places that one connection attempt uses. -/
structure Endpoints where
  tcp : Endpoint
  udp : Endpoint
  resend : Endpoint
deriving DecidableEq, Repr, Inhabited

def Endpoints.text (e : Endpoints) : String :=
  "TCP " ++ e.tcp.text ++ " UDP " ++ e.udp.text ++ " Resend " ++ e.resend.text

structure Channel where
  id : ChannelId
  enabled : Bool
  shard : Option UInt8
  tcp : Service
  udp : Service
  resend : Service
  username : String
  password : String
deriving DecidableEq, Repr, Inhabited

/-- What makes a channel unusable. -/
inductive ChannelFault
  | emptyId
  | longId (id : ChannelId)
  | missingPort (id : ChannelId)
  | zeroSecondaryPort (id : ChannelId)
  | longCredentials (id : ChannelId)
  | reservedShard (id : ChannelId)
deriving DecidableEq, Repr, Inhabited

def ChannelFault.message : ChannelFault → String
  | emptyId => "channel id must not be empty"
  | longId id => "channel id " ++ id ++ " exceeds " ++ toString ControlType.idWidth ++ " bytes"
  | missingPort id => "channel " ++ id ++ ": TCP, UDP and resend ports must be configured"
  | zeroSecondaryPort id => "channel " ++ id ++ ": secondary ports must not be 0"
  | longCredentials id =>
    "channel " ++ id ++ ": credentials exceed " ++ toString ControlType.credentialWidth ++ " bytes"
  | reservedShard id =>
    "channel " ++ id ++ ": shard " ++ toString noShard.toNat ++ " is reserved for 'no shard'"

/-- What a link reports that is given such a channel. -/
def ChannelFault.report (fault : ChannelFault) : String :=
  "invalid channel configuration: " ++ fault.message

namespace Channel

/-! ### Building channels -/

/-- An enabled channel with primary places only, open to a login without name and password. -/
def new (id : ChannelId) (tcp udp resend : Endpoint) : Channel :=
  { id := id
    enabled := true
    shard := none
    tcp := .ofEndpoint tcp
    udp := .ofEndpoint udp
    resend := .ofEndpoint resend
    username := ""
    password := "" }

def withCredentials (c : Channel) (username password : String) : Channel :=
  { c with username := username, password := password }

def withShard (c : Channel) (shard : UInt8) : Channel := { c with shard := some shard }

def withSecondary (c : Channel) (tcp udp resend : Endpoint) : Channel :=
  { c with
    tcp := c.tcp.withSecondary tcp
    udp := c.udp.withSecondary udp
    resend := c.resend.withSecondary resend }

/-! ### Rules -/

/-- The first thing that is wrong with a channel. -/
def fault? (c : Channel) : Option ChannelFault :=
  if c.id.utf8ByteSize = 0 then some .emptyId
  else if ControlType.idWidth < c.id.utf8ByteSize then some (.longId c.id)
  else if c.tcp.port = 0 ∨ c.udp.port = 0 ∨ c.resend.port = 0 then some (.missingPort c.id)
  else if c.tcp.port2 = some 0 ∨ c.udp.port2 = some 0 ∨ c.resend.port2 = some 0 then
    some (.zeroSecondaryPort c.id)
  else if ControlType.credentialWidth < c.username.utf8ByteSize
      ∨ ControlType.credentialWidth < c.password.utf8ByteSize then some (.longCredentials c.id)
  else if c.shard = some noShard then some (.reservedShard c.id)
  else none

/-- A channel that a link can be brought up for. -/
def Valid (c : Channel) : Prop := c.fault? = none

instance (c : Channel) : Decidable c.Valid := inferInstanceAs (Decidable (_ = _))

def endpoints (c : Channel) (useSecondary : Bool) : Endpoints :=
  ⟨c.tcp.endpoint useSecondary, c.udp.endpoint useSecondary, c.resend.endpoint useSecondary⟩

/-- Repeated frames are told from live ones by the address they come from. -/
def isResendIp (c : Channel) (ip : Ip) : Bool :=
  match ip with
  | .v4 ip => ip == c.resend.ip || some ip == c.resend.ip2
  | .v6 _ => false

def credentialsMatch (c : Channel) (username password : String) : Bool :=
  c.username == username && c.password == password

/-- A channel without a shard takes everything, and frames without a shard pass every filter. -/
def acceptsShard (c : Channel) (shard : UInt8) : Bool :=
  match c.shard with
  | none => true
  | some own => shard == noShard || own == shard

end Channel

end ReliableMulticast
