import ReliableMulticast.Channel.Basic
import ReliableMulticast.Settings
import ReliableMulticast.Toml.Document

/-!
Configuration files: the settings of an engine under the key `engine`, and the channels that it
serves as the tables of the array `channels`. Keys without a meaning are skipped.
-/

namespace ReliableMulticast

structure ConfigFile where
  settings : Settings
  channels : List Channel
deriving DecidableEq, Repr, Inhabited

inductive ConfigFault
  | missingFile
  /-- The text is no TOML document, or a value has the wrong type. -/
  | malformed
  | settings (fault : SettingsFault)
  | channel (fault : ChannelFault)
  | duplicateId (id : ChannelId)
deriving DecidableEq, Repr, Inhabited

def ConfigFault.message : ConfigFault → String
  | missingFile => "No such file or directory (os error 2)"
  | malformed => "malformed configuration"
  | settings fault => fault.message
  | channel fault => fault.message
  | duplicateId id => "duplicate channel id " ++ id

namespace ConfigFile

/-! ### Fields -/

open Toml (Value)

/-- A field that may be missing. -/
def fieldOr {α : Type} (missing : α) (read : Value → Option α) (v : Option Value) : Option α :=
  match v with
  | none => some missing
  | some v => read v

/-- A field that may be missing and has no value then. -/
def optional {α : Type} (read : Value → Option α) (v : Option Value) : Option (Option α) :=
  match v with
  | none => some none
  | some v => (read v).map some

def ip? (v : Value) : Option Ipv4 := v.text?.bind Ipv4.parse?

def port? (v : Value) : Option UInt16 := (v.natBelow? 0x10000).map .ofNat

def shard? (v : Value) : Option UInt8 := (v.natBelow? 0x100).map .ofNat

def word? (v : Value) : Option Nat := v.natBelow? 0x100000000

def longWord? (v : Value) : Option Nat := v.natBelow? 0x10000000000000000

def millis? (v : Value) : Option Duration := (longWord? v).map .ofMillis

/-! ### Records -/

/-- A record whose fields have these names. -/
def record? (names : List String) (v : Value) : Option Value.Record :=
  v.record?.filter (·.restIsUsable names)

def settingsNames : List String :=
  ["max_queue_size", "login_timeout_ms", "reconn_interval_ms", "re_req_interval_ms",
    "re_req_max_gap", "ack_interval_ms", "heartbeat_interval_ms", "timeout", "n_accepts", "ttl",
    "loopback", "interface"]

def settings? (v : Value) : Option Settings := do
  let r ← record? settingsNames v
  let d := Settings.default
  return {
    maxQueue := ← fieldOr d.maxQueue longWord? (r.field? 0 "max_queue_size")
    loginTimeout := ← fieldOr d.loginTimeout millis? (r.field? 1 "login_timeout_ms")
    reconnectInterval := ← fieldOr d.reconnectInterval millis? (r.field? 2 "reconn_interval_ms")
    requestInterval := ← fieldOr d.requestInterval millis? (r.field? 3 "re_req_interval_ms")
    maxGap := ← fieldOr d.maxGap word? (r.field? 4 "re_req_max_gap")
    trimInterval := ← fieldOr d.trimInterval millis? (r.field? 5 "ack_interval_ms")
    heartbeatInterval := ← fieldOr d.heartbeatInterval millis? (r.field? 6 "heartbeat_interval_ms")
    timeout := ← fieldOr d.timeout word? (r.field? 7 "timeout")
    backlog := ← fieldOr d.backlog word? (r.field? 8 "n_accepts")
    ttl := ← fieldOr d.ttl word? (r.field? 9 "ttl")
    loopback := ← fieldOr d.loopback Value.boolean? (r.field? 10 "loopback")
    interface := ← fieldOr d.interface ip? (r.field? 11 "interface") }

/-- The four fields of a service, by the word that their names start with. -/
def service? (r : Value.Record) (name : String) (ip ip2 port port2 : Nat) : Option Service := do
  return {
    ip := ← (r.field? ip (name ++ "_ip")).bind ip?
    ip2 := ← optional ip? (r.field? ip2 (name ++ "_ip2"))
    port := ← (r.field? port (name ++ "_port")).bind port?
    port2 := ← optional port? (r.field? port2 (name ++ "_port2")) }

def serviceNames (name : String) : List String :=
  [name ++ "_ip", name ++ "_ip2", name ++ "_port", name ++ "_port2"]

def channelNames : List String :=
  ["id", "enabled", "shard_id", "tcp_username", "tcp_password"] ++ serviceNames "tcp"
    ++ serviceNames "udp" ++ serviceNames "resend"

def channel? (v : Value) : Option Channel := do
  let r ← record? channelNames v
  return {
    id := ← (r.field? 0 "id").bind Value.text?
    enabled := ← fieldOr true Value.boolean? (r.field? 1 "enabled")
    shard := ← optional shard? (r.field? 2 "shard_id")
    tcp := ← service? r "tcp" 3 4 5 6
    username := ← fieldOr "" Value.text? (r.field? 7 "tcp_username")
    password := ← fieldOr "" Value.text? (r.field? 8 "tcp_password")
    udp := ← service? r "udp" 9 10 11 12
    resend := ← service? r "resend" 13 14 15 16 }

def ofValue? (v : Value) : Option ConfigFile := do
  let r ← record? ["engine", "channels"] v
  return {
    settings := ← fieldOr Settings.default settings? (r.field? 0 "engine")
    channels := ← fieldOr [] (fun v => v.items?.bind (·.mapM channel?)) (r.field? 1 "channels") }

/-! ### Rules -/

/-- The first fault among channels, after those with the given ids. -/
def channelsFault? : List ChannelId → List Channel → Option ConfigFault
  | _, [] => none
  | seen, c :: rest =>
    match c.fault? with
    | some fault => some (.channel fault)
    | none =>
      if seen.contains c.id then some (.duplicateId c.id) else channelsFault? (c.id :: seen) rest

/-- The first fault: of the settings, then of the channels in order. -/
def fault? (f : ConfigFile) : Option ConfigFault :=
  match f.settings.fault? with
  | some fault => some (.settings fault)
  | none => channelsFault? [] f.channels

def ofText (text : String) : Except ConfigFault ConfigFile :=
  match (Toml.parse? text).bind ofValue? with
  | none => .error .malformed
  | some f =>
    match f.fault? with
    | some fault => .error fault
    | none => .ok f

/-- Reads a file, given its text if there is such a file. -/
def load (contents : Option String) : Except ConfigFault ConfigFile :=
  match contents with
  | none => .error .missingFile
  | some text => ofText text

end ConfigFile

end ReliableMulticast
