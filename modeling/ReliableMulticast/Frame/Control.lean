import ReliableMulticast.Bytes
import ReliableMulticast.Duration

/-!
Control messages: what the two ends of a link say to each other beside application data. Each
type has one code and one fixed body length, and `Message.decode` reads a body of that length.
-/

namespace ReliableMulticast

abbrev ChannelId := String

/-! ### Types -/

inductive ControlType
  | heartbeat
  /-- Wakes an ingest loop inside one process. -/
  | wake
  | endOfSnapshot
  | login
  | resendRequest
deriving DecidableEq, Repr, Inhabited

namespace ControlType

def idWidth : Nat := 8

def credentialWidth : Nat := 32

def code : ControlType → UInt8
  | heartbeat => 22
  | wake => 23
  | endOfSnapshot => 24
  | login => 25
  | resendRequest => 26

def ofCode? (code : UInt8) : Option ControlType :=
  if code = 22 then some heartbeat
  else if code = 23 then some wake
  else if code = 24 then some endOfSnapshot
  else if code = 25 then some login
  else if code = 26 then some resendRequest
  else none

def bodyLength : ControlType → Nat
  | heartbeat => 12
  | wake => idWidth
  | endOfSnapshot => idWidth + 8 + 1
  | login => 2 * credentialWidth
  | resendRequest => 12

def name : ControlType → String
  | heartbeat => "Heartbeat"
  | wake => "Wake"
  | endOfSnapshot => "EndOfSnapshot"
  | login => "Login"
  | resendRequest => "ResendRequest"

theorem ofCode?_code (t : ControlType) : ofCode? t.code = some t := by cases t <;> rfl

theorem code_of_ofCode? {c : UInt8} {t : ControlType} (h : ofCode? c = some t) : t.code = c := by
  unfold ofCode? at h
  split at h
  · next e => cases h; exact e.symm
  split at h
  · next e => cases h; exact e.symm
  split at h
  · next e => cases h; exact e.symm
  split at h
  · next e => cases h; exact e.symm
  split at h
  · next e => cases h; exact e.symm
  · cases h

end ControlType

/-! ### What can be wrong with bytes -/

/-- The fields of control messages that do not take every value. -/
inductive ControlField
  | stamp
  | channelId
  | username
  | password
deriving DecidableEq, Repr, Inhabited

def ControlField.name : ControlField → String
  | .stamp => "heartbeat stamp"
  | .channelId => "channel id"
  | .username => "username"
  | .password => "password"

inductive DecodeError
  | truncatedHeader (available : Nat)
  | truncatedBody (declared available : Nat)
  | bodyLength (type : ControlType) (expected declared : Nat)
  | notOnWire (type : ControlType)
  | invalidField (field : ControlField)
deriving DecidableEq, Repr, Inhabited

def DecodeError.message : DecodeError → String
  | truncatedHeader available => "truncated frame header: " ++ toString available ++ " bytes"
  | truncatedBody declared available =>
    "truncated frame body: header declares " ++ toString declared ++ " bytes, "
      ++ toString available ++ " available"
  | bodyLength type expected declared =>
    type.name ++ " requires a body of " ++ toString expected ++ " bytes, header declares "
      ++ toString declared
  | notOnWire type => type.name ++ " is not valid on the wire"
  | invalidField field => "invalid " ++ field.name

/-! ### Messages and their bodies -/

inductive Message
  /-- The stamp is the sender's time of day, counted from the start of 1970. -/
  | heartbeat (stamp : Duration)
  | endOfSnapshot (id : ChannelId) (seq : UInt64) (ok : Bool)
  | login (username password : String)
  | resendRequest (seq : UInt64) (count : UInt32)
deriving DecidableEq, Repr, Inhabited

namespace Message

def type : Message → ControlType
  | heartbeat _ => .heartbeat
  | endOfSnapshot .. => .endOfSnapshot
  | login .. => .login
  | resendRequest .. => .resendRequest

/-- The largest number of seconds in a stamp; later stamps are sent as this one. -/
def maxSeconds : Nat := 0x7fffffffffffffff

def encode : Message → Bytes
  | heartbeat stamp =>
    Bytes.ofNat 8 (min stamp.seconds maxSeconds) ++ Bytes.ofNat 4 stamp.subsecond
  | endOfSnapshot id seq ok =>
    Bytes.ofField ControlType.idWidth id ++ Bytes.ofNat 8 seq.toNat ++ [if ok then 1 else 0]
  | login username password =>
    Bytes.ofField ControlType.credentialWidth username
      ++ Bytes.ofField ControlType.credentialWidth password
  | resendRequest seq count => Bytes.ofNat 8 seq.toNat ++ Bytes.ofNat 4 count.toNat

theorem length_encode (m : Message) : m.encode.length = m.type.bodyLength := by
  cases m <;> simp [encode, type, ControlType.bodyLength, Bytes.length_ofNat,
    Bytes.length_ofField, Nat.two_mul]

/-- The text of a field of `width` bytes, and the bytes after it. -/
def takeField (field : ControlField) (width : Nat) (body : Bytes) :
    Except DecodeError (String × Bytes) :=
  match Bytes.toField? (body.take width) with
  | some text => .ok (text, body.drop width)
  | none => .error (.invalidField field)

/-- Reads a body of the length that its type requires. -/
def decode (type : ControlType) (body : Bytes) : Except DecodeError Message :=
  match type with
  | .heartbeat =>
    let seconds := Bytes.toNat (body.take 8)
    let nanos := Bytes.toNat ((body.drop 8).take 4)
    if maxSeconds < seconds || 1000000000 ≤ nanos then .error (.invalidField .stamp)
    else .ok (.heartbeat ⟨seconds * 1000000000 + nanos⟩)
  | .wake => .error (.notOnWire .wake)
  | .endOfSnapshot => do
    let (id, rest) ← takeField .channelId ControlType.idWidth body
    return .endOfSnapshot id (.ofNat (Bytes.toNat (rest.take 8))) (rest.drop 8 != [0])
  | .login => do
    let (username, rest) ← takeField .username ControlType.credentialWidth body
    let (password, _) ← takeField .password ControlType.credentialWidth rest
    return .login username password
  | .resendRequest =>
    .ok (.resendRequest (.ofNat (Bytes.toNat (body.take 8)))
      (.ofNat (Bytes.toNat ((body.drop 8).take 4))))

end Message

end ReliableMulticast
