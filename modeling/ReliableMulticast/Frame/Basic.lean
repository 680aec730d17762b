import ReliableMulticast.Frame.Header
import ReliableMulticast.Frame.Control

/-!
Frames: a header and a body. The type in the header says whether the body is application data,
which the protocol does not look into, or a control message.
-/

namespace ReliableMulticast

structure Frame where
  header : Header
  body : Bytes
deriving DecidableEq, Repr, Inhabited

/-- Why a body can not be sent as application data. -/
inductive DataError
  | reservedType (type : UInt8)
  | bodyTooLong (length : Nat)
deriving DecidableEq, Repr, Inhabited

namespace Frame

def maxBodyLength : Nat := 65535

end Frame

def DataError.message : DataError → String
  | reservedType type =>
    "message type " ++ toString type.toNat ++ " is reserved for control messages"
  | bodyTooLong length =>
    "frame body of " ++ toString length ++ " bytes exceeds the maximum of "
      ++ toString Frame.maxBodyLength

namespace Frame

/-! ### Building frames -/

/-- A frame of application data. Number and heartbeat offset are stamped when it is sent. -/
def data (type shard : UInt8) (body : Bytes) : Except DataError Frame :=
  if (ControlType.ofCode? type).isSome then .error (.reservedType type)
  else if maxBodyLength < body.length then .error (.bodyTooLong body.length)
  else .ok ⟨⟨0, 0, .ofNat body.length, type, shard⟩, body⟩

def control (message : Message) (seq : UInt64) : Frame :=
  let body := message.encode
  ⟨⟨seq, 0, .ofNat body.length, message.type.code, noShard⟩, body⟩

/-! ### Views -/

def seq (f : Frame) : Nat := f.header.seq.toNat

def type (f : Frame) : UInt8 := f.header.type

def shard (f : Frame) : UInt8 := f.header.shard

def isControl (f : Frame) : Bool := (ControlType.ofCode? f.header.type).isSome

def encodedLength (f : Frame) : Nat := Header.size + f.body.length

/-- The header's length agrees with the body. -/
def WellSized (f : Frame) : Prop := f.header.len.toNat = f.body.length

instance (f : Frame) : Decidable f.WellSized := inferInstanceAs (Decidable (_ = _))

/-! ### Bytes -/

def encode (f : Frame) : Bytes := f.header.encode ++ f.body

/-- The frame at the start of a byte string; bytes after the declared body are ignored. -/
def decode (bytes : Bytes) : Except DecodeError Frame :=
  match Header.decode? bytes with
  | none => .error (.truncatedHeader bytes.length)
  | some (header, rest) =>
    let declared := header.len.toNat
    if rest.length < declared then .error (.truncatedBody declared rest.length)
    else .ok ⟨header, rest.take declared⟩

/-- The control message in a frame; application data has none. -/
def message? (f : Frame) : Except DecodeError (Option Message) :=
  match ControlType.ofCode? f.header.type with
  | none => .ok none
  | some .wake => .error (.notOnWire .wake)
  | some type =>
    if f.header.len.toNat ≠ type.bodyLength ∨ f.body.length ≠ type.bodyLength then
      .error (.bodyLength type type.bodyLength f.header.len.toNat)
    else (Message.decode type f.body).map some

theorem length_encode (f : Frame) : f.encode.length = f.encodedLength := by
  simp [encode, encodedLength, Header.length_encode]

end Frame

end ReliableMulticast
