import ReliableMulticast.Bytes

/-!
The sixteen bytes before every frame body, on TCP and UDP alike: sequence number (8 bytes),
nanoseconds since the last heartbeat (4), body length (2), message type (1), shard (1), all
numbers least significant byte first.
-/

namespace ReliableMulticast

/-- The shard of frames that belong to no shard. -/
def noShard : UInt8 := 255

structure Header where
  seq : UInt64
  nanos : UInt32
  len : UInt16
  type : UInt8
  shard : UInt8
deriving DecidableEq, Repr, Inhabited

namespace Header

def size : Nat := 16

def encode (h : Header) : Bytes :=
  Bytes.ofNat 8 h.seq.toNat ++ Bytes.ofNat 4 h.nanos.toNat ++ Bytes.ofNat 2 h.len.toNat
    ++ [h.type, h.shard]

/-- The number in `width` bytes from `start` on. -/
def fieldAt (bytes : Bytes) (start width : Nat) : Nat := Bytes.toNat ((bytes.drop start).take width)

/-- The header at the start of a byte string, and the bytes after it. -/
def decode? (bytes : Bytes) : Option (Header × Bytes) :=
  if bytes.length < size then none
  else
    some (
      { seq := .ofNat (fieldAt bytes 0 8)
        nanos := .ofNat (fieldAt bytes 8 4)
        len := .ofNat (fieldAt bytes 12 2)
        type := .ofNat (fieldAt bytes 14 1)
        shard := .ofNat (fieldAt bytes 15 1) },
      bytes.drop size)

theorem length_encode (h : Header) : h.encode.length = size := by
  simp [encode, Bytes.length_ofNat, size]

theorem decode?_eq_none_iff (bytes : Bytes) : decode? bytes = none ↔ bytes.length < size := by
  simp [decode?]

end Header

end ReliableMulticast
