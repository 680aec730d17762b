import ReliableMulticast.Proofs.Frame.Codec
import ReliableMulticast.Proofs.Frame.Field

/-!
# Messages in frames

A message is written into a body of the length that its type has. `Message.Fits` says which messages are written in full:
the texts are free of `nul` and not wider than their fields, and a stamp is not later than the latest that can be written.

* `Message.decode_heartbeat_eq`, `Message.decode_endOfSnapshot_eq` and `Message.decode_login_eq`: how any body is read;
* `Message.decode_encode_iff`: the messages that fit come back from their bodies, and no others.

Main statement (`Frame.message?_control_iff_fits`): a frame that is built for a message is read back from its bytes, and
carries just this message if and only if the message fits.
-/

namespace ReliableMulticast

namespace Bytes

/-- A number that fills eight bytes is negative as a signed one if it is beyond the largest of these. -/
theorem int64_ofNat_neg_iff {n : Nat} (h : n < 2 ^ 64) : Int64.ofNat n < 0 ↔ Message.maxSeconds < n := by
  rw [Int64.lt_iff_toInt_lt]
  simp [Int.bmod_def, Message.maxSeconds]
  omega

theorem toNat_take_lt (width : Nat) (bytes : Bytes) : toNat (bytes.take width) < 256 ^ width := by
  have hlength : (bytes.take width).length ≤ width := List.length_take_le width bytes
  have hpow : 256 ^ (bytes.take width).length ≤ 256 ^ width := Nat.pow_le_pow_right (by decide) hlength
  exact Nat.lt_of_lt_of_le (toNat_lt _) hpow

end Bytes

namespace Message

open Bytes (beforeNul)

/-! ### Messages with texts -/

theorem takeField_ofField (field : ControlField) {width : Nat} {text : String} (h : text.utf8ByteSize ≤ width)
    (rest : Bytes) : takeField field width (Bytes.ofField width text ++ rest) = .ok (beforeNul text, rest) := by
  unfold takeField
  rw [List.take_left' (Bytes.length_ofField width text), List.drop_left' (Bytes.length_ofField width text),
    Bytes.toField?_ofField h]

theorem decode_login {username password : String} (hname : username.utf8ByteSize ≤ ControlType.credentialWidth)
    (hword : password.utf8ByteSize ≤ ControlType.credentialWidth) :
    decode .login (login username password).encode = .ok (.login (beforeNul username) (beforeNul password)) := by
  have hsecond := takeField_ofField .password hword []
  rw [List.append_nil] at hsecond
  unfold decode encode
  dsimp only
  rw [takeField_ofField .username hname]
  simp only [bind, Except.bind]
  rw [hsecond]
  rfl

theorem decode_endOfSnapshot {id : ChannelId} (hid : id.utf8ByteSize ≤ ControlType.idWidth) (seq : UInt64) (ok : Bool) :
    decode .endOfSnapshot (endOfSnapshot id seq ok).encode = .ok (.endOfSnapshot (beforeNul id) seq ok) := by
  unfold decode encode
  dsimp only
  rw [List.append_assoc, takeField_ofField .channelId hid]
  simp only [bind, Except.bind]
  rw [List.take_left' (Bytes.length_ofNat _ _), List.drop_left' (Bytes.length_ofNat _ _),
    Bytes.toNat_ofNat_of_lt seq.toNat_lt, UInt64.ofNat_toNat]
  cases ok <;> rfl

/-! ### How a body is read -/

/-- The seconds of the stamp in the body of a heartbeat, as a signed number. -/
def seconds (body : Bytes) : Int64 := .ofNat (Bytes.toNat (body.take 8))

def nanos (body : Bytes) : Nat := Bytes.toNat ((body.drop 8).take 4)

theorem decode_heartbeat_eq (body : Bytes) : decode .heartbeat body =
    if seconds body < 0 ∨ 1000000000 ≤ nanos body then .error (.invalidField .stamp)
    else .ok (.heartbeat ⟨Bytes.toNat (body.take 8) * 1000000000 + nanos body⟩) := by
  have hlt : Bytes.toNat (body.take 8) < 2 ^ 64 := Bytes.toNat_take_lt 8 body
  unfold decode
  dsimp only
  simp only [seconds, Bytes.int64_ofNat_neg_iff hlt, nanos, Bool.or_eq_true, decide_eq_true_eq]

theorem decode_endOfSnapshot_eq (body : Bytes) : decode .endOfSnapshot body =
    match Bytes.toField? (body.take ControlType.idWidth) with
    | none => .error (.invalidField .channelId)
    | some id => .ok (.endOfSnapshot id (.ofNat (Bytes.toNat ((body.drop 8).take 8))) (body.drop 16 != [0])) := by
  unfold decode takeField
  cases Bytes.toField? (body.take ControlType.idWidth) with
  | none => rfl
  | some id =>
    simp only [bind, Except.bind, List.drop_drop]
    rfl

theorem decode_login_eq (body : Bytes) : decode .login body =
    match Bytes.toField? (body.take ControlType.credentialWidth),
      Bytes.toField? ((body.drop ControlType.credentialWidth).take ControlType.credentialWidth) with
    | none, _ => .error (.invalidField .username)
    | some _, none => .error (.invalidField .password)
    | some username, some password => .ok (.login username password) := by
  unfold decode takeField
  cases Bytes.toField? (body.take ControlType.credentialWidth) with
  | none => rfl
  | some username =>
    simp only [bind, Except.bind]
    cases Bytes.toField? ((body.drop ControlType.credentialWidth).take ControlType.credentialWidth) with
    | none => rfl
    | some password => rfl

/-! ### Messages that are written in full -/

/-- The body of the message says all of it. -/
def Fits : Message → Prop
  | heartbeat stamp => stamp.seconds ≤ maxSeconds
  | endOfSnapshot id _ _ => Bytes.Fits ControlType.idWidth id
  | login username password =>
    Bytes.Fits ControlType.credentialWidth username ∧ Bytes.Fits ControlType.credentialWidth password
  | resendRequest _ _ => True

theorem decode_heartbeat (stamp : Duration) : decode .heartbeat (heartbeat stamp).encode =
    .ok (.heartbeat ⟨min stamp.seconds maxSeconds * 1000000000 + stamp.subsecond⟩) := by
  have hseconds : min stamp.seconds maxSeconds < 256 ^ 8 := by
    unfold maxSeconds
    omega
  have hsubsecond : stamp.subsecond < 1000000000 := Nat.mod_lt _ (by decide)
  have hfirst := Bytes.length_ofNat 8 (min stamp.seconds maxSeconds)
  have hsecond := Bytes.length_ofNat 4 stamp.subsecond
  have hlast : Bytes.toNat (Bytes.ofNat 4 stamp.subsecond) = stamp.subsecond := Bytes.toNat_ofNat_of_lt (by omega)
  unfold decode encode
  dsimp only
  rw [List.take_left' hfirst, List.drop_left' hfirst, List.take_of_length_le (Nat.le_of_eq hsecond),
    Bytes.toNat_ofNat_of_lt hseconds, hlast, if_neg]
  simp
  omega

/-- The first field of an end of a snapshot decides whether it is read, and how. -/
theorem decode_encode_endOfSnapshot_iff (id : ChannelId) (seq : UInt64) (ok : Bool) :
    decode .endOfSnapshot (endOfSnapshot id seq ok).encode = .ok (.endOfSnapshot id seq ok) ↔
      Bytes.Fits ControlType.idWidth id := by
  constructor
  · intro h
    have hfield : (endOfSnapshot id seq ok).encode.take ControlType.idWidth = Bytes.ofField ControlType.idWidth id := by
      unfold encode
      dsimp only
      rw [List.append_assoc, List.take_left' (Bytes.length_ofField _ _)]
    rw [decode_endOfSnapshot_eq, hfield] at h
    cases hid : Bytes.toField? (Bytes.ofField ControlType.idWidth id) with
    | none =>
      rw [hid] at h
      cases h
    | some id' =>
      rw [hid] at h
      injection h with h
      injection h with hsame
      rw [hsame] at hid
      exact Bytes.toField?_ofField_iff.1 hid
  · rintro ⟨hfree, hsize⟩
    rw [decode_endOfSnapshot hsize, (Bytes.beforeNul_eq_self_iff id).2 hfree]

theorem decode_encode_login_iff (username password : String) :
    decode .login (login username password).encode = .ok (.login username password) ↔
      Bytes.Fits ControlType.credentialWidth username ∧ Bytes.Fits ControlType.credentialWidth password := by
  constructor
  · intro h
    have hfirst : (login username password).encode.take ControlType.credentialWidth =
        Bytes.ofField ControlType.credentialWidth username := List.take_left' (Bytes.length_ofField _ _)
    have hsecond : ((login username password).encode.drop ControlType.credentialWidth).take ControlType.credentialWidth =
        Bytes.ofField ControlType.credentialWidth password := by
      unfold encode
      dsimp only
      rw [List.drop_left' (Bytes.length_ofField _ _), List.take_of_length_le (Nat.le_of_eq (Bytes.length_ofField _ _))]
    rw [decode_login_eq, hfirst, hsecond] at h
    cases hname : Bytes.toField? (Bytes.ofField ControlType.credentialWidth username) with
    | none =>
      rw [hname] at h
      cases h
    | some username' =>
      cases hword : Bytes.toField? (Bytes.ofField ControlType.credentialWidth password) with
      | none =>
        rw [hname, hword] at h
        cases h
      | some password' =>
        rw [hname, hword] at h
        injection h with h
        injection h with hsame hsame'
        rw [hsame] at hname
        rw [hsame'] at hword
        exact ⟨Bytes.toField?_ofField_iff.1 hname, Bytes.toField?_ofField_iff.1 hword⟩
  · rintro ⟨⟨hfree, hsize⟩, hfree', hsize'⟩
    rw [decode_login hsize hsize', (Bytes.beforeNul_eq_self_iff username).2 hfree,
      (Bytes.beforeNul_eq_self_iff password).2 hfree']

/-- **A message comes back from its body exactly if it fits.** -/
theorem decode_encode_iff (m : Message) : decode m.type m.encode = .ok m ↔ m.Fits := by
  cases m with
  | heartbeat stamp =>
    have hstamp : stamp.nanos = stamp.seconds * 1000000000 + stamp.subsecond := by
      unfold Duration.seconds Duration.subsecond
      omega
    show decode .heartbeat _ = _ ↔ stamp.seconds ≤ maxSeconds
    rw [decode_heartbeat]
    constructor
    · intro h
      injection h with h
      injection h with h
      have hnanos : _ = stamp.nanos := congrArg Duration.nanos h
      dsimp only at hnanos
      omega
    · intro hle
      rw [Nat.min_eq_left hle, ← hstamp]
  | endOfSnapshot id seq ok => exact decode_encode_endOfSnapshot_iff id seq ok
  | login username password => exact decode_encode_login_iff username password
  | resendRequest seq count => exact iff_of_true ((decode_resendRequest_iff (length_encode _)).2 ⟨seq, count, rfl, rfl⟩) trivial

end Message

namespace Frame

/-- A message that was built here is read from its own body. -/
theorem message?_control (m : Message) (seq : UInt64) :
    (control m seq).message? = (Message.decode m.type m.encode).map some := by
  have hlen : (control m seq).header.len.toNat = m.type.bodyLength :=
    (wellSized_control m seq).trans m.length_encode
  have htype : ControlType.ofCode? (control m seq).header.type = some m.type := ControlType.ofCode?_code m.type
  have hsame : ¬ ((control m seq).header.len.toNat ≠ m.type.bodyLength ∨
      (control m seq).body.length ≠ m.type.bodyLength) := by
    rintro (h | h)
    · exact h hlen
    · exact h m.length_encode
  unfold message?
  rw [htype]
  cases m <;> exact if_neg hsame

theorem message?_control_eq_iff (m : Message) (seq : UInt64) :
    (control m seq).message? = .ok (some m) ↔ m.Fits := by
  rw [message?_control, ← Message.decode_encode_iff]
  cases Message.decode m.type m.encode with
  | error e => simp [Except.map]
  | ok m' => simp [Except.map]

/-- **A frame for a message.** Whatever the message is, its frame has a body of the length that its type requires, which the
header tells, and is read back from its bytes as it is. The frame carries this message if and only if none of its texts
contains a `nul` or is wider than its field, and its stamp is not later than the latest one. -/
theorem message?_control_iff_fits (m : Message) (seq : UInt64) :
    let f := control m seq
    f.body.length = m.type.bodyLength ∧ f.header.len.toNat = f.body.length ∧ decode f.encode = .ok f ∧
      (f.message? = .ok (some m) ↔
        match m with
        | .heartbeat stamp => stamp.seconds ≤ 2 ^ 63 - 1
        | .endOfSnapshot id _ _ => Bytes.nul ∉ id.toList ∧ id.utf8ByteSize ≤ 8
        | .login username password =>
          (Bytes.nul ∉ username.toList ∧ username.utf8ByteSize ≤ 32) ∧
            Bytes.nul ∉ password.toList ∧ password.utf8ByteSize ≤ 32
        | .resendRequest _ _ => True) := by
  intro f
  have hsized : f.WellSized := wellSized_control m seq
  refine ⟨m.length_encode, hsized, decode_encode hsized, ?_⟩
  rw [message?_control_eq_iff]
  cases m <;> exact Iff.rfl

/-- An id of nine bytes is cut off inside its last character. -/
example : (control (.endOfSnapshot "1234567é" 1 true) 0).message? = .error (.invalidField .channelId) := by decide

end Frame

end ReliableMulticast
