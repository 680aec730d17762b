import ReliableMulticast.Proofs.Frame.Control
import ReliableMulticast.Publisher.Session
import ReliableMulticast.Subscriber.Link

/-!
# A channel and its own login

What is read back from a field that is wide enough is the text up to the first character `nul` in it
(`Bytes.toField?_ofField`). The rules for a channel do not exclude this character.

Main statement (`Channel.reaches_itself_iff`): both ends of a link follow the same valid channel. Then the publisher
accepts the login of the subscriber exactly if name and password are free of the character zero, and the subscriber
takes the end of the snapshot to be one of its own channel exactly if the id is.
-/

namespace ReliableMulticast

/-! ### Valid channels -/

namespace Channel

open Bytes (NulFree beforeNul)

/-- The texts of a valid channel fit into their fields. -/
structure Fits (c : Channel) : Prop where
  id : c.id.utf8ByteSize ≤ ControlType.idWidth
  username : c.username.utf8ByteSize ≤ ControlType.credentialWidth
  password : c.password.utf8ByteSize ≤ ControlType.credentialWidth

theorem Valid.fits {c : Channel} (h : c.Valid) : c.Fits := by
  unfold Valid fault? at h
  split at h
  · cases h
  split at h
  · cases h
  split at h
  · cases h
  split at h
  · cases h
  split at h
  · cases h
  next hid _ _ hcredentials =>
    rw [not_or] at hcredentials
    exact ⟨by omega, by omega, by omega⟩

theorem credentialsMatch_beforeNul_iff (c : Channel) :
    c.credentialsMatch (beforeNul c.username) (beforeNul c.password) = true ↔
      NulFree c.username ∧ NulFree c.password := by
  unfold credentialsMatch
  rw [Bool.and_eq_true, beq_iff_eq, beq_iff_eq, eq_comm, Bytes.beforeNul_eq_self_iff, eq_comm,
    Bytes.beforeNul_eq_self_iff]

theorem decode_loginFrame (c : Channel) :
    Frame.decode (SubscriberLink.loginFrame c).encode = .ok (SubscriberLink.loginFrame c) :=
  Frame.decode_encode (Frame.wellSized_control _ _)

theorem message?_loginFrame {c : Channel} (h : c.Fits) : (SubscriberLink.loginFrame c).message? =
    .ok (some (.login (beforeNul c.username) (beforeNul c.password))) := by
  unfold SubscriberLink.loginFrame
  rw [Frame.message?_control]
  show (Message.decode .login _).map some = _
  rw [Message.decode_login h.username h.password]
  rfl

theorem message?_endOfSnapshot {c : Channel} (h : c.Fits) (seq n : UInt64) (ok : Bool) :
    (Frame.control (.endOfSnapshot c.id seq ok) n).message? = .ok (some (.endOfSnapshot (beforeNul c.id) seq ok)) := by
  rw [Frame.message?_control]
  show (Message.decode .endOfSnapshot _).map some = _
  rw [Message.decode_endOfSnapshot h.id]
  rfl

/-- A session lets in whoever sends what it expects to read, and nobody else. -/
theorem stage_onRead_loginFrame {c : Channel} (h : c.Fits) (s : Session) (hs : s.channel = c) :
    (s.onRead none (.frame (SubscriberLink.loginFrame c))).1.stage = .head ↔
      NulFree c.username ∧ NulFree c.password := by
  unfold Session.onRead
  dsimp only
  rw [message?_loginFrame h]
  dsimp only
  unfold Session.onLogin
  rw [hs, ← c.credentialsMatch_beforeNul_iff]
  split
  · next hmatch =>
    exact iff_of_true rfl hmatch
  · next hmatch =>
    refine iff_of_false ?_ hmatch
    rintro ⟨⟩

/-- Whatever name was accepted, its acknowledgement is taken for one. -/
theorem onLoginAnswer_acknowledgement {username : String}
    (h : username.utf8ByteSize ≤ ControlType.credentialWidth) (l : SubscriberLink) (env : SubscriberLink.Surroundings)
    (conn : SubscriberLink.Connection) :
    l.onLoginAnswer env conn (Session.acknowledgement username) =
      { l with connection := some { conn with tcpState := .receiving, loginDeadline := none } }.driveAndAct env
        .connected := by
  have hread : (Session.acknowledgement username).message? = .ok (some (.login (beforeNul username) (beforeNul ""))) := by
    unfold Session.acknowledgement
    rw [Frame.message?_control]
    show (Message.decode .login _).map some = _
    rw [Message.decode_login h (Nat.zero_le _)]
    rfl
  unfold SubscriberLink.onLoginAnswer
  rw [hread]

/-- The end of a snapshot is the end of this link's snapshot, or a violation of the protocol. -/
theorem onSnapshot_endOfSnapshot {c : Channel} (h : c.Fits) (l : SubscriberLink) (env : SubscriberLink.Surroundings)
    (hl : l.control.channel = c.id) (seq n : UInt64) :
    l.onSnapshot env (Frame.control (.endOfSnapshot c.id seq true) n) =
      if NulFree c.id then l.onReceiver env true (·.onEndOfSnapshot env.now seq.toNat)
      else l.violation env ("end of snapshot for channel " ++ beforeNul c.id) := by
  unfold SubscriberLink.onSnapshot
  rw [message?_endOfSnapshot h]
  dsimp only
  rw [if_neg (by simp), hl]
  by_cases hfree : NulFree c.id
  · rw [if_neg (by simpa using (Bytes.beforeNul_eq_self_iff c.id).2 hfree), if_pos hfree]
  · rw [if_pos (fun heq => hfree ((Bytes.beforeNul_eq_self_iff c.id).1 heq)), if_neg hfree]

/-- **A valid channel reaches itself, unless its texts contain a `nul`.** The login that a subscriber builds from the
channel is read back by the publisher, and carries the credentials of the channel exactly if both are free of `nul`: only
then a session lets the subscriber in, and its acknowledgement is accepted. The end of the snapshot is read back by the
subscriber, with the number that was sent, and carries the id of the channel exactly if that is free of `nul`: otherwise
the link takes it for a violation of the protocol. -/
theorem reaches_itself_iff (c : Channel) (hc : c.Valid) :
    (∃ f username password,
      Frame.decode (SubscriberLink.loginFrame c).encode = .ok f ∧
      f.message? = .ok (some (.login username password)) ∧
      (c.credentialsMatch username password = true ↔ NulFree c.username ∧ NulFree c.password) ∧
      (∀ s : Session, s.channel = c →
        ((s.onRead none (.frame f)).1.stage = .head ↔ NulFree c.username ∧ NulFree c.password)) ∧
      ∀ (l : SubscriberLink) (env : SubscriberLink.Surroundings) (conn : SubscriberLink.Connection),
        l.onLoginAnswer env conn (Session.acknowledgement c.username) =
          { l with connection := some { conn with tcpState := .receiving, loginDeadline := none } }.driveAndAct env
            .connected) ∧
    ∀ (seq : UInt64) (ok : Bool), ∃ g id,
      Frame.decode (Frame.control (.endOfSnapshot c.id seq ok) 0).encode = .ok g ∧
      g.message? = .ok (some (.endOfSnapshot id seq ok)) ∧
      (id = c.id ↔ NulFree c.id) ∧
      ∀ (l : SubscriberLink) (env : SubscriberLink.Surroundings), l.control.channel = c.id → ok = true →
        l.onSnapshot env g =
          if NulFree c.id then l.onReceiver env true (·.onEndOfSnapshot env.now seq.toNat)
          else l.violation env ("end of snapshot for channel " ++ id) := by
  have fits := hc.fits
  constructor
  · exact ⟨SubscriberLink.loginFrame c, beforeNul c.username, beforeNul c.password, decode_loginFrame c,
      message?_loginFrame fits, c.credentialsMatch_beforeNul_iff, stage_onRead_loginFrame fits,
      onLoginAnswer_acknowledgement fits.username⟩
  · intro seq ok
    refine ⟨Frame.control (.endOfSnapshot c.id seq ok) 0, beforeNul c.id, ?_, message?_endOfSnapshot fits seq 0 ok,
      Bytes.beforeNul_eq_self_iff c.id, ?_⟩
    · exact Frame.decode_encode (Frame.wellSized_control _ _)
    · rintro l env hl rfl
      exact onSnapshot_endOfSnapshot fits l env hl seq 0

/-- An id of full width, and credentials with characters of two and of three bytes. -/
def wideChannel : Channel :=
  (Channel.new "md1-réb" ⟨⟨10, 0, 0, 1⟩, 9000⟩ ⟨⟨10, 0, 0, 2⟩, 9001⟩ ⟨⟨10, 0, 0, 3⟩, 9002⟩).withCredentials
    "désirée" "日本"

theorem wideChannel_reaches_itself :
    wideChannel.Valid ∧
      (∃ f username password,
        Frame.decode (SubscriberLink.loginFrame wideChannel).encode = .ok f ∧
        f.message? = .ok (some (.login username password)) ∧
        wideChannel.credentialsMatch username password = true) ∧
      ∃ g, Frame.decode (Frame.control (.endOfSnapshot wideChannel.id 7 true) 0).encode = .ok g ∧
        g.message? = .ok (some (.endOfSnapshot wideChannel.id 7 true)) := by
  have valid : wideChannel.Valid := by decide
  obtain ⟨⟨f, username, password, hf, hlogin, hmatch, -⟩, hends⟩ := reaches_itself_iff wideChannel valid
  obtain ⟨g, id, hg, hend, hid, -⟩ := hends 7 true
  refine ⟨valid, ⟨f, username, password, hf, hlogin, hmatch.2 ?_⟩, g, hg, ?_⟩
  · exact ⟨by decide, by decide⟩
  · have hsame : id = wideChannel.id := hid.2 (by decide)
    rw [hend, hsame]

/-- An id and a name that do not come back from their fields. -/
def nulChannel : Channel :=
  { wideChannel with id := "md1\x00a", username := "feed\x00a" }

/-- This channel is valid, and yet its own login is not accepted, nor its own end of the snapshot. -/
theorem nulChannel_misses_itself :
    nulChannel.Valid ∧
      (¬ ∃ f username password,
        Frame.decode (SubscriberLink.loginFrame nulChannel).encode = .ok f ∧
        f.message? = .ok (some (.login username password)) ∧
        nulChannel.credentialsMatch username password = true) ∧
      ∀ (seq : UInt64) (ok : Bool),
        ¬ ∃ g, Frame.decode (Frame.control (.endOfSnapshot nulChannel.id seq ok) 0).encode = .ok g ∧
          g.message? = .ok (some (.endOfSnapshot nulChannel.id seq ok)) := by
  have valid : nulChannel.Valid := by decide
  refine ⟨valid, ?_, ?_⟩
  · rintro ⟨f, username, password, hf, hlogin, hmatch⟩
    rw [decode_loginFrame] at hf
    cases hf
    rw [message?_loginFrame valid.fits] at hlogin
    cases hlogin
    exact absurd ((nulChannel.credentialsMatch_beforeNul_iff).1 hmatch).1 (by decide)
  · rintro seq ok ⟨g, hg, hend⟩
    rw [Frame.decode_encode (Frame.wellSized_control _ _)] at hg
    cases hg
    rw [message?_endOfSnapshot valid.fits] at hend
    injection hend with hend
    injection hend with hend
    injection hend with hid
    exact absurd ((Bytes.beforeNul_eq_self_iff nulChannel.id).1 hid) (by decide)

end Channel

end ReliableMulticast
