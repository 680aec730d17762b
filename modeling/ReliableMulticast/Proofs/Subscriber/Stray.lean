import ReliableMulticast.Proofs.Subscriber.Attempt
import ReliableMulticast.Proofs.Subscriber.Manual

/-!
# Stray datagrams

Anybody can send datagrams to a data socket. `Front.receive` is what one of them does to a link and to the slot for manual
requests, which the socket shares with it: the socket sorts it out (`Intake`), and what passes is a task of the link.

A datagram is `Usable` if it carries application data of the channel's shard that no manual request takes, or a heartbeat
that can be read. All others are stray, and there are three ways for them to end: the socket drops them, a manual request
takes them, or they pass and the receiver notes a sign of life (`receive_of_stray`).

Main statement (`strays_inert`): however many stray datagrams arrive, from wherever and whenever, they leave the link as it
was, the sign of life apart, and have no effect but warnings.
-/

namespace ReliableMulticast

/-- The frame is a heartbeat that can be read. -/
def Frame.beats (f : Frame) : Bool :=
  match f.message? with
  | .ok (some (.heartbeat _)) => true
  | _ => false

theorem Frame.beats_eq_true_iff {f : Frame} : f.beats = true ↔ ∃ stamp, f.message? = .ok (some (.heartbeat stamp)) := by
  unfold Frame.beats
  split
  · next stamp hbeat => exact ⟨fun _ => ⟨stamp, hbeat⟩, fun _ => rfl⟩
  · next hother => exact ⟨fun h => absurd h Bool.false_ne_true, fun ⟨stamp, hbeat⟩ => absurd hbeat (hother stamp)⟩

namespace Receiver

/-- The receiver after a sign of life. -/
def awake (r : Receiver) : Receiver := { r with active := true }

theorem onFrame_of_idle (r : Receiver) (now : Instant) {f : Frame} (hcontrol : f.isControl = true)
    (hbeat : ∀ stamp, f.message? ≠ .ok (some (.heartbeat stamp))) :
    ∃ text, r.onFrame now f = ⟨r.awake, [.warn text], none⟩ := by
  have hdata : f.message? ≠ .ok none := by
    intro hm
    rw [(Frame.message?_eq_none_iff f).1 hm] at hcontrol
    cases hcontrol
  unfold onFrame
  dsimp only
  split
  · next hm => exact absurd hm hdata
  · next stamp hm => exact absurd hm (hbeat stamp)
  · exact ⟨_, rfl⟩
  · exact ⟨_, rfl⟩

end Receiver

namespace SubscriberLink

/-- The link after a sign of life on its connection. -/
def noticed (l : SubscriberLink) : SubscriberLink :=
  { l with
    connection := l.connection.map fun c => { c with receiver := c.receiver.map fun entry => (entry.1, entry.2.awake) } }

theorem noticed_noticed (l : SubscriberLink) : l.noticed.noticed = l.noticed := by
  simp [noticed, Option.map_map, Function.comp_def, Receiver.awake]

/-- A link and the slot for manual requests. -/
structure Front where
  link : SubscriberLink
  manual : ManualResend
deriving DecidableEq, Repr, Inhabited

/-- A datagram on the data socket of a connection, which was opened for this channel. -/
structure Datagram where
  generation : Nat
  channel : Channel
  sender : Endpoint
  bytes : Bytes
deriving DecidableEq, Repr, Inhabited

namespace Front

/-- The slot is freed when the link gives its connection up. -/
def freed (m : ManualResend) (effects : List Effect) : ManualResend :=
  if .clearManual ∈ effects then m.clear else m

def receive (x : Front) (env : Surroundings) (d : Datagram) : Front × List Effect :=
  match Intake.ofDatagram d.channel x.manual d.sender d.bytes with
  | .undecodable e => (x, [.warn ("undecodable datagram from " ++ d.sender.text ++ " - dropping: " ++ e.message)])
  | .foreign => (x, [])
  | .taken m => ({ x with manual := m }, [])
  | .pass f =>
    let (link, effects) := x.link.onTask env (.udp d.generation f)
    (⟨link, freed x.manual effects⟩, effects)

def receiveAll (x : Front) : List (Surroundings × Datagram) → Front × List Effect
  | [] => (x, [])
  | (env, d) :: rest =>
    let (x, effects) := x.receive env d
    let (x, more) := receiveAll x rest
    (x, effects ++ more)

end Front

/-- The datagram carries this frame, which a receiver can make use of. -/
inductive Usable (m : ManualResend) (d : Datagram) (f : Frame) : Prop
  | data : Frame.decode d.bytes = .ok f → f.isControl = false → d.channel.acceptsShard f.shard = true →
      ¬(d.channel.isResendIp (.v4 d.sender.ip) = true ∧ (m.offer f).1 = true) → Usable m d f
  | heartbeat (stamp : Duration) : Frame.decode d.bytes = .ok f → f.message? = .ok (some (.heartbeat stamp)) → Usable m d f

namespace Front

/-- None of the datagrams is usable when it arrives. -/
def Strays (x : Front) : List (Surroundings × Datagram) → Prop
  | [] => True
  | (env, d) :: rest => (∀ f, ¬Usable x.manual d f) ∧ Strays (x.receive env d).1 rest

/-- Nothing but a sign of life, an answer to a manual request, and warnings. -/
structure Inert (x : Front) (p : Front × List Effect) : Prop where
  link : p.1.link = x.link ∨ p.1.link = x.link.noticed
  manual : p.1.manual = x.manual ∨ ∃ f, (x.manual.offer f).1 = true ∧ p.1.manual = (x.manual.offer f).2
  effects : ∀ e ∈ p.2, ∃ text, e = .warn text

variable {x : Front} {m : ManualResend} {env : Surroundings} {d : Datagram}

/-! ### One datagram -/

/-- A control message that is no heartbeat is a sign of life if it comes from the current connection. -/
theorem onUdp_of_idle (l : SubscriberLink) (env : Surroundings) (generation : Nat) {f : Frame}
    (hcontrol : f.isControl = true) (hbeat : ∀ stamp, f.message? ≠ .ok (some (.heartbeat stamp))) :
    ((l.onUdp env generation f).1 = l ∨ (l.onUdp env generation f).1 = l.noticed) ∧
      ∀ e ∈ (l.onUdp env generation f).2, ∃ text, e = .warn text := by
  unfold onUdp
  split
  · exact ⟨Or.inl rfl, by simp⟩
  · next c hcurrent =>
    obtain ⟨hc, -⟩ := current?_eq_some hcurrent
    unfold onReceiver
    rw [hc]
    dsimp only
    cases hr : c.receiver with
    | none => exact ⟨Or.inl rfl, by simp⟩
    | some entry =>
      obtain ⟨socket, r⟩ := entry
      obtain ⟨text, hanswer⟩ := Receiver.onFrame_of_idle r env.now hcontrol hbeat
      dsimp only
      rw [hanswer]
      refine ⟨Or.inr ?_, by simp [ofOutput]⟩
      simp [noticed, hc, hr]

theorem receive_of_pass {f : Frame} (h : Intake.ofDatagram d.channel x.manual d.sender d.bytes = .pass f) :
    x.receive env d =
      (⟨(x.link.onUdp env d.generation f).1, freed x.manual (x.link.onUdp env d.generation f).2⟩,
        (x.link.onUdp env d.generation f).2) := by
  unfold receive
  rw [h]
  rfl

theorem ofDatagram_of_usable {f : Frame} (h : Usable m d f) :
    Intake.ofDatagram d.channel m d.sender d.bytes = .pass f := by
  cases h with
  | data hdecode hdata hshard hfree =>
    rw [ManualResend.ofDatagram_of_data hdecode hdata hshard, if_neg]
    simpa using hfree
  | heartbeat stamp hdecode hbeat =>
    have hcontrol : f.isControl = true := by
      by_contra hdata
      rw [(Frame.message?_eq_none_iff f).2 (by simpa using hdata)] at hbeat
      cases hbeat
    unfold Intake.ofDatagram
    rw [hdecode]
    dsimp only
    rw [hcontrol, if_pos rfl]

/-- What passes but is not usable is a control message without a meaning here. -/
theorem idle_of_pass (h : ∀ f, ¬Usable m d f) {f : Frame}
    (hpass : Intake.ofDatagram d.channel m d.sender d.bytes = .pass f) :
    f.isControl = true ∧ ∀ stamp, f.message? ≠ .ok (some (.heartbeat stamp)) := by
  cases hdecode : Frame.decode d.bytes with
  | error e => simp [Intake.ofDatagram, hdecode] at hpass
  | ok g =>
    cases hcontrol : g.isControl with
    | true =>
      obtain rfl : g = f := by simpa [Intake.ofDatagram, hdecode, hcontrol] using hpass
      exact ⟨hcontrol, fun stamp hbeat => h g (.heartbeat stamp hdecode hbeat)⟩
    | false =>
      exfalso
      cases hshard : d.channel.acceptsShard g.shard with
      | false => simp [Intake.ofDatagram, Intake.ofData, hdecode, hcontrol, hshard] at hpass
      | true =>
        refine h g (.data hdecode hcontrol hshard fun htaken => ?_)
        rw [ManualResend.ofDatagram_of_data hdecode hcontrol hshard] at hpass
        simp [htaken.1, htaken.2] at hpass

theorem offer_of_taken {m' : ManualResend} (h : Intake.ofDatagram d.channel m d.sender d.bytes = .taken m') :
    ∃ f, (m.offer f).1 = true ∧ m' = (m.offer f).2 := by
  cases hdecode : Frame.decode d.bytes with
  | error e => simp [Intake.ofDatagram, hdecode] at h
  | ok f =>
    cases hcontrol : f.isControl with
    | true => simp [Intake.ofDatagram, hdecode, hcontrol] at h
    | false =>
      cases hshard : d.channel.acceptsShard f.shard with
      | false => simp [Intake.ofDatagram, Intake.ofData, hdecode, hcontrol, hshard] at h
      | true =>
        rw [ManualResend.ofDatagram_of_data hdecode hcontrol hshard] at h
        split at h
        · next htaken =>
          cases h
          exact ⟨f, (Bool.and_eq_true_iff.1 htaken).2, rfl⟩
        · cases h

theorem receive_of_stray (h : ∀ f, ¬Usable x.manual d f) : Inert x (x.receive env d) := by
  cases hintake : Intake.ofDatagram d.channel x.manual d.sender d.bytes with
  | undecodable e =>
    unfold receive
    rw [hintake]
    exact ⟨Or.inl rfl, Or.inl rfl, by simp⟩
  | foreign =>
    unfold receive
    rw [hintake]
    exact ⟨Or.inl rfl, Or.inl rfl, by simp⟩
  | taken m =>
    unfold receive
    rw [hintake]
    exact ⟨Or.inl rfl, Or.inr (offer_of_taken hintake), by simp⟩
  | pass f =>
    obtain ⟨hcontrol, hbeat⟩ := idle_of_pass h hintake
    obtain ⟨hlink, hwarn⟩ := onUdp_of_idle x.link env d.generation hcontrol hbeat
    rw [receive_of_pass hintake]
    refine ⟨hlink, Or.inl ?_, hwarn⟩
    have hclear : Effect.clearManual ∉ (x.link.onUdp env d.generation f).2 := by
      intro hmem
      obtain ⟨text, htext⟩ := hwarn _ hmem
      cases htext
    simp [freed, hclear]

/-! ### Any number of datagrams -/

/-- A frame that was taken leaves nothing to be taken. -/
theorem offer_offer {f : Frame} (h : (m.offer f).1 = true) (g : Frame) :
    ((m.offer f).2.offer g).1 = false := by
  have hslot : (m.offer f).2.slot = none := by
    rcases m.offer_cases f with ⟨hsame, -⟩ | ⟨ticket, gap, -, -, htaken⟩
    · rw [hsame] at h
      cases h
    · rw [htaken]
      dsimp only
      split <;> rfl
  generalize (m.offer f).2 = m' at hslot ⊢
  simp [ManualResend.offer, hslot]

theorem Inert.trans {y : Front} {effects effects' : List Effect} {z : Front} (h : Inert x (y, effects))
    (h' : Inert y (z, effects')) : Inert x (z, effects ++ effects') where
  link := by
    rcases h.link with hy | hy <;> rcases h'.link with hz | hz <;> dsimp only at hy hz ⊢ <;> rw [hz, hy]
    · exact Or.inl rfl
    · exact Or.inr rfl
    · exact Or.inr rfl
    · exact Or.inr (noticed_noticed x.link)
  manual := by
    rcases h.manual with hy | ⟨f, htaken, hy⟩
    · rw [← hy]
      exact h'.manual
    · refine Or.inr ⟨f, htaken, ?_⟩
      rcases h'.manual with hz | ⟨g, hagain, -⟩
      · exact hz.trans hy
      · dsimp only at hy hagain
        rw [hy, offer_offer htaken g] at hagain
        cases hagain
  effects := by
    intro e he
    rcases List.mem_append.1 he with he | he
    · exact h.effects e he
    · exact h'.effects e he

/-- However many stray datagrams arrive at a link, in whatever state it is: its queue, its timers, its sink and its state
stay as they are, and nothing is sent. -/
theorem strays_inert (x : Front) (ds : List (Surroundings × Datagram)) (h : x.Strays ds) : x.Inert (x.receiveAll ds) := by
  induction ds generalizing x with
  | nil => exact ⟨Or.inl rfl, Or.inl rfl, by simp [receiveAll]⟩
  | cons first rest ih =>
    obtain ⟨env, d⟩ := first
    have hfirst : Inert x (x.receive env d) := receive_of_stray h.1
    exact hfirst.trans (ih (x.receive env d).1 h.2)

/-! ### An up link -/

/-- The datagram is usable, as far as its bytes and the slot tell. -/
def usable? (m : ManualResend) (d : Datagram) : Bool :=
  match Intake.ofDatagram d.channel m d.sender d.bytes with
  | .pass f => !f.isControl || f.beats
  | _ => false

theorem usable?_eq_false_iff : usable? m d = false ↔ ∀ f, ¬Usable m d f := by
  constructor
  · intro h f hf
    simp only [usable?, ofDatagram_of_usable hf, Bool.or_eq_false_iff, Bool.not_eq_false'] at h
    rcases hf with ⟨-, hdata, -, -⟩ | ⟨stamp, -, hbeat⟩
    · exact Bool.false_ne_true (hdata.symm.trans h.1)
    · exact Bool.false_ne_true (h.2.symm.trans (Frame.beats_eq_true_iff.2 ⟨stamp, hbeat⟩))
  · intro h
    unfold usable?
    cases hintake : Intake.ofDatagram d.channel m d.sender d.bytes with
    | pass f =>
      obtain ⟨hcontrol, hbeat⟩ := idle_of_pass h hintake
      have hbeats : f.beats = false := by
        by_contra hne
        obtain ⟨stamp, hstamp⟩ := Frame.beats_eq_true_iff.1 (by simpa using hne)
        exact hbeat stamp hstamp
      simp [hcontrol, hbeats]
    | undecodable e => rfl
    | foreign => rfl
    | taken m' => rfl

instance (m : ManualResend) (d : Datagram) : Decidable (∀ f, ¬Usable m d f) := decidable_of_iff _ usable?_eq_false_iff

instance decidableStrays (x : Front) : (ds : List (Surroundings × Datagram)) → Decidable (x.Strays ds)
  | [] => isTrue trivial
  | (env, d) :: rest =>
    have : Decidable ((x.receive env d).1.Strays rest) := decidableStrays _ rest
    inferInstanceAs (Decidable ((∀ f, ¬Usable x.manual d f) ∧ _))

def sharded : Channel := { firstPlace with shard := some 3 }

/-- A link that is up, and an operator who asks for the numbers 5 and 6. -/
def attended : Front :=
  ⟨((new sharded .default).1.onTasks
      [(allOpen, .up), (allOpen, .tcpConnected 1 ⟨⟨10, 0, 0, 1⟩, 9000⟩), (allOpen, .tcpFrame 1 (loginFrame sharded))]).1,
    (ManualResend.new.add ⟨5, 2⟩).2⟩

/-- Datagrams from the resend endpoint: too short, of another shard, a wake, a heartbeat without a body, a login, and an
answer to the operator. -/
def straying : List (Surroundings × Datagram) :=
  [[1, 2, 3], Frame.encode ⟨⟨5, 0, 0, 1, 4⟩, []⟩, Frame.encode ⟨⟨9, 0, 8, 23, noShard⟩, List.replicate 8 0⟩,
    Frame.encode ⟨⟨9, 0, 0, 22, noShard⟩, []⟩, (loginFrame sharded).encode, Frame.encode ⟨⟨6, 0, 0, 1, 3⟩, []⟩].map
      fun bytes => (allOpen, ⟨1, sharded, ⟨⟨10, 0, 0, 3⟩, 9002⟩, bytes⟩)

theorem strays_inert_attended :
    attended.link.state = .up ∧ attended.Strays straying ∧ attended.Inert (attended.receiveAll straying) ∧
      (attended.receiveAll straying).1.link = attended.link.noticed ∧
      (attended.receiveAll straying).1.manual.reply 0 = .received ⟨⟨6, 0, 0, 1, 3⟩, []⟩ := by
  have hstrays : attended.Strays straying := by decide +kernel
  exact ⟨by decide +kernel, hstrays, strays_inert attended straying hstrays, by decide +kernel, by decide +kernel⟩

end Front

end SubscriberLink

end ReliableMulticast
