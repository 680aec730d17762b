import ReliableMulticast.Proofs.Publisher.Transmitter
import ReliableMulticast.Subscriber.Intake

/-!
# What goes to the data address

A transmitter sends live frames and heartbeats to the data address, and repetitions to those who asked for them.
`Broadcast x live shard` says of the datagrams `live` that went to the data address, in their order, that

* the application data among them is the log;
* each of them carries the number after that of the application data before it, be it application data or a heartbeat;
* they pass the filter of every channel with the shard of the transmitter's outlets.

It holds along every run in which the outlets keep their shard (`Broadcast.step`).
-/

namespace ReliableMulticast

/-- The application data among frames. -/
def dataOf (fs : List Frame) : List Frame := fs.filter (!·.isControl)

/-- The number after that of the application data among frames, if it was numbered from the first number on. -/
def nextOf (fs : List Frame) : Nat := Transmitter.firstSeq + (dataOf fs).length

theorem dataOf_append (fs gs : List Frame) : dataOf (fs ++ gs) = dataOf fs ++ dataOf gs := List.filter_append _ _

theorem nextOf_append (fs gs : List Frame) : nextOf (fs ++ gs) = nextOf fs + (dataOf gs).length := by
  unfold nextOf
  rw [dataOf_append, List.length_append, Nat.add_assoc]

theorem dataOf_of_control {f : Frame} (h : f.isControl = true) : dataOf [f] = [] := by
  simp [dataOf, h]

theorem dataOf_of_data {f : Frame} (h : f.isControl = false) : dataOf [f] = [f] := by
  simp [dataOf, h]

namespace Transmitter

/-- What an event sends to the data address. -/
def broadcast (t : Transmitter) (now : Instant) : Event → List Frame
  | .task (.resend ..) => []
  | e => (t.onEvent now e).2.map (·.frame)

/-- Application data is published, on outlets of this shard. -/
def Event.Keeps (shard : Option UInt8) : Event → Prop
  | .task (.attach o) => o.shard = shard
  | .task (.send f) => f.IsData
  | _ => True

theorem outlets_of_live? {t : Transmitter} {o : Outlets} (h : t.live? = some o) : t.outlets = some o := by
  unfold live? at h
  split at h
  · exact h
  · cases h

/-- The filter of the transmitter lets nothing through that a subscriber's filter of the same shard would stop. -/
theorem acceptsShard_of_accepts {o : Outlets} {f : Frame} (h : o.accepts f = true) {c : Channel} (hc : c.shard = o.shard) :
    c.acceptsShard f.shard = true := by
  unfold Outlets.accepts at h
  unfold Channel.acceptsShard
  rw [hc]
  cases ho : o.shard with
  | none => rfl
  | some own =>
    rw [ho] at h
    rcases Bool.or_eq_true_iff.1 h with h | h
    · simp [beq_iff_eq.1 h]
    · simp [beq_iff_eq.1 h]

end Transmitter

structure Transmission.Broadcast (x : Transmission) (live : List Frame) (shard : Option UInt8) : Prop where
  data : dataOf live = x.log
  stamped : ∀ (k : Nat) (f : Frame), live[k]? = some f → f.header.seq = .ofNat (nextOf (live.take k))
  sized : ∀ f ∈ live, f.WellSized
  passes : ∀ f ∈ live, f.isControl = false → ∀ c : Channel, c.shard = shard → c.acceptsShard f.shard = true
  outlets : ∀ o, x.transmitter.outlets = some o → o.shard = shard

namespace Transmission

variable {x : Transmission} {live : List Frame} {shard : Option UInt8}

theorem broadcast_begin (settings : Settings) (now : Instant) (shard : Option UInt8) :
    (begin settings now).Broadcast [] shard where
  data := rfl
  stamped := by simp
  sized := by rintro f ⟨⟩
  passes := by rintro f ⟨⟩
  outlets := by rintro o ⟨⟩

namespace Broadcast

theorem nextOf_eq_head (h : x.Broadcast live shard) (hx : x.Faithful) : nextOf live = x.head := by
  unfold nextOf
  rw [h.data, hx.head, Nat.add_comm]
  rfl

theorem seq_of_getElem? (h : x.Broadcast live shard) (hx : x.Faithful) (hb : x.head < 2 ^ 64) {k : Nat} {f : Frame}
    (hk : live[k]? = some f) : f.seq = nextOf (live.take k) := by
  have hle : nextOf (live.take k) ≤ x.head := by
    have hsplit := nextOf_append (live.take k) (live.drop k)
    rw [List.take_append_drop, h.nextOf_eq_head hx] at hsplit
    omega
  unfold Frame.seq
  rw [h.stamped k f hk, UInt64.toNat_ofNat']
  exact Nat.mod_eq_of_lt (by omega)

/-- As long as nobody waits for an answer to a manual request, a subscriber lets it all pass. -/
theorem pass (h : x.Broadcast live shard) {c : Channel} (hc : c.shard = shard) {f : Frame} (hf : f ∈ live)
    (sender : Endpoint) : Intake.ofDatagram c .new sender f.encode = .pass f := by
  unfold Intake.ofDatagram
  rw [Frame.decode_encode (h.sized f hf)]
  cases hcontrol : f.isControl with
  | true => simp [hcontrol]
  | false =>
    have haccepts := h.passes f hf hcontrol c hc
    simp [hcontrol, Intake.ofData, haccepts, ManualResend.offer, ManualResend.new]

/-- An event that numbers nothing and sends nothing. -/
theorem still (h : x.Broadcast live shard) (now : Instant) {e : Transmitter.Event}
    (hnumbered : x.transmitter.numbered now e = []) (hnone : x.transmitter.broadcast now e = [])
    (houtlets : ∀ o, (x.step now e).transmitter.outlets = some o → o.shard = shard) :
    (x.step now e).Broadcast (live ++ x.transmitter.broadcast now e) shard := by
  rw [hnone, List.append_nil]
  refine ⟨?_, h.stamped, h.sized, h.passes, houtlets⟩
  show dataOf live = x.log ++ x.transmitter.numbered now e
  rw [hnumbered, List.append_nil]
  exact h.data

/-- One more datagram, under the next number. -/
theorem concat (h : x.Broadcast live shard) (hx : x.Faithful) {x' : Transmission} {f : Frame}
    (hlog : x'.log = x.log ++ dataOf [f]) (houtlets : ∀ o, x'.transmitter.outlets = some o → o.shard = shard)
    (hseq : f.header.seq = .ofNat x.head) (hsized : f.WellSized)
    (hpasses : f.isControl = false → ∀ c : Channel, c.shard = shard → c.acceptsShard f.shard = true) :
    x'.Broadcast (live ++ [f]) shard where
  data := by rw [dataOf_append, h.data, hlog]
  stamped := by
    intro k g hg
    rcases Nat.lt_or_ge k live.length with hlt | hge
    · rw [List.getElem?_append_left hlt] at hg
      rw [List.take_append_of_le_length (Nat.le_of_lt hlt)]
      exact h.stamped k g hg
    · obtain ⟨hlast, hlt⟩ : k = live.length ∧ f = g := by
        have hk : k < (live ++ [f]).length := (List.getElem?_eq_some_iff.1 hg).1
        have heq : k = live.length := by
          rw [List.length_append, List.length_singleton] at hk
          omega
        subst heq
        simpa using hg
      subst hlast hlt
      rw [List.take_left' rfl, h.nextOf_eq_head hx]
      exact hseq
  sized := by
    intro g hg
    rcases List.mem_append.1 hg with hg | hg
    · exact h.sized g hg
    · rwa [List.mem_singleton.1 hg]
  passes := by
    intro g hg
    rcases List.mem_append.1 hg with hg | hg
    · exact h.passes g hg
    · rwa [List.mem_singleton.1 hg]
  outlets := houtlets

theorem send (h : x.Broadcast live shard) (hx : x.Faithful) (now : Instant) {f : Frame} (hf : f.IsData) :
    (x.step now (.task (.send f))).Broadcast (live ++ x.transmitter.broadcast now (.task (.send f))) shard := by
  have hdropped (hs : x.transmitter.onSend now f = (x.transmitter, [])) :
      (x.step now (.task (.send f))).Broadcast (live ++ x.transmitter.broadcast now (.task (.send f))) shard := by
    refine h.still now ?_ ?_ ?_
    · simp [Transmitter.numbered, hs]
    · simp [Transmitter.broadcast, Transmitter.onEvent, Transmitter.onTask, hs]
    · simpa [step, Transmitter.onEvent, Transmitter.onTask, hs] using h.outlets
  cases ho : x.transmitter.live? with
  | none => exact hdropped (by simp [Transmitter.onSend, ho])
  | some o =>
    by_cases haccepts : o.accepts f = true
    · have hs : x.transmitter.onSend now f = ({ x.transmitter with
            queue := x.transmitter.queue.push (x.transmitter.stampOffset now f) },
          [⟨o.data, o.dataTo, x.transmitter.queue.stamp (x.transmitter.stampOffset now f)⟩]) := by
        simp [Transmitter.onSend, ho, haccepts]
      have hlive : x.transmitter.broadcast now (.task (.send f)) =
          [x.transmitter.queue.stamp (x.transmitter.stampOffset now f)] := by
        simp [Transmitter.broadcast, Transmitter.onEvent, Transmitter.onTask, hs]
      -- number and offset are stamped on the header; length, type, shard and body stay
      have hdata : (x.transmitter.queue.stamp (x.transmitter.stampOffset now f)).isControl = false := hf.isControl
      have houtlets : o.shard = shard := h.outlets o (Transmitter.outlets_of_live? ho)
      rw [hlive]
      refine h.concat hx ?_ ?_ rfl hf.wellSized (fun _ c hc => ?_)
      · rw [dataOf_of_data hdata]
        simp [step, Transmitter.numbered, hs]
      · simpa [step, Transmitter.onEvent, Transmitter.onTask, hs] using h.outlets
      · exact Transmitter.acceptsShard_of_accepts haccepts (hc.trans houtlets.symm)
    · exact hdropped (by simp [Transmitter.onSend, ho, haccepts])

theorem heartbeatTick (h : x.Broadcast live shard) (hx : x.Faithful) (now : Instant) (stamp : Duration) :
    (x.step now (.heartbeatTick stamp)).Broadcast (live ++ x.transmitter.broadcast now (.heartbeatTick stamp)) shard := by
  rcases x.transmitter.onHeartbeatTick_cases now stamp with ⟨o, hs⟩ | hs
  · have hlive : x.transmitter.broadcast now (.heartbeatTick stamp) = [.control (.heartbeat stamp) (.ofNat x.head)] := by
      simp [Transmitter.broadcast, Transmitter.onEvent, hs, head]
    have hcontrol : (Frame.control (.heartbeat stamp) (.ofNat x.head)).isControl = true := Frame.isControl_control _ _
    rw [hlive]
    refine h.concat hx ?_ ?_ rfl (Frame.wellSized_control _ _) (fun hdata => ?_)
    · rw [dataOf_of_control hcontrol]
      rfl
    · simpa [step, Transmitter.onEvent, hs] using h.outlets
    · rw [hcontrol] at hdata
      cases hdata
  · refine h.still now rfl ?_ ?_
    · simp [Transmitter.broadcast, Transmitter.onEvent, hs]
    · simpa [step, Transmitter.onEvent, hs] using h.outlets

theorem step (h : x.Broadcast live shard) (hx : x.Faithful) (now : Instant) {e : Transmitter.Event} (he : e.Keeps shard) :
    (x.step now e).Broadcast (live ++ x.transmitter.broadcast now e) shard := by
  cases e with
  | task task =>
    cases task with
    | send f => exact h.send hx now he
    | attach o =>
      refine h.still now rfl rfl ?_
      rintro o' ⟨⟩
      exact he
    | resend seq count dest => exact h.still now rfl rfl h.outlets
    | detach => exact h.still now rfl rfl h.outlets
    | release => exact h.still now rfl rfl (by rintro o ⟨⟩)
  | trimTick => exact h.still now rfl rfl h.outlets
  | heartbeatTick stamp => exact h.heartbeatTick hx now stamp

end Broadcast

end Transmission

end ReliableMulticast
