import Mathlib.Data.List.Induction
import ReliableMulticast.Proofs.Publisher.Numbering
import ReliableMulticast.Proofs.Publisher.Repetition

/-!
# The answers to requests for repetition

Whatever bytes arrive on the socket for repetitions, they are a request, or they are nothing: `Asks bytes seq count` says that
they start with a request, in terms of how a request is written (`ofDatagram?_eq_some_iff`). A request finds the transmitter
anywhere in its life, with any part of its log let go of and any number of connections behind it. So that the answer can be
compared with what subscribers were sent in the first place, `originals` lists the datagrams of all sends since the
transmitter was new: the one at place `k` went to the data socket of its time under the number `k + 1` (`sent_of_originals`),
and the log are their frames (`log_run_originals`).

Main statement (`answers_exactly`): a datagram changes nothing about the transmitter, and it is answered exactly if it is a
request within the limits; the answer goes to whoever asked, and holds the frames of the originals that were asked for, from
the first number on, as far as there are any.
-/

namespace ReliableMulticast

/-- The bytes start with a request for the `count` frames from `seq` on. Anything may follow. -/
def Asks (bytes : Bytes) (seq : UInt64) (count : UInt32) : Prop :=
  ∃ f rest, bytes = Frame.encode f ++ rest ∧ f.WellSized ∧ f.type = ControlType.resendRequest.code ∧
    f.body = (Message.resendRequest seq count).encode

namespace Transmitter

/-- What a datagram on the socket for repetitions does to a transmitter, and what is sent for it. -/
def onDatagram (t : Transmitter) (now : Instant) (sender : Endpoint) (bytes : Bytes) : Transmitter × List Datagram :=
  match Task.ofDatagram? sender bytes with
  | none => (t, [])
  | some task => t.onTask now task

/-- What an event sends live under a new number. -/
def aired (t : Transmitter) (now : Instant) : Event → List Datagram
  | .task (.send f) => (t.onSend now f).2
  | _ => []

/-- What an event airs is one frame, on the outlets for live frames and under the next number. -/
theorem aired_cases (t : Transmitter) (now : Instant) (e : Event) :
    t.aired now e = [] ∨ ∃ f o nanos, e = .task (.send f) ∧ t.live? = some o ∧
      t.aired now e = [⟨o.data, o.dataTo, f.under t.queue.head nanos⟩] := by
  cases e with
  | task task =>
    cases task with
    | send f =>
      show (t.onSend now f).2 = [] ∨ ∃ f' o nanos, _ ∧ _ ∧ (t.onSend now f).2 = _
      rw [onSend_eq]
      cases hlive : t.live? with
      | none => exact Or.inl rfl
      | some o =>
        cases haccepts : o.accepts f with
        | false => exact Or.inl (by simp [haccepts])
        | true =>
          refine Or.inr ⟨f, o, .ofNat (min (now - t.lastHeartbeat) maxOffset), rfl, rfl, ?_⟩
          simp [haccepts]
    | _ => exact Or.inl rfl
  | _ => exact Or.inl rfl

/-! ### Requests -/

/-- Requests are told from everything else by their bytes alone. -/
theorem ofDatagram?_eq_some_iff {sender : Endpoint} {bytes : Bytes} {task : Task} :
    Task.ofDatagram? sender bytes = some task ↔
      ∃ seq count, Asks bytes seq count ∧ task = .resend seq.toNat count.toNat sender := by
  constructor
  · intro h
    unfold Task.ofDatagram? at h
    split at h
    · cases h
    · next f hdecode =>
      obtain ⟨hsized, rest, hbytes⟩ := Frame.eq_encode_append_of_decode hdecode
      split at h
      · next seq count hmessage =>
        cases h
        obtain ⟨htype, hbody⟩ := (Frame.message?_eq_resendRequest_iff hsized).1 hmessage
        exact ⟨seq, count, ⟨f, rest, hbytes, hsized, htype, hbody⟩, rfl⟩
      · cases h
  · rintro ⟨seq, count, ⟨f, rest, rfl, hsized, htype, hbody⟩, rfl⟩
    have hmessage := (Frame.message?_eq_resendRequest_iff hsized).2 ⟨htype, hbody⟩
    unfold Task.ofDatagram?
    rw [Frame.decode_encode_append hsized]
    dsimp only
    rw [hmessage]

theorem onDatagram_of_asks {t : Transmitter} {now : Instant} {sender : Endpoint} {bytes : Bytes} {seq : UInt64}
    {count : UInt32} (h : Asks bytes seq count) :
    t.onDatagram now sender bytes = (t, t.onResend seq.toNat count.toNat sender) := by
  unfold onDatagram
  rw [ofDatagram?_eq_some_iff.2 ⟨seq, count, h, rfl⟩]
  rfl

/-- Either bytes ask for a repetition, or they do nothing. -/
theorem asks_or_onDatagram_eq (t : Transmitter) (now : Instant) (sender : Endpoint) (bytes : Bytes) :
    (∃ seq count, Asks bytes seq count) ∨ t.onDatagram now sender bytes = (t, []) := by
  cases htask : Task.ofDatagram? sender bytes with
  | none =>
    right
    unfold onDatagram
    rw [htask]
  | some task =>
    obtain ⟨seq, count, hasks, -⟩ := ofDatagram?_eq_some_iff.1 htask
    exact Or.inl ⟨seq, count, hasks⟩

/-- A transmitter answers only within its limits. -/
theorem limits_of_onResend_ne_nil {t : Transmitter} {seq count : Nat} {dest : Endpoint}
    (h : t.onResend seq count dest ≠ []) :
    1 ≤ count ∧ count ≤ t.settings.maxGap ∧ t.queue.tail ≤ seq ∧ seq < t.queue.head := by
  unfold onResend at h
  split at h
  · exact absurd rfl h
  split at h
  · exact absurd rfl h
  · next hcount =>
    split at h
    · exact absurd rfl h
    · next hwindow => omega

end Transmitter

namespace Transmission

open Transmitter (openAfter firstSeq)

/-! ### Limits -/

/-- A request within the limits: for frames that are kept, and not for too many. -/
structure Grants (x : Transmission) (most seq count : Nat) : Prop where
  pos : 1 ≤ count
  le_most : count ≤ most
  tail_le : x.transmitter.queue.tail ≤ seq
  lt_head : seq < x.head

/-- The numbers that are kept begin no earlier than the first. -/
theorem Grants.firstSeq_le {x : Transmission} {most seq count : Nat} (h : x.Grants most seq count) (hx : x.Faithful) :
    firstSeq ≤ seq := by
  have hhead : x.transmitter.queue.head = x.log.length + 1 := hx.head
  have hkept := hx.length_le
  have htail := h.tail_le
  unfold Retained.tail at htail
  unfold firstSeq
  omega

/-! ### Originals -/

/-- The datagrams of the live frames that these events send, in their order. -/
def originals (x : Transmission) : List (Instant × Transmitter.Event) → List Datagram
  | [] => []
  | (now, e) :: es => x.transmitter.aired now e ++ (x.step now e).originals es

theorem originals_concat (x : Transmission) (es : List (Instant × Transmitter.Event)) (now : Instant)
    (e : Transmitter.Event) : x.originals (es ++ [(now, e)]) = x.originals es ++ (x.run es).transmitter.aired now e := by
  induction es generalizing x with
  | nil => simp [originals, run]
  | cons e' rest ih =>
    obtain ⟨now', e'⟩ := e'
    rw [List.cons_append, originals, ih, originals, List.append_assoc]
    rfl

theorem numbered_eq_map_aired (t : Transmitter) (now : Instant) (e : Transmitter.Event) :
    t.numbered now e = (t.aired now e).map (·.frame) := by
  cases e with
  | task task => cases task <;> rfl
  | trimTick => rfl
  | heartbeatTick stamp => rfl

/-- The frames of the originals are the log. -/
theorem log_run_originals (x : Transmission) (es : List (Instant × Transmitter.Event)) :
    (x.run es).log = x.log ++ (x.originals es).map (·.frame) := by
  induction es generalizing x with
  | nil => simp [originals, run]
  | cons e rest ih =>
    obtain ⟨now, e⟩ := e
    have hstep : (x.step now e).log = x.log ++ (x.transmitter.aired now e).map (·.frame) := by
      rw [← numbered_eq_map_aired]
      rfl
    show ((x.step now e).run rest).log = _
    rw [ih, hstep, originals, List.map_append, List.append_assoc]

theorem settings_run (x : Transmission) (es : List (Instant × Transmitter.Event)) :
    (x.run es).transmitter.settings = x.transmitter.settings := by
  induction es generalizing x with
  | nil => rfl
  | cons e rest ih => exact (ih (x.step e.1 e.2)).trans (x.settings_step e.1 e.2)

section Whole

variable (settings : Settings) (start : Instant)

theorem head_eq_add_length_originals (es : List (Instant × Transmitter.Event)) :
    ((begin settings start).run es).head = firstSeq + ((begin settings start).originals es).length := by
  rw [head_begin_run, log_run_originals, List.length_append, List.length_map]
  exact congrArg (firstSeq + ·) (Nat.zero_add _)

/-- The original at place `k` was sent to the data socket of the time, under the number at this place. -/
theorem sent_of_originals {es : List (Instant × Transmitter.Event)} {k : Nat} {d : Datagram}
    (hk : ((begin settings start).originals es)[k]? = some d) :
    ∃ before now f after o nanos, es = before ++ (now, .task (.send f)) :: after ∧ openAfter before = some o ∧
      (((begin settings start).run before).transmitter.onEvent now (.task (.send f))).2 = [d] ∧
        d = ⟨o.data, o.dataTo, f.under (firstSeq + k) nanos⟩ := by
  induction es using List.reverseRecOn with
  | nil => simp [originals] at hk
  | append_singleton es e ih =>
    obtain ⟨now, e⟩ := e
    rw [originals_concat] at hk
    by_cases hold : k < ((begin settings start).originals es).length
    · rw [List.getElem?_append_left hold] at hk
      obtain ⟨before, moment, f, after, o, nanos, rfl, hsent⟩ := ih hk
      exact ⟨before, moment, f, after ++ [(now, e)], o, nanos, by simp, hsent⟩
    · -- the last event has sent it, and the head says under which number
      have hhead : ((begin settings start).run es).transmitter.queue.head = _ :=
        head_eq_add_length_originals settings start es
      have hlive := live?_begin_run settings start es
      rw [List.getElem?_append_right (Nat.le_of_not_lt hold)] at hk
      rcases Transmitter.aired_cases _ now e with hnone | ⟨f, o, nanos, rfl, ho, hone⟩
      · rw [hnone] at hk
        cases hk
      · rw [hone] at hk
        obtain ⟨hlt, hd⟩ := List.getElem?_eq_some_iff.1 hk
        rw [List.getElem_singleton] at hd
        rw [List.length_singleton] at hlt
        have hplace : ((begin settings start).run es).transmitter.queue.head = firstSeq + k := by omega
        refine ⟨es, now, f, [], o, nanos, rfl, hlive.symm.trans ho, hone.trans ?_, ?_⟩
        · rw [hd]
        · rw [← hd, hplace]

section Granted

variable {settings start} {es : List (Instant × Transmitter.Event)} {o : Outlets} {bytes : Bytes} {seq : UInt64}
  {count : UInt32} (hasks : Asks bytes seq count)
  (hgrants : ((begin settings start).run es).Grants settings.maxGap seq.toNat count.toNat)
  (ho : ((begin settings start).run es).transmitter.outlets = some o)

include hasks hgrants ho

/-- The answer to a request within the limits, in terms of what was sent in the first place. -/
theorem onDatagram_of_grants (now : Instant) (sender : Endpoint) :
    (((begin settings start).run es).transmitter.onDatagram now sender bytes).2 =
      ((((begin settings start).originals es).drop (seq.toNat - firstSeq)).take count.toNat).map
        fun d => ⟨o.resend, sender, d.frame⟩ := by
  have hfaithful := (faithful_begin settings start).run es
  have hmost : count.toNat ≤ ((begin settings start).run es).transmitter.settings.maxGap := by
    rw [settings_run]
    exact hgrants.le_most
  have hlog : ((begin settings start).run es).log = ((begin settings start).originals es).map (·.frame) :=
    log_run_originals (begin settings start) es
  rw [Transmitter.onDatagram_of_asks hasks]
  dsimp only
  rw [hfaithful.onResend_eq ho hgrants.pos hmost hgrants.tail_le hgrants.lt_head, slice, hlog, ← List.map_drop,
    ← List.map_take, List.map_map]
  rfl

theorem length_onDatagram_of_grants (now : Instant) (sender : Endpoint) :
    (((begin settings start).run es).transmitter.onDatagram now sender bytes).2.length =
      min count.toNat (((begin settings start).run es).head - seq.toNat) := by
  have hseq := hgrants.firstSeq_le ((faithful_begin settings start).run es)
  rw [onDatagram_of_grants hasks hgrants ho, List.length_map, List.length_take, List.length_drop,
    head_eq_add_length_originals]
  omega

theorem getElem?_onDatagram_of_grants (now : Instant) (sender : Endpoint) {i : Nat}
    (hi : i < (((begin settings start).run es).transmitter.onDatagram now sender bytes).2.length) :
    ∃ d, ((begin settings start).originals es)[seq.toNat + i - firstSeq]? = some d ∧
      (((begin settings start).run es).transmitter.onDatagram now sender bytes).2[i]? =
        some ⟨o.resend, sender, d.frame⟩ := by
  have hseq := hgrants.firstSeq_le ((faithful_begin settings start).run es)
  rw [length_onDatagram_of_grants hasks hgrants ho, head_eq_add_length_originals] at hi
  have hlt : seq.toNat + i - firstSeq < ((begin settings start).originals es).length := by omega
  have hplace : seq.toNat - firstSeq + i = seq.toNat + i - firstSeq := by omega
  refine ⟨_, List.getElem?_eq_getElem hlt, ?_⟩
  rw [onDatagram_of_grants hasks hgrants ho, List.getElem?_map, List.getElem?_take_of_lt (by omega), List.getElem?_drop,
    hplace, List.getElem?_eq_getElem hlt, Option.map_some]

end Granted

/-- **A request is answered with what was sent under its numbers, and with nothing else.** At any moment in the life of a
transmitter, whatever datagram arrives on the socket for repetitions leaves the transmitter as it is. While there are
sockets, something is sent for it exactly if its bytes start with a request whose count is within the limits and whose
first number is kept; then the answer goes to the sender, for the numbers from the first on up to the count or to the
newest, and each datagram has the frame, and so the bytes, of the original under its number. -/
theorem answers_exactly (es : List (Instant × Transmitter.Event)) :
    let x := (begin settings start).run es
    let sent := (begin settings start).originals es
    (∀ k d, sent[k]? = some d → ∃ before now f after o nanos, es = before ++ (now, .task (.send f)) :: after ∧
      openAfter before = some o ∧
        (((begin settings start).run before).transmitter.onEvent now (.task (.send f))).2 = [d] ∧
          d = ⟨o.data, o.dataTo, f.under (firstSeq + k) nanos⟩) ∧
    ∀ now sender bytes,
      (x.transmitter.onDatagram now sender bytes).1 = x.transmitter ∧
      ∀ o, x.transmitter.outlets = some o →
        let answer := (x.transmitter.onDatagram now sender bytes).2
        (answer ≠ [] ↔ ∃ seq count, Asks bytes seq count ∧ x.Grants settings.maxGap seq.toNat count.toNat) ∧
        ∀ seq count, Asks bytes seq count → x.Grants settings.maxGap seq.toNat count.toNat →
          answer.length = min count.toNat (x.head - seq.toNat) ∧
          ∀ i < answer.length, ∃ d, sent[seq.toNat + i - firstSeq]? = some d ∧
            answer[i]? = some ⟨o.resend, sender, d.frame⟩ := by
  intro x sent
  refine ⟨fun k d hk => sent_of_originals settings start hk, fun now sender bytes => ⟨?_, fun o ho => ?_⟩⟩
  · rcases x.transmitter.asks_or_onDatagram_eq now sender bytes with ⟨seq, count, hasks⟩ | hnothing
    · rw [Transmitter.onDatagram_of_asks hasks]
    · rw [hnothing]
  · refine ⟨⟨fun hne => ?_, ?_⟩, fun seq count hasks hgrants => ⟨?_, fun i hi => ?_⟩⟩
    · rcases x.transmitter.asks_or_onDatagram_eq now sender bytes with ⟨seq, count, hasks⟩ | hnothing
      · rw [Transmitter.onDatagram_of_asks hasks] at hne
        obtain ⟨hpos, hmost, htail, hhead⟩ := Transmitter.limits_of_onResend_ne_nil hne
        rw [settings_run] at hmost
        exact ⟨seq, count, hasks, hpos, hmost, htail, hhead⟩
      · rw [hnothing] at hne
        exact absurd rfl hne
    · rintro ⟨seq, count, hasks, hgrants⟩ hnil
      have hlength := length_onDatagram_of_grants hasks hgrants ho now sender
      have hlt : seq.toNat < ((begin settings start).run es).head := hgrants.lt_head
      have hpos := hgrants.pos
      rw [hnil, List.length_nil] at hlength
      omega
    · exact length_onDatagram_of_grants hasks hgrants ho now sender
    · exact getElem?_onDatagram_of_grants hasks hgrants ho now sender hi

end Whole

/-- Settings by which three frames are kept. -/
def brief : Settings := { Settings.default with maxQueue := 3, maxGap := 3 }

/-- Two connections, with four sends in the first and one in the second; the first frame is let go of in between. -/
def resumed : List (Instant × Transmitter.Event) :=
  let group : Endpoint := ⟨⟨239, 1, 1, 1⟩, 9001⟩
  [(1, .task (.attach ⟨1, group, 2, none⟩)), (2, .task (.send (Frame.single 1))), (3, .task (.send (Frame.single 2))),
    (4, .task (.send (Frame.single 3))), (5, .task (.send (Frame.single 4))), (6, .trimTick), (7, .task .detach),
    (8, .task .release), (9, .task (.attach ⟨3, group, 4, none⟩)), (10, .task (.send (Frame.single 5)))]

/-- Three frames are asked for from the fourth on, of which there are two. The first is gone. -/
theorem answers_resumed :
    let x := (begin brief 0).run resumed
    let reader : Endpoint := ⟨⟨10, 0, 0, 2⟩, 9102⟩
    let bytes : Bytes := (Frame.control (.resendRequest 4 3) 0).encode ++ [255]
    let answer := (x.transmitter.onDatagram 11 reader bytes).2
    (x.transmitter.onDatagram 11 reader bytes).1 = x.transmitter ∧ answer.length = 2 ∧
      (∃ d, ((begin brief 0).originals resumed)[3]? = some d ∧ d.socket = 1 ∧
        answer[0]? = some ⟨4, reader, d.frame⟩) ∧
      (x.transmitter.onDatagram 11 reader (Frame.control (.resendRequest 1 1) 0).encode).2 = [] := by
  intro x reader bytes answer
  have hasks : Asks bytes 4 3 := ⟨Frame.control (.resendRequest 4 3) 0, [255], rfl, by decide, rfl, rfl⟩
  have hgrants : x.Grants brief.maxGap 4 3 := ⟨by decide, by decide, by decide +kernel, by decide +kernel⟩
  have ho : x.transmitter.outlets = some ⟨3, ⟨⟨239, 1, 1, 1⟩, 9001⟩, 4, none⟩ := by decide +kernel
  obtain ⟨-, hreplies⟩ := answers_exactly brief 0 resumed
  obtain ⟨hsame, hanswer⟩ := hreplies 11 reader bytes
  obtain ⟨hlength, hall⟩ := (hanswer _ ho).2 4 3 hasks hgrants
  have hlength : answer.length = 2 := hlength.trans (by decide +kernel)
  obtain ⟨d, hd, hfirst⟩ := hall 0 (by rw [hlength]; decide)
  have hsocket : ((begin brief 0).originals resumed)[3]?.map (·.socket) = some 1 := by decide +kernel
  have hd : ((begin brief 0).originals resumed)[3]? = some d := hd
  rw [hd] at hsocket
  exact ⟨hsame, hlength, ⟨d, hd, Option.some.inj hsocket, hfirst⟩, by decide +kernel⟩

end Transmission

end ReliableMulticast
