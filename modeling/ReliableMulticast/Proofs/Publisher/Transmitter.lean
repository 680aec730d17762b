import ReliableMulticast.Proofs.Frame.Codec
import ReliableMulticast.Publisher.Transmitter

/-!
# The history of a transmitter

A `Transmission` is a transmitter together with all that it did since it was new: the datagrams it `sent`, and the `log`
of the frames it numbered, each as it was first sent. `Faithful` relates the three:

* the frame at place `k` of the log carries the number `k + 1`, and the head is the number after the last of them;
* the frames kept for repetition are the newest of the log;
* each datagram carries a frame of the log, or it is a heartbeat with a number up to the head.

It holds along every run (`Faithful.run`), over any number of connections. `Faithful.mem_log_of_arriving` and
`Faithful.seq_lt_of_arriving` say what it means for the other side.
-/

namespace ReliableMulticast

namespace Transmitter

/-- What moves a transmitter: a task, or a ring of one of its timers. -/
inductive Event
  | task (t : Task)
  | trimTick
  | heartbeatTick (stamp : Duration)
deriving DecidableEq, Repr, Inhabited

def onEvent (t : Transmitter) (now : Instant) : Event → Transmitter × List Datagram
  | .task task => t.onTask now task
  | .trimTick => (t.onTrimTick, [])
  | .heartbeatTick stamp => t.onHeartbeatTick now stamp

/-- The frames that an event puts under a new number. -/
def numbered (t : Transmitter) (now : Instant) : Event → List Frame
  | .task (.send f) => (t.onSend now f).2.map (·.frame)
  | _ => []

/-- What is published is application data. -/
def Event.Plain : Event → Prop
  | .task (.send f) => f.IsData
  | _ => True

/-- All that a send can do: it numbers one frame and sends it, or it drops the frame. -/
theorem onSend_cases (t : Transmitter) (now : Instant) (f : Frame) :
    (∃ o : Outlets, t.onSend now f =
        ({ t with queue := t.queue.push (t.stampOffset now f) },
          [⟨o.data, o.dataTo, t.queue.stamp (t.stampOffset now f)⟩])) ∨
      t.onSend now f = (t, []) := by
  unfold onSend
  split
  · exact Or.inr rfl
  · next o _ =>
    split
    · exact Or.inl ⟨o, rfl⟩
    · exact Or.inr rfl

/-- All that a heartbeat's tick can do. -/
theorem onHeartbeatTick_cases (t : Transmitter) (now : Instant) (stamp : Duration) :
    (∃ o : Outlets, t.onHeartbeatTick now stamp =
        ({ t with lastHeartbeat := now }, [⟨o.data, o.dataTo, .control (.heartbeat stamp) (.ofNat t.queue.head)⟩])) ∨
      t.onHeartbeatTick now stamp = (t, []) := by
  unfold onHeartbeatTick
  split
  · exact Or.inr rfl
  · next o _ => exact Or.inl ⟨o, rfl⟩

theorem mem_range {r : Retained} {seq count : Nat} {f : Frame} (h : f ∈ r.range seq count) : f ∈ r.newest := by
  unfold Retained.range Retained.frames at h
  exact List.mem_reverse.1 (List.mem_of_mem_drop (List.mem_of_mem_take h))

/-- Repetitions are copies of kept frames. -/
theorem mem_onResend {t : Transmitter} {seq count : Nat} {dest : Endpoint} {d : Datagram}
    (h : d ∈ t.onResend seq count dest) : d.frame ∈ t.queue.newest := by
  unfold onResend at h
  split at h
  · cases h
  split at h
  · cases h
  split at h
  · cases h
  · obtain ⟨f, hf, rfl⟩ := List.mem_map.1 h
    exact mem_range hf

end Transmitter

/-- A transmitter and what it did since it was new. -/
structure Transmission where
  transmitter : Transmitter
  /-- All datagrams, oldest first. -/
  sent : List Datagram
  /-- The frames that were numbered, as they were first sent, oldest first. -/
  log : List Frame
deriving DecidableEq, Repr, Inhabited

namespace Transmission

def begin (settings : Settings) (now : Instant) : Transmission := ⟨.new settings now, [], []⟩

def step (x : Transmission) (now : Instant) (e : Transmitter.Event) : Transmission :=
  { transmitter := (x.transmitter.onEvent now e).1
    sent := x.sent ++ (x.transmitter.onEvent now e).2
    log := x.log ++ x.transmitter.numbered now e }

/-- The number that the next frame gets. -/
def head (x : Transmission) : Nat := x.transmitter.queue.head

/-- A heartbeat that carries a number up to the head. -/
def IsHeartbeat (x : Transmission) (f : Frame) : Prop :=
  ∃ stamp n, n ≤ x.head ∧ f = .control (.heartbeat stamp) (.ofNat n)

structure Faithful (x : Transmission) : Prop where
  head : x.head = x.log.length + 1
  kept : x.transmitter.queue.newest <+: x.log.reverse
  stamped : ∀ (k : Nat) (f : Frame), x.log[k]? = some f → f.header.seq = .ofNat (k + 1)
  sent : ∀ d ∈ x.sent, d.frame ∈ x.log ∨ x.IsHeartbeat d.frame

theorem faithful_begin (settings : Settings) (now : Instant) : (begin settings now).Faithful where
  head := rfl
  kept := List.prefix_rfl
  stamped := by intro k f h; simp [begin] at h
  sent := by intro d hd; simp [begin] at hd

/-! ### One step -/

/-- An event that numbers nothing may send copies of the log and heartbeats, and let go of old frames. -/
theorem Faithful.step_of_unnumbered {x : Transmission} (h : x.Faithful) {now : Instant} {e : Transmitter.Event}
    (hn : x.transmitter.numbered now e = []) (hhead : (x.transmitter.onEvent now e).1.queue.head = x.head)
    (hkept : (x.transmitter.onEvent now e).1.queue.newest <+: x.transmitter.queue.newest)
    (hout : ∀ d ∈ (x.transmitter.onEvent now e).2, d.frame ∈ x.log ∨ x.IsHeartbeat d.frame) :
    (x.step now e).Faithful := by
  have hlog : (x.step now e).log = x.log := by simp [step, hn]
  have hhead : (x.step now e).head = x.head := hhead
  refine ⟨?_, ?_, ?_, ?_⟩
  · rw [hlog, hhead]
    exact h.head
  · rw [hlog]
    exact hkept.trans h.kept
  · rw [hlog]
    exact h.stamped
  · intro d hd
    rw [hlog]
    unfold IsHeartbeat
    rw [hhead]
    rcases List.mem_append.1 hd with hd | hd
    · exact h.sent d hd
    · exact hout d hd

theorem faithful_send {x : Transmission} (h : x.Faithful) (now : Instant) (f : Frame) :
    (x.step now (.task (.send f))).Faithful := by
  rcases x.transmitter.onSend_cases now f with ⟨o, hs⟩ | hs
  · set g := x.transmitter.queue.stamp (x.transmitter.stampOffset now f) with hg
    have hq : (x.step now (.task (.send f))).transmitter.queue =
        x.transmitter.queue.push (x.transmitter.stampOffset now f) := by
      simp [step, Transmitter.onEvent, Transmitter.onTask, hs]
    have hlog : (x.step now (.task (.send f))).log = x.log ++ [g] := by
      simp [step, Transmitter.numbered, hs, hg]
    have hsent : (x.step now (.task (.send f))).sent = x.sent ++ [⟨o.data, o.dataTo, g⟩] := by
      simp [step, Transmitter.onEvent, Transmitter.onTask, hs, hg]
    have hhead : (x.step now (.task (.send f))).head = x.head + 1 := by
      unfold head
      rw [hq]
      rfl
    refine ⟨?_, ?_, ?_, ?_⟩
    · rw [hhead, hlog, h.head]
      simp
    · rw [hq, hlog, List.reverse_append]
      exact List.cons_prefix_cons.2 ⟨rfl, h.kept⟩
    · intro k f' hk
      rw [hlog] at hk
      rcases Nat.lt_or_ge k x.log.length with hlt | hge
      · exact h.stamped k f' (by rwa [List.getElem?_append_left hlt] at hk)
      · rw [List.getElem?_append_right hge] at hk
        obtain ⟨hk0, rfl⟩ : k - x.log.length = 0 ∧ g = f' := by
          rcases hz : k - x.log.length with _ | m
          · simpa [hz] using hk
          · simp [hz] at hk
        have hk' : k + 1 = x.head := by rw [h.head]; omega
        rw [hk']
        rfl
    · intro d hd
      rw [hsent] at hd
      rw [hlog]
      rcases List.mem_append.1 hd with hd | hd
      · rcases h.sent d hd with hd | ⟨stamp, n, hn, hd⟩
        · exact Or.inl (List.mem_append_left _ hd)
        · exact Or.inr ⟨stamp, n, by omega, hd⟩
      · obtain rfl := List.mem_singleton.1 hd
        exact Or.inl (by simp)
  · have hx : x.step now (.task (.send f)) = x := by
      simp [step, Transmitter.onEvent, Transmitter.onTask, Transmitter.numbered, hs]
    rwa [hx]

theorem Faithful.step {x : Transmission} (h : x.Faithful) (now : Instant) (e : Transmitter.Event) :
    (x.step now e).Faithful := by
  cases e with
  | task task =>
    cases task with
    | send f => exact faithful_send h now f
    | attach o => exact h.step_of_unnumbered rfl rfl List.prefix_rfl (fun d hd => by cases hd)
    | detach => exact h.step_of_unnumbered rfl rfl List.prefix_rfl (fun d hd => by cases hd)
    | release => exact h.step_of_unnumbered rfl rfl List.prefix_rfl (fun d hd => by cases hd)
    | resend seq count dest =>
      refine h.step_of_unnumbered rfl rfl List.prefix_rfl (fun d hd => Or.inl ?_)
      exact List.mem_reverse.1 (h.kept.subset (Transmitter.mem_onResend hd))
  | trimTick => exact h.step_of_unnumbered rfl rfl (List.take_prefix _ _) (fun d hd => by cases hd)
  | heartbeatTick stamp =>
    rcases x.transmitter.onHeartbeatTick_cases now stamp with ⟨o, ho⟩ | ho
    · refine h.step_of_unnumbered rfl ?_ ?_ (fun d hd => Or.inr ?_)
      · simp [Transmitter.onEvent, ho, Transmission.head]
      · simp [Transmitter.onEvent, ho]
      · obtain rfl : d = _ := by simpa [Transmitter.onEvent, ho] using hd
        exact ⟨stamp, x.head, le_rfl, rfl⟩
    · refine h.step_of_unnumbered rfl ?_ ?_ (fun d hd => ?_)
      · simp [Transmitter.onEvent, ho, Transmission.head]
      · simp [Transmitter.onEvent, ho]
      · simp [Transmitter.onEvent, ho] at hd

/-- The head never goes back. -/
theorem Faithful.head_le_step {x : Transmission} (h : x.Faithful) (now : Instant) (e : Transmitter.Event) :
    x.head ≤ (x.step now e).head := by
  rw [h.head, (h.step now e).head]
  simp [Transmission.step]

/-- The number of a frame of the log lies below the head. -/
theorem Faithful.seq_lt_head {x : Transmission} (h : x.Faithful) {f : Frame} (hf : f ∈ x.log) : f.seq < x.head := by
  obtain ⟨k, hk⟩ := List.mem_iff_getElem?.1 hf
  have hlt : k < x.log.length := (List.getElem?_eq_some_iff.1 hk).1
  have hseq : f.seq = (k + 1) % 2 ^ 64 := by
    unfold Frame.seq
    rw [h.stamped k f hk, UInt64.toNat_ofNat']
  have hle : (k + 1) % 2 ^ 64 ≤ k + 1 := Nat.mod_le _ _
  have hhead := h.head
  omega

/-! ### Whole runs -/

def run (x : Transmission) (es : List (Instant × Transmitter.Event)) : Transmission :=
  es.foldl (fun x e => x.step e.1 e.2) x

theorem Faithful.run {x : Transmission} (h : x.Faithful) (es : List (Instant × Transmitter.Event)) :
    (x.run es).Faithful := by
  induction es generalizing x with
  | nil => exact h
  | cons e rest ih => exact ih (h.step e.1 e.2)

/-- The number of the frame at place `k` of the log, as long as there are numbers left. -/
theorem Faithful.seq_of_getElem? {x : Transmission} (h : x.Faithful) (hb : x.log.length < 2 ^ 64) {k : Nat} {f : Frame}
    (hk : x.log[k]? = some f) : f.seq = k + 1 := by
  have hlt : k < x.log.length := (List.getElem?_eq_some_iff.1 hk).1
  unfold Frame.seq
  rw [h.stamped k f hk, UInt64.toNat_ofNat']
  exact Nat.mod_eq_of_lt (by omega)

/-! ### What is published -/

/-- The log holds application data that fits its header. -/
def Plain (x : Transmission) : Prop := ∀ f ∈ x.log, f.WellSized ∧ f.isControl = false

theorem Plain.step {x : Transmission} (h : x.Plain) (now : Instant) {e : Transmitter.Event} (he : e.Plain) :
    (x.step now e).Plain := by
  intro g hg
  rcases List.mem_append.1 hg with hg | hg
  · exact h g hg
  · cases e with
    | task task =>
      cases task with
      | send f =>
        have hf : f.IsData := he
        rcases x.transmitter.onSend_cases now f with ⟨o, hs⟩ | hs
        · obtain rfl : g = _ := by simpa [Transmitter.numbered, hs] using hg
          -- number and offset are stamped on the header; length, type and body stay
          exact ⟨hf.wellSized, hf.isControl⟩
        · simp [Transmitter.numbered, hs] at hg
      | _ => cases hg
    | _ => cases hg

/-! ### What arrives -/

/-- The frame in the datagram that was sent at this place. -/
def arriving? (x : Transmission) (place : Nat) : Option Frame :=
  x.sent[place]?.bind fun d => (Frame.decode d.frame.encode).toOption

variable {x : Transmission} {place : Nat} {f : Frame}

theorem decode_of_arriving (hf : x.arriving? place = some f) : ∃ d ∈ x.sent, Frame.decode d.frame.encode = .ok f := by
  obtain ⟨d, hd, hdec⟩ := Option.bind_eq_some_iff.1 hf
  refine ⟨d, List.mem_of_getElem? hd, ?_⟩
  cases hdecode : Frame.decode d.frame.encode with
  | error e =>
    rw [hdecode] at hdec
    cases hdec
  | ok g =>
    rw [hdecode] at hdec
    rw [Option.some.inj hdec]

/-- Where application data is published, a frame of the log arrives, or a heartbeat. -/
theorem Faithful.mem_log_of_arriving (h : x.Faithful) (hp : x.Plain) (hf : x.arriving? place = some f) :
    f ∈ x.log ∨ f.isControl = true := by
  obtain ⟨d, hd, hdec⟩ := decode_of_arriving hf
  rcases h.sent d hd with hlog | ⟨stamp, n, -, hbeat⟩
  · rw [Frame.decode_encode (hp _ hlog).1] at hdec
    cases hdec
    exact Or.inl hlog
  · rw [hbeat, Frame.decode_encode (Frame.wellSized_control _ _)] at hdec
    cases hdec
    exact Or.inr (Frame.isControl_control _ _)

/-- Whatever is published, what arrives carries a number from below the head, unless it is a control message. -/
theorem Faithful.seq_lt_of_arriving (h : x.Faithful) (hf : x.arriving? place = some f) (hdata : f.isControl = false) :
    f.seq < x.head := by
  obtain ⟨d, hd, hdec⟩ := decode_of_arriving hf
  have hheader : f.header = d.frame.header := Frame.header_of_decode hdec
  rcases h.sent d hd with hlog | ⟨stamp, n, -, hbeat⟩
  · have hseq : f.seq = d.frame.seq := by rw [Frame.seq, hheader, ← Frame.seq]
    rw [hseq]
    exact h.seq_lt_head hlog
  · have hcontrol : d.frame.isControl = true := by rw [hbeat, Frame.isControl_control]
    rw [Frame.isControl, hheader, ← Frame.isControl, hcontrol] at hdata
    cases hdata

end Transmission

end ReliableMulticast
