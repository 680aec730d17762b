import ReliableMulticast.Proofs.Publisher.Transmitter
import ReliableMulticast.Proofs.Subscriber.Receiver

/-!
# A stream over a lossy network

A `Feed` is a transmitter and one receiver with a network between them. The network keeps every datagram that was ever
sent, and any of them may arrive at any time, any number of times, in any order, or never.

Main statement (`handed_eq_log`): what the application is handed is the end of the snapshot and then a piece of the
transmitter's log, from the number on that the snapshot ended with.
-/

namespace ReliableMulticast

structure Feed where
  transmission : Transmission
  receiver : Receiver
  /-- What the application was handed, oldest first. -/
  handed : List Delivery
deriving DecidableEq, Repr, Inhabited

namespace Feed

inductive Event
  | transmit (now : Instant) (e : Transmitter.Event)
  /-- The datagram that was sent at this place arrives, perhaps not for the first time. -/
  | arrive (now : Instant) (place : Nat)
  | endOfSnapshot (now : Instant) (seq : Nat)
  | requestTimer (now : Instant)
deriving DecidableEq, Repr, Inhabited

def begin (settings settings' : Settings) (resendTo : Endpoint) (now : Instant) : Feed :=
  ⟨.begin settings now, .new settings' resendTo, []⟩

def call (x : Feed) (now : Instant) (c : Receiver.Call) : Feed :=
  { x with
    receiver := (x.receiver.onCall now c).receiver
    handed := x.handed ++ (x.receiver.onCall now c).deliveries }

def step (x : Feed) : Event → Feed
  | .transmit now e => { x with transmission := x.transmission.step now e }
  | .arrive now place =>
    match x.transmission.arriving? place with
    | none => x
    | some f => x.call now (.frame f)
  | .endOfSnapshot now seq => x.call now (.endOfSnapshot seq)
  | .requestTimer now => x.call now .requestTimer

def run (x : Feed) (es : List Event) : Feed := es.foldl step x

/-- Everything but the end of a snapshot, with application data to publish. -/
def Event.Plain : Event → Prop
  | .transmit _ e => e.Plain
  | .endOfSnapshot .. => False
  | _ => True

/-! ### Both ends together -/

structure Sound (x : Feed) : Prop where
  faithful : x.transmission.Faithful
  plain : x.transmission.Plain
  ordered : x.receiver.queue.Ordered
  /-- The receiver holds nothing that the transmitter did not number. -/
  held : ∀ f ∈ x.receiver.queue.pending, f ∈ x.transmission.log

theorem sound_begin (settings settings' : Settings) (resendTo : Endpoint) (now : Instant) :
    (begin settings settings' resendTo now).Sound where
  faithful := Transmission.faithful_begin settings now
  plain := by intro f hf; cases hf
  ordered := Arrivals.ordered_empty
  held := by intro f hf; cases hf

theorem mem_log_of_taken {x : Feed} (h : x.Sound) {place : Nat} {f g : Frame}
    (hf : x.transmission.arriving? place = some f) (hg : g ∈ f.taken) : g ∈ x.transmission.log := by
  obtain ⟨rfl, hc⟩ := Frame.isControl_of_mem_taken hg
  rcases h.faithful.mem_log_of_arriving h.plain hf with hlog | hcontrol
  · exact hlog
  · rw [hc] at hcontrol
    cases hcontrol

/-- A step that moves the receiver's window on by frames of the log. -/
theorem Sound.advance {x : Feed} (h : x.Sound) (x' : Feed) {fresh out : List Frame} (ht : x'.transmission = x.transmission)
    (hstep : x.receiver.queue.Advance x'.receiver.queue fresh out) (hfresh : ∀ f ∈ fresh, f ∈ x.transmission.log) :
    x'.Sound ∧ ∀ f ∈ out, f ∈ x'.transmission.log := by
  have origin : ∀ f ∈ out ++ x'.receiver.queue.pending, f ∈ x'.transmission.log := by
    intro f hf
    rw [ht]
    rcases hstep.origin f hf with hf | hf
    · exact hfresh f hf
    · exact h.held f hf
  refine ⟨⟨ht ▸ h.faithful, ht ▸ h.plain, hstep.ordered, fun f hf => ?_⟩, fun f hf => ?_⟩
  · exact origin f (List.mem_append_right _ hf)
  · exact origin f (List.mem_append_left _ hf)

/-- What a plain event does: the log grows, and the window hands over frames of the log. -/
theorem step_cases {x : Feed} (h : x.Sound) {e : Event} (he : e.Plain) :
    (x.step e).Sound ∧ x.transmission.log <+: (x.step e).transmission.log ∧
      ∃ fresh out, x.receiver.queue.Advance (x.step e).receiver.queue fresh out ∧
        (x.step e).handed = x.handed ++ out.map .message ∧ ∀ f ∈ out, f ∈ (x.step e).transmission.log := by
  cases e with
  | transmit now e =>
    have grown : x.transmission.log <+: (x.transmission.step now e).log := List.prefix_append _ _
    refine ⟨⟨h.faithful.step now e, h.plain.step now he, h.ordered, fun f hf => ?_⟩, grown, [], [], ?_, ?_, ?_⟩
    · exact grown.subset (h.held f hf)
    · exact Arrivals.Advance.refl h.ordered []
    · simp [step]
    · simp
  | arrive now place =>
    cases hf : x.transmission.arriving? place with
    | none =>
      have hx : x.step (.arrive now place) = x := by simp [step, hf]
      rw [hx]
      exact ⟨h, List.prefix_rfl, [], [], Arrivals.Advance.refl h.ordered [], by simp, by simp⟩
    | some f =>
      have hx : x.step (.arrive now place) = x.call now (.frame f) := by simp [step, hf]
      rw [hx]
      obtain ⟨out, hadv, hout⟩ := Receiver.onFrame_advance h.ordered now f
      obtain ⟨hs, hmem⟩ := h.advance (x.call now (.frame f)) rfl hadv (fun g hg => mem_log_of_taken h hf hg)
      exact ⟨hs, List.prefix_rfl, f.taken, out, hadv, congrArg (x.handed ++ ·) hout, hmem⟩
  | requestTimer now =>
    have hq : (x.step (.requestTimer now)).receiver.queue = x.receiver.queue :=
      Receiver.queue_onCall (c := .requestTimer) trivial x.receiver now
    have hadv : x.receiver.queue.Advance (x.step (.requestTimer now)).receiver.queue [] [] := by
      rw [hq]
      exact Arrivals.Advance.refl h.ordered []
    have hd : (x.step (.requestTimer now)).handed = x.handed ++ [] :=
      congrArg (x.handed ++ ·) (Receiver.deliveries_requestTimer x.receiver now)
    obtain ⟨hs, hmem⟩ := h.advance (x.step (.requestTimer now)) rfl hadv (fun f hf => by cases hf)
    exact ⟨hs, List.prefix_rfl, [], [], hadv, by simpa using hd, hmem⟩
  | endOfSnapshot now seq => cases he

/-! ### Before the end of the snapshot -/

structure Waiting (x : Feed) : Prop where
  sound : x.Sound
  queuing : x.receiver.queue.queuing = true
  handed : x.handed = []

theorem Waiting.step {x : Feed} (h : x.Waiting) {e : Event} (he : e.Plain) : (x.step e).Waiting := by
  obtain ⟨hs, -, fresh, out, hadv, hd, -⟩ := step_cases h.sound he
  refine ⟨hs, by rw [hadv.queuing, h.queuing], ?_⟩
  rw [hd, h.handed, hadv.patient h.queuing]
  rfl

theorem Waiting.run {x : Feed} (h : x.Waiting) {es : List Event} (he : ∀ e ∈ es, e.Plain) : (x.run es).Waiting := by
  induction es generalizing x with
  | nil => exact h
  | cons e rest ih =>
    exact ih (h.step (he e (by simp))) (fun e' he' => he e' (List.mem_cons_of_mem _ he'))

/-! ### After it -/

/-- The snapshot ended at `seq`, and the messages `ms` have been handed over since. -/
structure Following (x : Feed) (seq : Nat) (ms : List Frame) : Prop where
  sound : x.Sound
  live : x.receiver.queue.Live seq ms
  handed : x.handed = .endOfSnapshot seq :: ms.map .message
  origin : ∀ f ∈ ms, f ∈ x.transmission.log

theorem following_endOfSnapshot {x : Feed} (h : x.Waiting) (now : Instant) (seq : Nat) :
    ∃ ms, (x.step (.endOfSnapshot now seq)).Following seq ms := by
  obtain ⟨out, hadv, hout⟩ := Receiver.onEndOfSnapshot_advance h.sound.ordered now seq
  have held : ∀ f ∈ out ++ (x.step (.endOfSnapshot now seq)).receiver.queue.pending, f ∈ x.transmission.log := by
    intro f hf
    rcases hadv.origin f hf with hf | hf
    · cases hf
    · exact h.sound.held f (Arrivals.mem_of_mem_cutAt hf)
  refine ⟨out, ⟨h.sound.faithful, h.sound.plain, hadv.ordered, fun f hf => ?_⟩, ?_, ?_, fun f hf => ?_⟩
  · exact held f (List.mem_append_right _ hf)
  · exact (Arrivals.live_cutAt x.receiver.queue seq).advance hadv
  · show x.handed ++ _ = _
    rw [h.handed]
    exact hout
  · exact held f (List.mem_append_left _ hf)

theorem Following.step {x : Feed} {seq : Nat} {ms : List Frame} (h : x.Following seq ms) {e : Event} (he : e.Plain) :
    ∃ ms', (x.step e).Following seq ms' := by
  obtain ⟨hs, hlog, fresh, out, hadv, hd, hout⟩ := step_cases h.sound he
  refine ⟨ms ++ out, hs, h.live.advance hadv, ?_, fun f hf => ?_⟩
  · rw [hd, h.handed]
    simp
  · rcases List.mem_append.1 hf with hf | hf
    · exact hlog.subset (h.origin f hf)
    · exact hout f hf

theorem Following.run {x : Feed} {seq : Nat} {ms : List Frame} (h : x.Following seq ms) {es : List Event}
    (he : ∀ e ∈ es, e.Plain) : ∃ ms', (x.run es).Following seq ms' := by
  induction es generalizing x ms with
  | nil => exact ⟨ms, h⟩
  | cons e rest ih =>
    obtain ⟨ms', h'⟩ := h.step (he e (by simp))
    exact ih h' (fun e' he' => he e' (List.mem_cons_of_mem _ he'))

/-- While numbers are left, a frame of the log is known by its number. -/
theorem eq_slice_of_numbered {x : Transmission} (h : x.Faithful) (hb : x.log.length < 2 ^ 64) {seq : Nat}
    {ms : List Frame} (hn : ms.map (·.seq) = List.range' seq ms.length) (hm : ∀ f ∈ ms, f ∈ x.log) :
    ms = (x.log.drop (seq - 1)).take ms.length := by
  have place : ∀ i f, ms[i]? = some f → x.log[seq - 1 + i]? = some f := by
    intro i f hi
    obtain ⟨hlt, hget⟩ := List.getElem?_eq_some_iff.1 hi
    obtain ⟨k, hk⟩ := List.mem_iff_getElem?.1 (hm f (List.mem_of_getElem? hi))
    have hseq : f.seq = seq + i := by
      have := congrArg (·[i]?) hn
      simpa [hlt, hget] using this
    have hplace : f.seq = k + 1 := h.seq_of_getElem? hb hk
    -- no frame carries the number 0
    have hone : 1 ≤ seq := by
      by_contra h0
      obtain ⟨k0, hk0⟩ := List.mem_iff_getElem?.1 (hm ms[0] (List.getElem_mem (by omega)))
      have hpos : 0 < ms.length := by omega
      have hzero : ms[0].seq = seq + 0 := by
        have := congrArg (·[0]?) hn
        simpa [hpos] using this
      have := h.seq_of_getElem? hb hk0
      omega
    rwa [show seq - 1 + i = k by omega]
  refine List.ext_getElem? fun i => ?_
  rw [List.getElem?_take, List.getElem?_drop]
  split
  · next hlt => rw [place i ms[i] (List.getElem?_eq_getElem hlt), List.getElem?_eq_getElem hlt]
  · next hge => exact List.getElem?_eq_none (by omega)

/-! ### Whole runs -/

/-- Whatever the network does, the application is handed the end of the snapshot, at some number, and after it the frames
that were numbered from there on, each once, in order, and as they were first sent. -/
theorem handed_eq_log (settings settings' : Settings) (resendTo : Endpoint) (start now : Instant) (seq : Nat)
    (before after : List Event) (hbefore : ∀ e ∈ before, e.Plain) (hafter : ∀ e ∈ after, e.Plain) :
    let x := (begin settings settings' resendTo start).run (before ++ .endOfSnapshot now seq :: after)
    ∃ ms : List Frame,
      x.handed = .endOfSnapshot seq :: ms.map .message ∧
      ms.map (·.seq) = List.range' seq ms.length ∧
      (∀ f ∈ ms, f ∈ x.transmission.log) ∧
      (x.transmission.log.length < 2 ^ 64 →
        (∀ place f, x.transmission.log[place]? = some f → f.seq = place + 1) ∧
          ms = (x.transmission.log.drop (seq - 1)).take ms.length) := by
  intro x
  have waiting : Waiting ((begin settings settings' resendTo start).run before) :=
    Waiting.run ⟨sound_begin settings settings' resendTo start, rfl, rfl⟩ hbefore
  obtain ⟨ms₀, h₀⟩ := following_endOfSnapshot waiting now seq
  obtain ⟨ms, h⟩ := h₀.run hafter
  have hx : x = ((((begin settings settings' resendTo start).run before).step (.endOfSnapshot now seq)).run after) := by
    simp [x, run]
  rw [← hx] at h
  refine ⟨ms, h.handed, h.live.numbered, h.origin, fun hb => ⟨fun place f hf => ?_, ?_⟩⟩
  · exact h.sound.faithful.seq_of_getElem? hb hf
  · exact eq_slice_of_numbered h.sound.faithful hb h.live.numbered h.origin

def early : List Event :=
  [.transmit 0 (.task (.attach ⟨1, ⟨⟨239, 1, 1, 1⟩, 9001⟩, 2, none⟩)), .transmit 4 (.task (.send (.single 7))),
    .transmit 5 (.task (.send (.single 8))), .transmit 6 (.task (.send (.single 9))), .arrive 7 2]

/-- The first frame comes late, the second is lost and repeated, and a send without a socket gets no number. -/
def late : List Event :=
  [.arrive 8 0, .transmit 8 (.task .detach), .transmit 8 (.task (.send (.single 3))),
    .transmit 9 (.task (.resend 2 1 ⟨⟨10, 0, 0, 9⟩, 9001⟩)), .arrive 9 3, .arrive 9 1, .requestTimer 10,
    .transmit 10 (.task (.attach ⟨1, ⟨⟨239, 1, 1, 1⟩, 9001⟩, 2, none⟩)), .transmit 11 (.heartbeatTick ⟨5⟩),
    .arrive 12 4, .transmit 13 (.task (.send (.single 4))), .arrive 14 5, .arrive 14 5]

theorem plain_early : ∀ e ∈ early, e.Plain := by
  simp [early, Event.Plain, Transmitter.Event.Plain, Frame.isData_single]

theorem plain_late : ∀ e ∈ late, e.Plain := by
  simp [late, Event.Plain, Transmitter.Event.Plain, Frame.isData_single]

theorem handed_late :
    let x := (begin .default .default ⟨⟨10, 0, 0, 3⟩, 9002⟩ 0).run (early ++ .endOfSnapshot 7 2 :: late)
    (∀ e ∈ early, e.Plain) ∧ (∀ e ∈ late, e.Plain) ∧ x.handed.length = 4 ∧
      x.handed = .endOfSnapshot 2 :: ((x.transmission.log.drop 1).take 3).map .message := by
  intro x
  obtain ⟨ms, hhanded, -, -, hlog⟩ :=
    handed_eq_log .default .default ⟨⟨10, 0, 0, 3⟩, 9002⟩ 0 7 2 early late plain_early plain_late
  have hlength : x.handed.length = 4 := by decide
  obtain ⟨-, hms⟩ := hlog (by decide)
  have hcount : ms.length = 3 := by
    rw [hhanded] at hlength
    simpa using hlength
  rw [hcount] at hms
  refine ⟨plain_early, plain_late, hlength, ?_⟩
  rw [hhanded, hms]

end Feed

end ReliableMulticast
