import ReliableMulticast.Proofs.Publisher.Repetition
import ReliableMulticast.Proofs.Subscriber.Bounds

/-!
# Recovery from loss

An `Exchange` is a transmitter and a receiver with the same settings, over a network that loses, repeats and reorders
datagrams as it likes. It runs as long as the receiver does not fail.

Main statement (`repetition_fills_gap`): a receiver that has heard of the transmitter's head needs one request for its gap.
The transmitter still keeps the frames, also after a trim, and answers with them and no others. In whatever order and however
often they arrive, they fill the gap, and before that the receiver does not fail.

This takes the two ends together. The receiver's window is at most as wide as its settings allow, its gap lies in the window,
and the transmitter keeps that many frames (`Behind.tail_le_start`).

A numbered frame with the type of a control message is the exception (`control_leaves_gap`): receivers drop it wherever
it comes from.
-/

namespace ReliableMulticast

structure Exchange where
  transmission : Transmission
  receiver : Receiver
  /-- The heads that the transmitter had so far. -/
  heads : List Nat
deriving DecidableEq, Repr, Inhabited

namespace Exchange

inductive Event
  | transmit (now : Instant) (e : Transmitter.Event)
  /-- The datagram that was sent at this place arrives, perhaps not for the first time. -/
  | arrive (now : Instant) (place : Nat)
  | snapshotFrame (now : Instant) (f : Frame)
  | endOfSnapshot (now : Instant) (seq : UInt64)
  | requestTimer (now : Instant)
  | livenessTick (now : Instant)
deriving DecidableEq, Repr, Inhabited

def begin (settings : Settings) (resendTo : Endpoint) (start : Instant) : Exchange :=
  ⟨.begin settings start, .new settings resendTo, [(Transmission.begin settings start).head]⟩

/-- A call that the receiver does not fail at. -/
def call? (x : Exchange) (now : Instant) (c : Receiver.Call) : Option Exchange :=
  if (x.receiver.onCall now c).failure.isSome then none
  else some { x with receiver := (x.receiver.onCall now c).receiver }

/-- A snapshot ends with a head that the transmitter had. -/
def step? (x : Exchange) : Event → Option Exchange
  | .transmit now e =>
    let t := x.transmission.step now e
    some { x with transmission := t, heads := x.heads ++ [t.head] }
  | .arrive now place =>
    match x.transmission.arriving? place with
    | none => some x
    | some f => x.call? now (.frame f)
  | .snapshotFrame now f => x.call? now (.snapshotFrame f)
  | .endOfSnapshot now seq => if seq.toNat ∈ x.heads then x.call? now (.endOfSnapshot seq.toNat) else none
  | .requestTimer now => x.call? now .requestTimer
  | .livenessTick now => x.call? now .livenessTick

def run? (x : Exchange) (es : List Event) : Option Exchange := es.foldlM step? x

theorem call?_eq_some {x x' : Exchange} {now : Instant} {c : Receiver.Call} (h : x.call? now c = some x') :
    (x.receiver.onCall now c).failure = none ∧ x' = { x with receiver := (x.receiver.onCall now c).receiver } := by
  unfold call? at h
  split at h
  · cases h
  · next hok => exact ⟨by simpa using hok, (Option.some.inj h).symm⟩

/-! ### Both ends together -/

structure Sound (settings : Settings) (x : Exchange) : Prop where
  faithful : x.transmission.Faithful
  keeps : x.transmission.Keeps
  transmitter : x.transmission.transmitter.settings = settings
  heads : ∀ n ∈ x.heads, 1 ≤ n
  receiver : x.receiver.settings = settings
  within : x.receiver.Within
  ordered : x.receiver.queue.Ordered
  /-- The receiver holds nothing beyond the transmitter's head. -/
  held : ∀ f ∈ x.receiver.queue.pending, f.seq < x.transmission.head
  bound : x.receiver.queue.bound ≤ Arrivals.maxSeq
  head : x.receiver.queue.queuing = false → 1 ≤ x.receiver.queue.head

theorem sound_begin (settings : Settings) (resendTo : Endpoint) (start : Instant) :
    (begin settings resendTo start).Sound settings where
  faithful := Transmission.faithful_begin settings start
  keeps := Transmission.keeps_begin settings start
  transmitter := rfl
  heads := by simp [begin, Transmission.begin, Transmission.head, Transmitter.new, Retained.startingAt,
    Transmitter.firstSeq]
  receiver := rfl
  within := Receiver.within_new settings resendTo
  ordered := Arrivals.ordered_empty
  held := by rintro f ⟨⟩
  bound := Nat.zero_le _
  head := by rintro ⟨⟩

section Sound

variable {settings : Settings} {x x' : Exchange}

theorem Sound.transmit (h : x.Sound settings) (now : Instant) (e : Transmitter.Event) :
    Sound settings { x with
      transmission := x.transmission.step now e, heads := x.heads ++ [(x.transmission.step now e).head] } where
  faithful := h.faithful.step now e
  keeps := h.keeps.step now e
  transmitter := (x.transmission.settings_step now e).trans h.transmitter
  heads := by
    intro n hn
    rcases List.mem_append.1 hn with hn | hn
    · exact h.heads n hn
    · rw [List.mem_singleton.1 hn, (h.faithful.step now e).head]
      exact Nat.le_add_left _ _
  receiver := h.receiver
  within := h.within
  ordered := h.ordered
  held := fun f hf => Nat.lt_of_lt_of_le (h.held f hf) (h.faithful.head_le_step now e)
  bound := h.bound
  head := h.head

/-- What a call leaves to show is that the new window is in order and fits the transmitter. -/
theorem Sound.call (h : x.Sound settings) {now : Instant} {c : Receiver.Call} (hx : x.call? now c = some x')
    (hordered : (x.receiver.onCall now c).receiver.queue.Ordered)
    (hheld : ∀ f ∈ (x.receiver.onCall now c).receiver.queue.pending, f.seq < x.transmission.head)
    (hbound : (x.receiver.onCall now c).receiver.queue.bound ≤ Arrivals.maxSeq)
    (hhead : (x.receiver.onCall now c).receiver.queue.queuing = false →
      1 ≤ (x.receiver.onCall now c).receiver.queue.head) : x'.Sound settings := by
  obtain ⟨hok, rfl⟩ := call?_eq_some hx
  exact ⟨h.faithful, h.keeps, h.transmitter, h.heads, (x.receiver.settings_onCall now c).trans h.receiver,
    h.within.onCall hok, hordered, hheld, hbound, hhead⟩

theorem Sound.frame (h : x.Sound settings) {now : Instant} {place : Nat} {f : Frame}
    (hf : x.transmission.arriving? place = some f) (hx : x.call? now (.frame f) = some x') : x'.Sound settings := by
  obtain ⟨out, hadv, -⟩ := Receiver.onFrame_advance h.ordered now f
  refine h.call hx hadv.ordered (fun g hg => ?_) ?_ (fun hl => ?_)
  · rcases hadv.origin g (List.mem_append_right _ hg) with hg | hg
    · obtain ⟨rfl, hc⟩ := Frame.isControl_of_mem_taken hg
      exact h.faithful.seq_lt_of_arriving hf hc
    · exact h.held g hg
  · exact Nat.le_trans (x.receiver.bound_onFrame_le now f) (Nat.max_le.2 ⟨h.bound, Nat.le_refl _⟩)
  · have hold := h.head (hadv.queuing.symm.trans hl)
    have hgrown : (x.receiver.onFrame now f).receiver.queue.head = x.receiver.queue.head + out.length := hadv.head
    show 1 ≤ (x.receiver.onFrame now f).receiver.queue.head
    omega

theorem Sound.endOfSnapshot (h : x.Sound settings) {now : Instant} {seq : UInt64} (hseq : seq.toNat ∈ x.heads)
    (hx : x.call? now (.endOfSnapshot seq.toNat) = some x') : x'.Sound settings := by
  obtain ⟨out, hadv, -⟩ := Receiver.onEndOfSnapshot_advance h.ordered now seq.toNat
  refine h.call hx hadv.ordered (fun g hg => ?_) ?_ (fun _ => ?_)
  · rcases hadv.origin g (List.mem_append_right _ hg) with hg | hg
    · cases hg
    · exact h.held g (Arrivals.mem_of_mem_cutAt hg)
  · show (x.receiver.onEndOfSnapshot now seq.toNat).receiver.queue.bound ≤ _
    rw [Receiver.queue_endOfSnapshot]
    exact Nat.max_le.2 ⟨h.bound, Nat.le_of_lt_succ (UInt64.toNat_lt seq)⟩
  · have hone := h.heads _ hseq
    have hgrown : (x.receiver.onEndOfSnapshot now seq.toNat).receiver.queue.head = seq.toNat + out.length := hadv.head
    show 1 ≤ (x.receiver.onEndOfSnapshot now seq.toNat).receiver.queue.head
    omega

theorem Sound.aside (h : x.Sound settings) {now : Instant} {c : Receiver.Call} (hc : c.Aside)
    (hx : x.call? now c = some x') : x'.Sound settings := by
  have hq := Receiver.queue_onCall hc x.receiver now
  refine h.call hx ?_ ?_ ?_ ?_ <;> rw [hq]
  · exact h.ordered
  · exact h.held
  · exact h.bound
  · exact h.head

theorem Sound.step (h : x.Sound settings) {e : Event} (hx : x.step? e = some x') : x'.Sound settings := by
  cases e with
  | transmit now e =>
    obtain rfl := Option.some.inj hx
    exact h.transmit now e
  | arrive now place =>
    simp only [step?] at hx
    split at hx
    · exact Option.some.inj hx ▸ h
    · next f hf => exact h.frame hf hx
  | endOfSnapshot now seq =>
    simp only [step?] at hx
    split at hx
    · next hseq => exact h.endOfSnapshot hseq hx
    · cases hx
  | snapshotFrame now f => exact h.aside (c := .snapshotFrame f) trivial hx
  | requestTimer now => exact h.aside (c := .requestTimer) trivial hx
  | livenessTick now => exact h.aside (c := .livenessTick) trivial hx

theorem Sound.run (h : x.Sound settings) {es : List Event} (hx : x.run? es = some x') : x'.Sound settings := by
  induction es generalizing x with
  | nil => exact Option.some.inj hx ▸ h
  | cons e rest ih =>
    obtain ⟨y, hy, hrest⟩ := Option.bind_eq_some_iff.1 (show (x.step? e).bind (·.run? rest) = some x' from hx)
    exact ih (h.step hy) hrest

end Sound

/-! ### One round -/

theorem maxGap_lt_maxCount {settings : Settings} (h : settings.Valid) : settings.maxGap < Gap.maxCount := by
  have hlimit : settings.maxGap ≤ Settings.maxQueueLimit := by
    by_contra hgt
    simp only [Settings.Valid, Settings.fault?] at h
    repeat' split at h
    all_goals first | omega | cases h
  exact Nat.lt_of_le_of_lt hlimit (by decide)

/-- The receiver knows the transmitter's head, and it misses something. -/
structure Behind (settings : Settings) (x : Exchange) : Prop where
  sound : x.Sound settings
  valid : settings.Valid
  bound : x.receiver.queue.bound = x.transmission.head
  gap : x.receiver.queue.gap.isEmpty = false

section Behind

variable {settings : Settings} {x : Exchange}

theorem Behind.known (h : x.Behind settings) : ∀ f ∈ x.receiver.queue.pending, f.seq < x.receiver.queue.bound := by
  rw [h.bound]
  exact h.sound.held

theorem Behind.mends (h : x.Behind settings) :
    x.receiver.queue.gap.start = x.receiver.queue.head ∧ x.receiver.Mends x.receiver.queue.gap.stop := by
  refine Receiver.mends_gap h.sound.ordered h.sound.within h.known h.sound.bound h.gap ?_
  rw [h.sound.receiver]
  exact maxGap_lt_maxCount h.valid

theorem Behind.stop_eq (h : x.Behind settings) :
    x.receiver.queue.gap.stop = x.receiver.queue.gap.start + x.receiver.queue.gap.count :=
  Arrivals.stop_gap h.known h.sound.bound

theorem Behind.one_le_start (h : x.Behind settings) : 1 ≤ x.receiver.queue.gap.start := by
  rw [h.mends.1]
  exact h.sound.head (Arrivals.live_of_gap h.gap)

theorem Behind.stop_le_head (h : x.Behind settings) :
    x.receiver.queue.gap.start + x.receiver.queue.gap.count ≤ x.transmission.head := by
  rw [← h.stop_eq, ← h.bound]
  exact h.mends.2.ends.le_bound

/-- All that is missing is still kept. -/
theorem Behind.tail_le_start (h : x.Behind settings) :
    x.transmission.transmitter.queue.tail ≤ x.receiver.queue.gap.start := by
  have htail := h.sound.keeps.tail_le h.sound.faithful
  have hlength := h.sound.within.length
  have hone := h.one_le_start
  rw [h.sound.transmitter] at htail
  rw [Arrivals.length_of_live (Arrivals.live_of_gap h.gap), h.sound.receiver, h.bound, ← h.mends.1] at hlength
  omega

/-- The frames that the transmitter first sent under the missing numbers. -/
def missed (x : Exchange) : List Frame := x.transmission.slice x.receiver.queue.gap.start x.receiver.queue.gap.count

theorem Behind.map_seq_missed (h : x.Behind settings) :
    x.missed.map (·.seq) = List.range' x.receiver.queue.gap.start x.receiver.queue.gap.count := by
  -- the bound is a number on the wire, so the transmitter has not run out of numbers
  have hnumbers : x.transmission.log.length < 2 ^ 64 := by
    have hmax := h.sound.bound
    have hhead := h.sound.faithful.head
    have hbound := h.bound
    unfold Arrivals.maxSeq at hmax
    omega
  exact h.sound.faithful.map_seq_slice hnumbers h.one_le_start h.stop_le_head

theorem Behind.onTask_resend (h : x.Behind settings) {o : Outlets} (ho : x.transmission.transmitter.outlets = some o)
    (now : Instant) (dest : Endpoint) :
    (x.transmission.transmitter.onTask now
      (.resend x.receiver.queue.gap.start x.receiver.queue.gap.count dest)).2 =
        x.missed.map (⟨o.resend, dest, ·⟩) := by
  have hpos : 0 < x.receiver.queue.gap.count := Nat.pos_of_ne_zero (by simpa [Gap.isEmpty] using h.gap)
  have hcount : x.receiver.queue.gap.count ≤ x.transmission.transmitter.settings.maxGap := by
    rw [h.sound.transmitter, ← h.sound.receiver]
    exact h.sound.within.gap
  have hstop := h.stop_le_head
  exact h.sound.faithful.onResend_eq ho hpos hcount h.tail_le_start (by omega) dest

/-- A trim lets go of nothing that is missing. -/
theorem Behind.trim (h : x.Behind settings) (now : Instant) :
    Behind settings { x with
      transmission := x.transmission.step now .trimTick
      heads := x.heads ++ [(x.transmission.step now .trimTick).head] } :=
  ⟨h.sound.transmit now .trimTick, h.valid, h.bound, h.gap⟩

theorem Behind.hear (h : x.Behind settings) (hdata : ∀ f ∈ x.missed, f.isControl = false)
    {replies : List (Instant × Frame)} (hreplies : ∀ f, f ∈ replies.map (·.2) ↔ f ∈ x.missed) :
    x.receiver.queue.gap.stop ≤ (x.receiver.hear replies).receiver.queue.head := by
  obtain ⟨hstart, hmends⟩ := h.mends
  have hnumbers := h.map_seq_missed
  refine hmends.hear (fun reply hr => ?_) (fun n hn => ?_)
  · have hmem : reply.2 ∈ x.missed := (hreplies reply.2).1 (List.mem_map.2 ⟨reply, hr, rfl⟩)
    have hseq : reply.2.seq ∈ x.missed.map (·.seq) := List.mem_map.2 ⟨reply.2, hmem, rfl⟩
    rw [hnumbers, List.mem_range'_1, ← h.stop_eq] at hseq
    exact ⟨hdata reply.2 hmem, hseq.2⟩
  · rcases Nat.lt_or_ge n x.receiver.queue.gap.start with hbelow | hfrom
    · exact Or.inl (Or.inl (hstart ▸ hbelow))
    · have hmem : n ∈ x.missed.map (·.seq) := by
        rw [hnumbers, List.mem_range'_1, ← h.stop_eq]
        exact ⟨hfrom, hn⟩
      obtain ⟨f, hf, rfl⟩ := List.mem_map.1 hmem
      obtain ⟨reply, hr, hreply⟩ := List.mem_map.1 ((hreplies f).2 hf)
      exact Or.inr (List.mem_map.2 ⟨reply, hr, by rw [hreply]⟩)

end Behind

/-- Let a receiver have heard of the transmitter's head, and let it miss something. Then the transmitter still keeps all of
it, and after a trim it does as well. It answers a request for the gap with the frames that it first sent under these
numbers. If none of them has the type of a control message then, in any order and with any repetitions, they fill the gap:
after them, or after the one that the receiver fails at, its head has passed the gap. -/
theorem repetition_fills_gap {settings : Settings} (hvalid : settings.Valid) (resendTo : Endpoint) (start : Instant)
    {es : List Event} {x : Exchange} (hrun : (begin settings resendTo start).run? es = some x) {o : Outlets}
    (ho : x.transmission.transmitter.outlets = some o) (hbound : x.receiver.queue.bound = x.transmission.head)
    (hgap : x.receiver.queue.gap.isEmpty = false) :
    let g := x.receiver.queue.gap
    x.missed.map (·.seq) = List.range' g.start g.count ∧
      (∀ t ∈ [x.transmission.transmitter, x.transmission.transmitter.onTrimTick],
        t.queue.tail ≤ g.start ∧
          ∀ now dest, (t.onTask now (.resend g.start g.count dest)).2 = x.missed.map (⟨o.resend, dest, ·⟩)) ∧
      ((∀ f ∈ x.missed, f.isControl = false) →
        ∀ replies : List (Instant × Frame), (∀ f, f ∈ replies.map (·.2) ↔ f ∈ x.missed) →
          g.stop ≤ (x.receiver.hear replies).receiver.queue.head ∧
            ∀ d, (x.receiver.hear replies).failure = some d →
              (∃ gap, d = .gapTooLarge gap) ∨ ∃ length, d = .queueOverflow length) := by
  intro g
  have h : x.Behind settings := ⟨(sound_begin settings resendTo start).run hrun, hvalid, hbound, hgap⟩
  refine ⟨h.map_seq_missed, fun t ht => ?_, fun hdata replies hreplies => ⟨h.hear hdata hreplies, fun d hd => ?_⟩⟩
  · rcases List.mem_cons.1 ht with rfl | ht
    · exact ⟨h.tail_le_start, h.onTask_resend ho⟩
    · obtain rfl := List.mem_singleton.1 ht
      have hlog : (x.transmission.step 0 .trimTick).log = x.transmission.log := List.append_nil _
      have hmissed : missed { x with
          transmission := x.transmission.step 0 .trimTick
          heads := x.heads ++ [(x.transmission.step 0 .trimTick).head] } = x.missed := by
        simp only [missed, Transmission.slice, hlog]
      rw [← hmissed]
      exact ⟨(h.trim 0).tail_le_start, (h.trim 0).onTask_resend ho⟩
  · exact Receiver.failure_hear hd

def outlets : Outlets := ⟨1, ⟨⟨239, 1, 1, 1⟩, 9001⟩, 2, none⟩

/-- Of four frames the second and third are lost. -/
def lossy : List Event :=
  [.transmit 0 (.task (.attach outlets)), .transmit 1 (.task (.send (.single 7))), .endOfSnapshot 2 1,
    .transmit 3 (.task (.send (.single 8))), .transmit 4 (.task (.send (.single 9))), .arrive 5 0,
    .transmit 6 (.task (.send (.single 4))), .livenessTick 7, .arrive 7 3, .requestTimer 8, .transmit 9 .trimTick]

/-- The repetitions come in reverse, and the second of them twice. -/
def swapped (x : Exchange) : List (Instant × Frame) := (x.missed.reverse ++ x.missed.drop 1).map (10, ·)

theorem fills_lossy : ∃ x, (begin .default ⟨⟨10, 0, 0, 3⟩, 9002⟩ 0).run? lossy = some x ∧ Settings.default.Valid ∧
    x.transmission.transmitter.outlets = some outlets ∧ x.receiver.queue.bound = x.transmission.head ∧
      x.receiver.queue.gap = ⟨2, 2⟩ ∧ (∀ f ∈ x.missed, f.isControl = false) ∧
        (swapped x).map (·.2.seq) = [3, 2, 3] ∧ 4 ≤ (x.receiver.hear (swapped x)).receiver.queue.head := by
  have hsome : ((begin .default ⟨⟨10, 0, 0, 3⟩, 9002⟩ 0).run? lossy).isSome = true := by decide
  have hstate : ∀ x ∈ (begin .default ⟨⟨10, 0, 0, 3⟩, 9002⟩ 0).run? lossy,
      x.transmission.transmitter.outlets = some outlets ∧ x.receiver.queue.bound = x.transmission.head ∧
        x.receiver.queue.gap = ⟨2, 2⟩ ∧ (∀ f ∈ x.missed, f.isControl = false) ∧
          (swapped x).map (·.2.seq) = [3, 2, 3] := by decide
  have hvalid : Settings.default.Valid := by decide
  obtain ⟨x, hrun⟩ := Option.isSome_iff_exists.1 hsome
  obtain ⟨ho, hbound, hgap, hdata, hseq⟩ := hstate x hrun
  obtain ⟨-, -, hfills⟩ := repetition_fills_gap hvalid _ _ hrun ho hbound (by rw [hgap]; rfl)
  have hreplies : ∀ f, f ∈ (swapped x).map (·.2) ↔ f ∈ x.missed := by
    intro f
    simp only [swapped, List.map_map, Function.comp_def, List.map_id', List.mem_append, List.mem_reverse]
    exact ⟨fun hf => hf.elim id List.mem_of_mem_drop, Or.inl⟩
  have hstop := (hfills hdata (swapped x) hreplies).1
  rw [hgap] at hstop
  exact ⟨x, hrun, hvalid, ho, hbound, hgap, hdata, hseq, hstop⟩

/-- A control message is numbered like any frame that a transmitter is told to send, and a heartbeat tells of it. -/
def controlling : List Event :=
  [.transmit 0 (.task (.attach outlets)), .endOfSnapshot 1 1,
    .transmit 2 (.task (.send (.control (.resendRequest 1 1) 0))), .transmit 3 (.heartbeatTick ⟨5⟩), .arrive 4 0, .arrive 5 1]

/-- Repeating it does not fill the gap. -/
theorem control_leaves_gap : ∃ x ∈ (begin .default ⟨⟨10, 0, 0, 3⟩, 9002⟩ 0).run? controlling,
    Settings.default.Valid ∧ x.transmission.transmitter.outlets = some outlets ∧
      x.receiver.queue.bound = x.transmission.head ∧ x.receiver.queue.gap = ⟨1, 1⟩ ∧
        (x.transmission.transmitter.onTask 6 (.resend 1 1 ⟨⟨10, 0, 0, 9⟩, 9001⟩)).2.map (·.frame) = x.missed ∧
          x.missed.map (·.seq) = [1] ∧ (x.receiver.hear (x.missed.map (7, ·))).failure = none ∧
            ¬ x.receiver.queue.gap.stop ≤ (x.receiver.hear (x.missed.map (7, ·))).receiver.queue.head := by
  decide

end Exchange

end ReliableMulticast
