import ReliableMulticast.Proofs.Subscriber.Receiver
import ReliableMulticast.Subscriber.Link

/-!
# Connections and their receivers

A connection has at most one receiver. `Window c held live` says of it that all frames in its window have a property `held`,
and that its window has a property `live` once it is not queuing any more, which is not before the TCP connection has done
its work. Each call keeps the first, and says what becomes of the second: `Window.frame` for a frame from the data socket,
`Window.endOfSnapshot` for the end of the snapshot, `Window.aside` for the other calls.
-/

namespace ReliableMulticast.SubscriberLink

/-! ### Calls -/

/-- Calls on behalf of the TCP connection, of which the end of the snapshot is the last. -/
def onTcp : Receiver.Call → Bool
  | .snapshotFrame _ => true
  | .endOfSnapshot _ => true
  | _ => false

def closes : Receiver.Call → Bool
  | .endOfSnapshot _ => true
  | _ => false

theorem onTcp_of_closes {call : Receiver.Call} (h : closes call = true) : onTcp call = true := by
  cases call <;> simp_all [closes, onTcp]

namespace Connection

/-- A connection without what only operators see of it. -/
def bare (c : Connection) : Connection := { c with peer := none, loginDeadline := none }

theorem eq_of_bare {c c' : Connection} (h : c'.bare = c.bare) :
    c'.generation = c.generation ∧ c'.tcpState = c.tcpState ∧ c'.receiver = c.receiver := by
  refine ⟨?_, ?_, ?_⟩
  · simpa [bare] using congrArg Connection.generation h
  · simpa [bare] using congrArg Connection.tcpState h
  · simpa [bare] using congrArg Connection.receiver h

/-- A connection after its receiver answered to a call. -/
def after (c : Connection) (socket : SocketId) (call : Receiver.Call) (a : Receiver.Answer) : Connection :=
  { c with
    receiver := some (socket, a.receiver)
    tcpState := if closes call then .disconnect else c.tcpState }

theorem after_tcpState (c : Connection) (socket : SocketId) (call : Receiver.Call) (a : Receiver.Answer) :
    (c.after socket call a).tcpState = if closes call then .disconnect else c.tcpState :=
  rfl

/-! ### Windows -/

structure Window (c : Connection) (held : Frame → Prop) (live : Arrivals → Prop) : Prop where
  ordered : ∀ socket r, c.receiver = some (socket, r) → r.queue.Ordered
  pending : ∀ socket r, c.receiver = some (socket, r) → ∀ f ∈ r.queue.pending, held f
  live : ∀ socket r, c.receiver = some (socket, r) →
    r.queue.queuing = true ∨ c.tcpState = .disconnect ∧ live r.queue

theorem window_of_receiver_eq_none {c : Connection} (h : c.receiver = none) (held : Frame → Prop)
    (live : Arrivals → Prop) : c.Window held live := by
  refine ⟨?_, ?_, ?_⟩ <;> simp [h]

namespace Window

variable {c c' : Connection} {held : Frame → Prop} {live live' : Arrivals → Prop} {socket : SocketId} {r : Receiver}

theorem of_eq (h : c.Window held live) (htcp : c'.tcpState = c.tcpState) (hreceiver : c'.receiver = c.receiver) :
    c'.Window held live := by
  refine ⟨hreceiver ▸ h.ordered, hreceiver ▸ h.pending, ?_⟩
  rw [htcp, hreceiver]
  exact h.live

/-- A receiver in the place of an earlier one. -/
theorem of_queue (hr : c.receiver = some (socket, r)) (ho : r.queue.Ordered) (hheld : ∀ f ∈ r.queue.pending, held f)
    (hlive : r.queue.queuing = true ∨ c.tcpState = .disconnect ∧ live r.queue) : c.Window held live := by
  refine ⟨fun socket' r' hr' => ?_, fun socket' r' hr' => ?_, fun socket' r' hr' => ?_⟩ <;>
    · rw [hr] at hr'
      cases hr'
      assumption

theorem of_new (settings : Settings) (resendTo : Endpoint) (hr : c.receiver = some (socket, .new settings resendTo)) :
    c.Window held live :=
  of_queue hr Arrivals.ordered_empty (by rintro f ⟨⟩) (Or.inl rfl)

theorem mono (h : c.Window held live) {held' : Frame → Prop} (hheld : ∀ f, held f → held' f) : c.Window held' live :=
  ⟨h.ordered, fun socket r hr f hf => hheld f (h.pending socket r hr f hf), h.live⟩

/-- Before the TCP connection has done its work, a receiver is queuing. -/
theorem queuing (h : c.Window held live) (hr : c.receiver = some (socket, r)) (hstate : c.tcpState ≠ .disconnect) :
    r.queue.queuing = true := by
  rcases h.live socket r hr with hqueuing | ⟨hdisconnect, -⟩
  · exact hqueuing
  · exact absurd hdisconnect hstate

/-- And as long as it is, it does not matter how far the TCP connection is, nor what is asked of a live window. -/
theorem of_queuing (h : c.Window held live) (hstate : c.tcpState ≠ .disconnect) (hreceiver : c'.receiver = c.receiver) :
    c'.Window held live' := by
  refine ⟨hreceiver ▸ h.ordered, hreceiver ▸ h.pending, fun socket r hr => Or.inl ?_⟩
  rw [hreceiver] at hr
  exact h.queuing hr hstate

/-! ### What calls do to them -/

/-- A call that leaves the window and the TCP connection alone. -/
theorem aside (h : c.Window held live) (hr : c.receiver = some (socket, r)) (now : Instant) (call : Receiver.Call)
    (hc : call.Aside) : (c.after socket call (r.onCall now call)).Window held live := by
  have hcloses : closes call = false := by cases call <;> first | rfl | exact hc.elim
  have hqueue : (r.onCall now call).receiver.queue = r.queue := Receiver.queue_onCall hc r now
  refine of_queue rfl ?_ ?_ ?_
  · rw [hqueue]
    exact h.ordered socket r hr
  · rw [hqueue]
    exact h.pending socket r hr
  · rw [hqueue, after_tcpState, hcloses]
    exact h.live socket r hr

theorem frame (h : c.Window held live) (hr : c.receiver = some (socket, r)) (now : Instant) {f : Frame}
    (hf : f.isControl = false → held f) :
    ∃ out, (r.onCall now (.frame f)).deliveries = out.map .message ∧ (∀ g ∈ out, held g) ∧
      r.queue.Advance (r.onCall now (.frame f)).receiver.queue f.taken out ∧
        ∀ live' : Arrivals → Prop, (live r.queue → live' (r.onCall now (.frame f)).receiver.queue) →
          (c.after socket (.frame f) (r.onCall now (.frame f))).Window held live' := by
  obtain ⟨out, hadv, hout⟩ := Receiver.onFrame_advance (h.ordered socket r hr) now f
  have horigin : ∀ g ∈ out ++ (r.onCall now (.frame f)).receiver.queue.pending, held g := by
    intro g hg
    rcases hadv.origin g hg with hg | hg
    · obtain ⟨rfl, hcontrol⟩ := Frame.isControl_of_mem_taken hg
      exact hf hcontrol
    · exact h.pending socket r hr g hg
  refine ⟨out, hout, fun g hg => horigin g (List.mem_append_left _ hg), hadv, fun live' hlive => ?_⟩
  refine of_queue rfl hadv.ordered (fun g hg => horigin g (List.mem_append_right _ hg)) ?_
  rcases h.live socket r hr with hqueuing | ⟨hstate, hold⟩
  · exact Or.inl (by rw [← hqueuing]; exact hadv.queuing)
  · exact Or.inr ⟨hstate, hlive hold⟩

theorem endOfSnapshot (h : c.Window held live) (hr : c.receiver = some (socket, r)) (now : Instant) (seq : Nat) :
    ∃ out, (r.onCall now (.endOfSnapshot seq)).deliveries = .endOfSnapshot seq :: out.map .message ∧
      (∀ g ∈ out, held g) ∧
      (r.queue.cutAt seq).Advance (r.onCall now (.endOfSnapshot seq)).receiver.queue [] out ∧
        ∀ live' : Arrivals → Prop, live' (r.onCall now (.endOfSnapshot seq)).receiver.queue →
          (c.after socket (.endOfSnapshot seq) (r.onCall now (.endOfSnapshot seq))).Window held live' := by
  obtain ⟨out, hadv, hout⟩ := Receiver.onEndOfSnapshot_advance (h.ordered socket r hr) now seq
  have horigin : ∀ g ∈ out ++ (r.onCall now (.endOfSnapshot seq)).receiver.queue.pending, held g := by
    intro g hg
    rcases hadv.origin g hg with hg | hg
    · cases hg
    · exact h.pending socket r hr g (Arrivals.mem_of_mem_cutAt hg)
  refine ⟨out, hout, fun g hg => horigin g (List.mem_append_left _ hg), hadv, fun live' hlive => ?_⟩
  exact of_queue rfl hadv.ordered (fun g hg => horigin g (List.mem_append_right _ hg)) (Or.inr ⟨rfl, hlive⟩)

/-- Whatever is called, a window stays a window. -/
theorem call (h : c.Window (fun _ => True) (fun _ => True)) (hr : c.receiver = some (socket, r)) (now : Instant)
    (call : Receiver.Call) : (c.after socket call (r.onCall now call)).Window (fun _ => True) (fun _ => True) := by
  cases call with
  | frame f =>
    obtain ⟨-, -, -, -, hwindow⟩ := h.frame hr now (f := f) (fun _ => trivial)
    exact hwindow _ (fun _ => trivial)
  | endOfSnapshot seq =>
    obtain ⟨-, -, -, -, hwindow⟩ := h.endOfSnapshot hr now seq
    exact hwindow _ trivial
  | _ => exact h.aside hr now _ trivial

/-- A receiver that is queuing hands over nothing but what comes by TCP. -/
theorem deliveries_eq_nil (h : c.Window held live) (hr : c.receiver = some (socket, r)) (now : Instant)
    {call : Receiver.Call} (hc : onTcp call = false) (hstate : c.tcpState ≠ .disconnect) :
    (r.onCall now call).deliveries = [] := by
  cases call with
  | frame f =>
    obtain ⟨out, hadv, hout⟩ := Receiver.onFrame_advance (h.ordered socket r hr) now f
    rw [hadv.patient (h.queuing hr hstate)] at hout
    exact hout
  | requestTimer => exact Receiver.deliveries_requestTimer r now
  | livenessTick => exact Receiver.deliveries_livenessTick r
  | snapshotFrame f => cases hc
  | endOfSnapshot seq => cases hc

end Window

end Connection

end ReliableMulticast.SubscriberLink
