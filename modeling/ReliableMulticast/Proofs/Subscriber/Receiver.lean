import ReliableMulticast.Proofs.Frame.Codec
import ReliableMulticast.Proofs.Sequence.Arrivals
import ReliableMulticast.Subscriber.Receiver

/-!
# What a receiver hands over

A link talks to the receiver of a connection through a few calls (`Call`). Of a receiver's answer to a call only the
`deliveries` reach the application. Each call is a step of the receiver's window in the sense of `Arrivals.Advance`:

* `onFrame_advance` for a frame from the data socket, of which only application data enters the window (`taken`);
* `onEndOfSnapshot_advance` for the end of the snapshot, after which the window is live;
* the timers and the frames of a snapshot leave the window alone (`queue_onCall`).
-/

namespace ReliableMulticast

namespace Frame

/-- The frames among those that arrive on the data socket that belong to the numbered stream. -/
def taken (f : Frame) : List Frame := if f.isControl then [] else [f]

theorem isControl_of_mem_taken {f g : Frame} (h : g ∈ f.taken) : g = f ∧ f.isControl = false := by
  unfold taken at h
  split at h
  · cases h
  · next hc => exact ⟨by simpa using h, by simpa using hc⟩

end Frame

namespace Receiver

/-- What a link asks of the receiver of its connection. -/
inductive Call
  | snapshotFrame (f : Frame)
  | endOfSnapshot (seq : Nat)
  | frame (f : Frame)
  | requestTimer
  | livenessTick
deriving DecidableEq, Repr, Inhabited

def onCall (r : Receiver) (now : Instant) : Call → Answer
  | .snapshotFrame f => r.onSnapshotFrame f
  | .endOfSnapshot seq => r.onEndOfSnapshot now seq
  | .frame f => r.onFrame now f
  | .requestTimer => r.onRequestTimer now
  | .livenessTick => r.onLivenessTick

def Output.delivery? : Output → Option Delivery
  | .deliver d => some d
  | _ => none

/-- What an answer hands to the application, in order. -/
def Answer.deliveries (a : Answer) : List Delivery := a.outputs.filterMap Output.delivery?

theorem deliveries_after (a : Answer) (outputs : List Output) :
    (a.after outputs).deliveries = outputs.filterMap Output.delivery? ++ a.deliveries := by
  simp [Answer.deliveries, Answer.after]

theorem delivery?_message (out : List Frame) :
    (out.map fun f => Output.deliver (.message f)).filterMap Output.delivery? = out.map .message := by
  induction out with
  | nil => rfl
  | cons f rest ih => simpa [Output.delivery?] using ih

/-! ### The gap -/

theorem queue_onGapChange (r : Receiver) (now : Instant) (change : Option GapChange) :
    (r.onGapChange now change).receiver.queue = r.queue := by
  unfold onGapChange
  repeat' split
  all_goals rfl

theorem deliveries_onGapChange (r : Receiver) (now : Instant) (change : Option GapChange) :
    (r.onGapChange now change).deliveries = [] := by
  unfold onGapChange
  repeat' split
  all_goals rfl

theorem queue_settleGap (r : Receiver) (now : Instant) (change : Option GapChange) :
    (r.settleGap now change).receiver.queue = r.queue := by
  unfold settleGap
  dsimp only
  split <;> exact queue_onGapChange r now change

theorem deliveries_settleGap (r : Receiver) (now : Instant) (change : Option GapChange) :
    (r.settleGap now change).deliveries = [] := by
  unfold settleGap
  dsimp only
  split <;> exact deliveries_onGapChange r now change

theorem queue_onInserted (r : Receiver) (now : Instant) (i : Arrivals.Inserted) :
    (r.onInserted now i).receiver.queue = r.queue :=
  queue_settleGap r now i.gapChange

theorem deliveries_onInserted (r : Receiver) (now : Instant) (i : Arrivals.Inserted) :
    (r.onInserted now i).deliveries = i.delivered.map .message := by
  rw [onInserted, deliveries_after, deliveries_settleGap, delivery?_message, List.append_nil]

/-! ### The calls -/

theorem onFrame_advance {r : Receiver} (h : r.queue.Ordered) (now : Instant) (f : Frame) :
    ∃ out, r.queue.Advance (r.onFrame now f).receiver.queue f.taken out ∧
      (r.onFrame now f).deliveries = out.map .message := by
  unfold onFrame
  dsimp only
  split
  · next hm =>
    have hc : f.isControl = false := (Frame.message?_eq_none_iff f).1 hm
    refine ⟨(r.queue.insert f).1.delivered, ?_, deliveries_onInserted _ now _⟩
    rw [queue_onInserted]
    simpa [Frame.taken, hc] using Arrivals.advance_insert h f
  · next hm =>
    have hc : f.isControl = true := by
      by_contra hc
      rw [(Frame.message?_eq_none_iff f).2 (by simpa using hc)] at hm
      cases hm
    refine ⟨[], ?_, deliveries_settleGap _ now _⟩
    rw [queue_settleGap]
    simpa [Frame.taken, hc] using Arrivals.advance_raiseBound h f.seq
  · exact ⟨[], Arrivals.Advance.refl h _, rfl⟩
  · exact ⟨[], Arrivals.Advance.refl h _, rfl⟩

theorem onEndOfSnapshot_advance {r : Receiver} (h : r.queue.Ordered) (now : Instant) (seq : Nat) :
    ∃ out, (r.queue.cutAt seq).Advance (r.onEndOfSnapshot now seq).receiver.queue [] out ∧
      (r.onEndOfSnapshot now seq).deliveries = .endOfSnapshot seq :: out.map .message := by
  refine ⟨(r.queue.stopQueuing seq).1.delivered, ?_, ?_⟩
  · show Arrivals.Advance _ (onInserted _ now _).receiver.queue [] _
    rw [queue_onInserted]
    exact Arrivals.advance_stopQueuing h seq
  · show (Answer.after (onInserted _ now _) _).deliveries = _
    rw [deliveries_after, deliveries_onInserted]
    rfl

/-- A call that leaves the window alone. -/
def Call.Aside : Call → Prop
  | .snapshotFrame _ => True
  | .requestTimer => True
  | .livenessTick => True
  | .endOfSnapshot _ => False
  | .frame _ => False

theorem Call.aside_or (c : Call) : c.Aside ∨ (∃ f, c = .frame f) ∨ ∃ seq, c = .endOfSnapshot seq := by
  cases c with
  | frame f => exact Or.inr (Or.inl ⟨f, rfl⟩)
  | endOfSnapshot seq => exact Or.inr (Or.inr ⟨seq, rfl⟩)
  | _ => exact Or.inl trivial

theorem queue_onCall {c : Call} (h : c.Aside) (r : Receiver) (now : Instant) :
    (r.onCall now c).receiver.queue = r.queue := by
  cases c with
  | snapshotFrame f => rfl
  | requestTimer =>
    simp only [onCall, onRequestTimer]
    repeat' split
    all_goals rfl
  | livenessTick =>
    simp only [onCall, onLivenessTick]
    repeat' split
    all_goals rfl
  | endOfSnapshot seq => cases h
  | frame f => cases h

theorem deliveries_requestTimer (r : Receiver) (now : Instant) : (r.onRequestTimer now).deliveries = [] := by
  unfold onRequestTimer
  dsimp only
  repeat' split
  all_goals rfl

theorem deliveries_livenessTick (r : Receiver) : r.onLivenessTick.deliveries = [] := by
  unfold onLivenessTick
  repeat' split
  all_goals rfl

end Receiver

end ReliableMulticast
