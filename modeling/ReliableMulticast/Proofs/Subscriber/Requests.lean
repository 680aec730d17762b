import Mathlib.Data.List.Basic
import ReliableMulticast.Proofs.Sequence.History
import ReliableMulticast.Proofs.Subscriber.Bounds
import ReliableMulticast.Proofs.Subscriber.Window

/-!
# The gap, the timer and the window

A receiver asks for its gap when the gap opens, and again whenever its timer rings. The gap changes with frames, heartbeats
and the end of the snapshot, so the timer has to follow it through all of them. As long as the receiver bears its gap and
its window it is `Tended`:

* the timer is set exactly while there is a gap, which there is only in a live window;
* gap and window are `Within` the limits of the settings;
* the frames held back are in order and reach up to the bound, so there are no more of them than the window is long, unless
  its length `Overflows` the words (`Arrivals.count_le_length_iff`).

The length of a queuing window is one more than the difference of its first and its last number. Where it holds the smallest
and the largest of all numbers this is zero in words, and the window bears them (`outermost_overflows`).

What a call hands over does not depend on whether the receiver bears what it finds then: it is whatever has become `Ready`,
a frame that arrived or was held back and has no number missing before it (`deliveries_onCall`).

Main statement (`Receiver.tends`): this is so after any calls among which is at most one end of a snapshot. A second one
would look at the gap as if there had been none before, and leave the timer running. As long as the largest number is not
handed over, head and bound are words (`inWords_onCalls`).
-/

namespace ReliableMulticast

namespace Arrivals

/-! ### The length of the window -/

/-- The frames held back have numbers up to the bound; only the largest number is not below it. -/
def Spans (a : Arrivals) : Prop := ∀ f ∈ a.pending, f.seq ≤ a.bound

theorem spans_empty : empty.Spans := by rintro f ⟨⟩

theorem seq_le_boundAfter (f : Frame) : f.seq ≤ boundAfter f.seq := by
  have hseq := seq_le_maxSeq f
  unfold boundAfter
  omega

theorem Spans.insert {a : Arrivals} (h : a.Spans) (f : Frame) : (a.insert f).2.Spans := by
  have hraised : ∀ g ∈ place f a.pending, g.seq ≤ max a.bound (boundAfter f.seq) := by
    intro g hg
    rcases mem_place hg with rfl | hg
    · exact Nat.le_trans (seq_le_boundAfter g) (Nat.le_max_right _ _)
    · exact Nat.le_trans (h g hg) (Nat.le_max_left _ _)
  unfold Arrivals.insert
  split
  · exact hraised
  split
  · exact h
  · intro g hg
    refine hraised g ?_
    rw [← run_append a.head (place f a.pending)]
    exact List.mem_append_right _ hg

theorem Spans.raiseBound {a : Arrivals} (h : a.Spans) (bound : Nat) : (a.raiseBound bound).2.Spans := by
  unfold Arrivals.raiseBound
  split
  · exact h
  · exact fun f hf => Nat.le_trans (h f hf) (Nat.le_max_left _ _)

theorem Spans.stopQueuing {a : Arrivals} (h : a.Spans) (seq : Nat) : (a.stopQueuing seq).2.Spans := by
  intro f hf
  have hheld : f ∈ (a.cutAt seq).pending := by
    rw [← run_append seq (a.cutAt seq).pending]
    exact List.mem_append_right _ hf
  exact Nat.le_trans (h f (mem_of_mem_cutAt hheld)) (Nat.le_max_left _ _)

/-- Frames in order with numbers above `lo` and up to `hi` are not more than these numbers. -/
theorem length_le_of_sorted {l : List Frame} {lo hi : Nat} (hs : l.Pairwise (·.seq < ·.seq))
    (hl : ∀ f ∈ l, lo < f.seq ∧ f.seq ≤ hi) : l.length ≤ hi - lo := by
  induction l generalizing lo with
  | nil => exact Nat.zero_le _
  | cons f rest ih =>
    obtain ⟨hf, hrest⟩ := List.pairwise_cons.1 hs
    obtain ⟨hlo, hhi⟩ := hl f List.mem_cons_self
    have hle : rest.length ≤ hi - f.seq := ih hrest fun g hg => ⟨hf g hg, (hl g (List.mem_cons_of_mem _ hg)).2⟩
    rw [List.length_cons]
    omega

theorem seq_le_getLast {l : List Frame} {last : Frame} (hs : l.Pairwise (·.seq < ·.seq)) (hlast : l.getLast? = some last) :
    ∀ f ∈ l, f.seq ≤ last.seq := by
  obtain ⟨init, rfl⟩ := List.getLast?_eq_some_iff.1 hlast
  intro f hf
  rcases List.mem_append.1 hf with hf | hf
  · exact Nat.le_of_lt ((List.pairwise_append.1 hs).2.2 f hf last (List.mem_singleton.2 rfl))
  · obtain rfl := List.mem_singleton.1 hf
    exact Nat.le_refl _

/-- While queuing the window holds the smallest and the largest number: their span is one more than a word counts. -/
def Overflows (a : Arrivals) : Prop := a.queuing = true ∧ a.holds 0 = true ∧ a.holds maxSeq = true

instance : DecidablePred Overflows := fun _ => inferInstanceAs (Decidable (_ ∧ _ ∧ _))

section Queuing

variable {a : Arrivals} {first last : Frame} {rest : List Frame}

theorem length_of_queuing (hq : a.queuing = true) (hp : a.pending = first :: rest)
    (hlast : (first :: rest).getLast? = some last) : a.length = word (last.seq - first.seq + 1) := by
  simp [length, hq, hp, hlast]

theorem count_le_span (hs : a.pending.Pairwise (·.seq < ·.seq)) (hp : a.pending = first :: rest)
    (hlast : (first :: rest).getLast? = some last) : a.count ≤ last.seq - first.seq + 1 := by
  rw [hp] at hs
  have hle := seq_le_getLast hs hlast
  have hrest : rest.length ≤ last.seq - first.seq := length_le_of_sorted hs.of_cons fun f hf =>
    ⟨(List.pairwise_cons.1 hs).1 f hf, hle f (List.mem_cons_of_mem _ hf)⟩
  rw [count, hp, List.length_cons]
  omega

theorem overflows_iff (hq : a.queuing = true) (hs : a.pending.Pairwise (·.seq < ·.seq)) (hp : a.pending = first :: rest)
    (hlast : (first :: rest).getLast? = some last) : a.Overflows ↔ first.seq = 0 ∧ last.seq = maxSeq := by
  rw [hp] at hs
  have hholds : ∀ n, a.holds n = true ↔ n ∈ (first :: rest).map (·.seq) := fun n => hp ▸ a.holds_iff n
  constructor
  · rintro ⟨-, hzero, htop⟩
    obtain ⟨f, hf, hfseq⟩ := List.mem_map.1 ((hholds 0).1 hzero)
    obtain ⟨g, hg, hgseq⟩ := List.mem_map.1 ((hholds maxSeq).1 htop)
    have hlower := seq_first_le hs f hf
    have hupper := seq_le_getLast hs hlast g hg
    have hmax := seq_le_maxSeq last
    omega
  · rintro ⟨hzero, htop⟩
    exact ⟨hq, (hholds 0).2 (List.mem_map.2 ⟨first, List.mem_cons_self, hzero⟩),
      (hholds maxSeq).2 (List.mem_map.2 ⟨last, List.mem_of_getLast? hlast, htop⟩)⟩

end Queuing

/-- The window has a place for each frame that is held back, unless its length is more than a word counts. -/
theorem count_le_length_iff {a : Arrivals} (ho : a.Ordered) (h : a.Spans) : a.count ≤ a.length ↔ ¬ a.Overflows := by
  have hsorted := ho.sorted
  cases hq : a.queuing with
  | false =>
    have hlive : ¬ a.Overflows := fun hover => Bool.noConfusion (hq.symm.trans hover.1)
    refine iff_of_true ?_ hlive
    rw [length_of_live hq]
    exact length_le_of_sorted hsorted fun f hf => ⟨ho.ahead hq f hf, h f hf⟩
  | true =>
    cases hp : a.pending with
    | nil => exact iff_of_true (by simp [count, hp]) (by simp [Overflows, holds, hp])
    | cons first rest =>
      have hlast := List.getLast?_eq_some_getLast (List.cons_ne_nil first rest)
      generalize (first :: rest).getLast (List.cons_ne_nil first rest) = last at hlast
      have hcount := count_le_span hsorted hp hlast
      rw [overflows_iff hq hsorted hp hlast, length_of_queuing hq hp hlast]
      by_cases hall : first.seq = 0 ∧ last.seq = maxSeq
      · have hnone : word (last.seq - first.seq + 1) = 0 := by rw [hall.1, hall.2]; rfl
        refine iff_of_false ?_ (not_not.2 hall)
        rw [hnone, count, hp, List.length_cons]
        exact Nat.not_succ_le_zero _
      · have hword : last.seq - first.seq + 1 < UInt64.size := by
          have hmax := seq_le_maxSeq last
          unfold maxSeq at hmax hall
          unfold UInt64.size
          omega
        rw [word_of_lt hword]
        exact iff_of_true hcount hall

/-! ### Head and bound as words -/

/-- Neither head nor bound has passed the largest number. -/
structure InWords (a : Arrivals) : Prop where
  head : a.head ≤ maxSeq
  bound : a.bound ≤ maxSeq

/-- The head passes the largest number only where the frame with this number is handed over. -/
theorem Advance.head_le {a a' : Arrivals} {fresh out : List Frame} (h : Advance a a' fresh out) (hle : a.head ≤ maxSeq)
    (hout : ∀ f ∈ out, f.seq ≠ maxSeq) : a'.head ≤ maxSeq := by
  rw [h.head]
  by_contra hpast
  have hmem : maxSeq ∈ out.map (·.seq) := by
    rw [h.numbered, List.mem_range'_1]
    omega
  obtain ⟨f, hf, hseq⟩ := List.mem_map.1 hmem
  exact hout f hf hseq

/-! ### What can be delivered -/

/-- A frame with a number from `head` on, of which none is missing up to its own. -/
structure Deliverable (head : Nat) (held : List Frame) (f : Frame) : Prop where
  mem : f ∈ held
  le : head ≤ f.seq
  complete : ∀ n, head ≤ n → n ≤ f.seq → n ∈ held.map (·.seq)

theorem Deliverable.head_mem {head : Nat} {held : List Frame} {f : Frame} (h : Deliverable head held f) :
    head ∈ held.map (·.seq) := h.complete head (Nat.le_refl _) h.le

/-- The frames at the front that continue from `head` are those that can be delivered. -/
theorem mem_run_iff_deliverable {l : List Frame} {head : Nat} (hs : l.Pairwise (·.seq < ·.seq))
    (hl : ∀ f ∈ l, head ≤ f.seq) (f : Frame) : f ∈ (run head l).1 ↔ Deliverable head l f := by
  have hmem := mem_run_iff hs hl
  constructor
  · intro hf
    obtain ⟨hin, hlt⟩ := (hmem f).1.1 hf
    refine ⟨hin, hl f hin, fun n hn hnf => ?_⟩
    have hnumber : n ∈ (run head l).1.map (·.seq) := by
      rw [run_numbered, List.mem_range'_1]
      omega
    obtain ⟨g, hg, hseq⟩ := List.mem_map.1 hnumber
    exact List.mem_map.2 ⟨g, ((hmem g).1.1 hg).1, hseq⟩
  · intro h
    by_contra hnot
    have hbeyond : head + (run head l).1.length ≤ f.seq := by
      by_contra hbefore
      exact hnot ((hmem f).1.2 ⟨h.mem, by omega⟩)
    -- the number at which the run stopped is missing before `f`
    obtain ⟨g, hg, hseq⟩ := List.mem_map.1 (h.complete _ (Nat.le_add_right _ _) hbeyond)
    have := run_ahead hs head hl g ((hmem g).2.2 ⟨hg, hseq.ge⟩)
    omega

theorem not_deliverable {a : Arrivals} (ho : a.Ordered) (hl : a.queuing = false) {fresh : List Frame}
    (hfresh : ∀ f ∈ fresh, a.Has f.seq) (g : Frame) : ¬Deliverable a.head (fresh ++ a.pending) g := by
  intro h
  obtain ⟨x, hx, hseq⟩ := List.mem_map.1 h.head_mem
  refine not_has_head ho hl ?_
  rw [← hseq]
  rcases List.mem_append.1 hx with hx | hx
  · exact hfresh x hx
  · exact Or.inr (List.mem_map.2 ⟨x, hx, rfl⟩)

theorem mem_insert_iff {a : Arrivals} (ho : a.Ordered) (hl : a.queuing = false) (f g : Frame) :
    g ∈ (a.insert f).1.delivered ↔ Deliverable a.head (f :: a.pending) g := by
  rcases insert_cases hl f with ⟨hhas, hi⟩ | ⟨hnew, raised, rfl, hi⟩
  · have hfresh : ∀ x ∈ [f], a.Has x.seq := by simpa using hhas
    rw [hi]
    exact iff_of_false List.not_mem_nil (not_deliverable ho hl hfresh g)
  · obtain ⟨hge, hnew⟩ := not_or.1 hnew
    have hplace : ∀ g, g ∈ place f a.pending ↔ g ∈ f :: a.pending := by
      intro g
      have hfirst : ∀ x ∈ a.pending, x.seq ≠ f.seq := fun x hx heq => hnew (List.mem_map.2 ⟨x, hx, heq⟩)
      rw [mem_place_iff ho.sorted, List.mem_cons, or_comm]
      exact or_congr_left (and_iff_left hfirst)
    rw [hi]
    show g ∈ (run a.head (place f a.pending)).1 ↔ _
    rw [mem_run_iff_deliverable (place_sorted f ho.sorted)]
    · have hmap : ∀ n, n ∈ (place f a.pending).map (·.seq) ↔ n ∈ (f :: a.pending).map (·.seq) := by
        intro n
        rw [mem_map_seq_place, List.map_cons, List.mem_cons]
      constructor
      · exact fun h => ⟨(hplace g).1 h.mem, h.le, fun n hn hng => (hmap n).1 (h.complete n hn hng)⟩
      · exact fun h => ⟨(hplace g).2 h.mem, h.le, fun n hn hng => (hmap n).2 (h.complete n hn hng)⟩
    · intro x hx
      rcases mem_place hx with rfl | hx
      · exact Nat.le_of_not_lt hge
      · exact Nat.le_of_lt (ho.ahead hl x hx)

theorem mem_stopQueuing_iff {a : Arrivals} (ho : a.Ordered) (seq : Nat) (g : Frame) :
    g ∈ (a.stopQueuing seq).1.delivered ↔ Deliverable seq a.pending g := by
  show g ∈ (run seq (a.cutAt seq).pending).1 ↔ _
  have hcut : ∀ f, f ∈ (a.cutAt seq).pending ↔ f ∈ a.pending ∧ seq ≤ f.seq := by
    intro f
    unfold cutAt
    rw [List.mem_filter, decide_eq_true_iff]
  have hsorted : (a.cutAt seq).pending.Pairwise (·.seq < ·.seq) := ho.sorted.filter _
  rw [mem_run_iff_deliverable hsorted fun f hf => ((hcut f).1 hf).2]
  constructor
  · intro h
    refine ⟨((hcut g).1 h.mem).1, h.le, fun n hn hng => ?_⟩
    obtain ⟨x, hx, hseq⟩ := List.mem_map.1 (h.complete n hn hng)
    exact List.mem_map.2 ⟨x, ((hcut x).1 hx).1, hseq⟩
  · intro h
    refine ⟨(hcut g).2 ⟨h.mem, h.le⟩, h.le, fun n hn hng => ?_⟩
    obtain ⟨x, hx, hseq⟩ := List.mem_map.1 (h.complete n hn hng)
    exact List.mem_map.2 ⟨x, (hcut x).2 ⟨hx, by omega⟩, hseq⟩

theorem Advance.sorted {a a' : Arrivals} {fresh out : List Frame} (h : Advance a a' fresh out) :
    out.Pairwise (·.seq < ·.seq) := by
  have hnumbers : (out.map (·.seq)).Pairwise (· < ·) := by
    rw [h.numbered]
    exact List.pairwise_lt_range'
  exact List.pairwise_map.1 hnumbers

end Arrivals

namespace Receiver

open Arrivals (Deliverable)
open SubscriberLink (closes)

/-! ### What a call hands over -/

/-- What is handed over whatever is held back. -/
def Call.opening : Call → List Delivery
  | .snapshotFrame f => [.snapshot f]
  | .endOfSnapshot seq => [.endOfSnapshot seq]
  | _ => []

/-- The call makes it possible to deliver the frame. -/
def Ready (r : Receiver) : Call → Frame → Prop
  | .frame f, g => r.queue.queuing = false ∧ Deliverable r.queue.head (f.taken ++ r.queue.pending) g
  | .endOfSnapshot seq, g => Deliverable seq r.queue.pending g
  | _, _ => False

theorem deliveries_onFrame {r : Receiver} (ho : r.queue.Ordered) (now : Instant) (f : Frame) :
    ∃ out : List Frame, (r.onFrame now f).deliveries = out.map .message ∧ out.Pairwise (·.seq < ·.seq) ∧
      ∀ g, g ∈ out ↔ r.Ready (.frame f) g := by
  have hnone (hf : f.isControl = true) (g : Frame) : g ∈ [] ↔ r.Ready (.frame f) g := by
    refine iff_of_false List.not_mem_nil ?_
    rintro ⟨hl, hg⟩
    have htaken : f.taken = [] := by simp [Frame.taken, hf]
    rw [htaken] at hg
    exact Arrivals.not_deliverable ho hl (fun x hx => by cases hx) g hg
  rcases r.onFrame_cases now f with ⟨hf, h⟩ | ⟨hf, stamp, h⟩ | ⟨hf, text, h⟩
  · have hadvance := Arrivals.advance_insert ho f
    refine ⟨(r.queue.insert f).1.delivered, ?_, hadvance.sorted, fun g => ?_⟩
    · rw [h, deliveries_onInserted]
    · have htaken : f.taken = [f] := by simp [Frame.taken, hf]
      cases hq : r.queue.queuing with
      | true =>
        rw [hadvance.patient hq]
        exact iff_of_false List.not_mem_nil fun hg => Bool.noConfusion (hq.symm.trans hg.1)
      | false =>
        rw [Arrivals.mem_insert_iff ho hq f g]
        show _ ↔ r.queue.queuing = false ∧ Deliverable r.queue.head (f.taken ++ r.queue.pending) g
        rw [htaken]
        exact ⟨fun hg => ⟨hq, hg⟩, fun hg => hg.2⟩
  · refine ⟨[], ?_, List.Pairwise.nil, hnone hf⟩
    rw [h, deliveries_settleGap]
    rfl
  · refine ⟨[], ?_, List.Pairwise.nil, hnone hf⟩
    rw [h]
    rfl

/-- Whatever the receiver answers, what has become ready is handed over, in order. -/
theorem deliveries_onCall {r : Receiver} (ho : r.queue.Ordered) (now : Instant) (c : Call) :
    ∃ out : List Frame, (r.onCall now c).deliveries = c.opening ++ out.map .message ∧
      out.Pairwise (·.seq < ·.seq) ∧ ∀ g, g ∈ out ↔ r.Ready c g := by
  cases c with
  | frame f => exact deliveries_onFrame ho now f
  | endOfSnapshot seq =>
    have hadvance := Arrivals.advance_stopQueuing ho seq
    refine ⟨(r.queue.stopQueuing seq).1.delivered, ?_, hadvance.sorted, Arrivals.mem_stopQueuing_iff ho seq⟩
    show (Answer.after (onInserted _ now _) _).deliveries = _
    rw [deliveries_after, deliveries_onInserted]
    rfl
  | snapshotFrame f => exact ⟨[], rfl, List.Pairwise.nil, fun g => iff_of_false List.not_mem_nil id⟩
  | requestTimer =>
    exact ⟨[], deliveries_requestTimer r now, List.Pairwise.nil, fun g => iff_of_false List.not_mem_nil id⟩
  | livenessTick => exact ⟨[], deliveries_livenessTick r, List.Pairwise.nil, fun g => iff_of_false List.not_mem_nil id⟩

/-! ### The timer -/

/-- The timer is set exactly while there is a gap. -/
def Armed (r : Receiver) : Prop := r.requestAt.isSome = !r.queue.gap.isEmpty

theorem receiver_settleGap (r : Receiver) (now : Instant) (change : Option GapChange) :
    (r.settleGap now change).receiver = (r.onGapChange now change).receiver := by
  unfold settleGap
  dsimp only
  split <;> rfl

theorem failure_onGapChange_of_settleGap {r : Receiver} {now : Instant} {change : Option GapChange}
    (h : (r.settleGap now change).failure = none) : (r.onGapChange now change).failure = none :=
  (failure_onGapChange r now change).2 ((failure_settleGap r now change).1 h).1

/-- The timer follows the gap from `before` to what it is now. -/
theorem armed_settleGap {r : Receiver} {before : Gap} {change : Option GapChange}
    (hchange : change = GapChange.of before r.queue.gap) (hbefore : r.requestAt.isSome = !before.isEmpty) {now : Instant}
    (hok : (r.settleGap now change).failure = none) : (r.settleGap now change).receiver.Armed := by
  have hok := failure_onGapChange_of_settleGap hok
  unfold Armed
  rw [receiver_settleGap, queue_onGapChange]
  subst hchange
  by_cases heq : before = r.queue.gap
  · rw [GapChange.of, if_pos heq, ← heq]
    exact hbefore
  · rw [GapChange.of, if_neg heq] at hok ⊢
    unfold onGapChange at hok ⊢
    dsimp only at hok ⊢
    split
    · next hempty => simp [quiet, hempty]
    · next hempty =>
      rw [if_neg hempty] at hok
      split
      · next hlarge =>
        rw [if_pos hlarge] at hok
        cases hok
      split
      · simp [requestNow, hempty]
      · next hset => simpa [quiet, hempty, Option.isSome_iff_ne_none] using hset

theorem armed_onRequestTimer {r : Receiver} (hw : r.Within) (now : Instant) : (r.onRequestTimer now).receiver.Armed := by
  have hbears : ¬r.settings.maxGap < r.queue.gap.count := Nat.not_lt.2 hw.gap
  unfold onRequestTimer
  dsimp only
  rw [if_neg hbears]
  split
  · next hempty => simp [Armed, quiet, hempty]
  · next hempty => simp [Armed, requestNow, hempty]

/-! ### Calls that are borne -/

/-- Neither the gap nor the window was too large. -/
def Answer.Borne (a : Answer) : Prop := ∀ d ∈ a.failure, d.isImmediate = false

instance : DecidablePred Answer.Borne := fun a => by
  unfold Answer.Borne
  infer_instance

theorem Answer.Borne.failure_settleGap {r : Receiver} {now : Instant} {change : Option GapChange}
    (h : (r.settleGap now change).Borne) : (r.settleGap now change).failure = none := by
  cases hfailure : (r.settleGap now change).failure with
  | none => rfl
  | some d =>
    rcases desync_settleGap hfailure with ⟨gap, rfl⟩ | ⟨length, rfl⟩
    · cases h _ hfailure
    · cases h _ hfailure

structure Tended (r : Receiver) : Prop where
  ordered : r.queue.Ordered
  spans : r.queue.Spans
  within : r.Within
  armed : r.Armed

theorem tended_new (settings : Settings) (resendTo : Endpoint) : (new settings resendTo).Tended :=
  ⟨Arrivals.ordered_empty, Arrivals.spans_empty, within_new settings resendTo, rfl⟩

theorem Tended.of_eq {r r' : Receiver} (h : r.Tended) (hq : r'.queue = r.queue) (hs : r'.settings = r.settings)
    (hat : r'.requestAt = r.requestAt) : r'.Tended := by
  refine ⟨?_, ?_, h.within.of_eq hq hs, ?_⟩
  · rw [hq]
    exact h.ordered
  · rw [hq]
    exact h.spans
  · unfold Armed
    rw [hq, hat]
    exact h.armed

theorem tended_settleGap {r : Receiver} {before : Gap} {change : Option GapChange} (ho : r.queue.Ordered)
    (hspans : r.queue.Spans) (hchange : change = GapChange.of before r.queue.gap)
    (hcount : before.count ≤ r.settings.maxGap) (hbefore : r.requestAt.isSome = !before.isEmpty) {now : Instant}
    (hok : (r.settleGap now change).Borne) : (r.settleGap now change).receiver.Tended := by
  have hok := hok.failure_settleGap
  refine ⟨?_, ?_, within_settleGap hchange hcount hok, armed_settleGap hchange hbefore hok⟩
  · rw [queue_settleGap]
    exact ho
  · rw [queue_settleGap]
    exact hspans

theorem Tended.onFrame {r : Receiver} (h : r.Tended) {now : Instant} {f : Frame} (hok : (r.onFrame now f).Borne) :
    (r.onFrame now f).receiver.Tended := by
  rcases r.onFrame_cases now f with ⟨-, hf⟩ | ⟨-, stamp, hf⟩ | ⟨-, text, hf⟩ <;> rw [hf] at hok ⊢
  · exact tended_settleGap (r := { r with active := true, queue := (r.queue.insert f).2 })
      (Arrivals.advance_insert h.ordered f).ordered (h.spans.insert f) (r.queue.gapChange_insert f) h.within.gap h.armed
      hok
  · exact tended_settleGap
      (r := { r with active := true, lastHeartbeat := some stamp, queue := (r.queue.raiseBound f.seq).2 })
      (Arrivals.advance_raiseBound h.ordered f.seq).ordered (h.spans.raiseBound f.seq) (r.queue.gapChange_raiseBound f.seq)
      h.within.gap h.armed hok
  · exact h.of_eq rfl rfl rfl

theorem Tended.onEndOfSnapshot {r : Receiver} (h : r.Tended) (hq : r.queue.queuing = true) {now : Instant} {seq : Nat}
    (hok : (r.onEndOfSnapshot now seq).Borne) : (r.onEndOfSnapshot now seq).receiver.Tended := by
  have hidle : r.requestAt.isSome = false := by
    rw [h.armed, Arrivals.gap, hq]
    rfl
  exact tended_settleGap (r := { r with snapshotSeq := some seq, queue := (r.queue.stopQueuing seq).2 })
    (Arrivals.advance_stopQueuing h.ordered seq).ordered (h.spans.stopQueuing seq) (r.queue.gapChange_stopQueuing seq)
    (Nat.zero_le _) hidle hok

theorem Tended.onCall {r : Receiver} (h : r.Tended) {now : Instant} {c : Call} (hc : closes c = true → r.queue.queuing = true)
    (hok : (r.onCall now c).Borne) : (r.onCall now c).receiver.Tended := by
  cases c with
  | frame f => exact h.onFrame hok
  | endOfSnapshot seq => exact h.onEndOfSnapshot (hc rfl) hok
  | snapshotFrame f => exact h.of_eq rfl rfl rfl
  | livenessTick =>
    refine h.of_eq (queue_onCall (c := .livenessTick) trivial r now) (settings_onCall r now _) ?_
    simp only [Receiver.onCall, onLivenessTick]
    repeat' split
    all_goals rfl
  | requestTimer =>
    have hqueue := queue_onCall (c := .requestTimer) trivial r now
    refine ⟨?_, ?_, h.within.of_eq hqueue (settings_onCall r now _), armed_onRequestTimer h.within now⟩
    · rw [hqueue]
      exact h.ordered
    · rw [hqueue]
      exact h.spans

theorem queuing_onCall {r : Receiver} (ho : r.queue.Ordered) (now : Instant) {c : Call} (hc : closes c = false) :
    (r.onCall now c).receiver.queue.queuing = r.queue.queuing := by
  cases c with
  | frame f =>
    obtain ⟨out, hadvance, -⟩ := onFrame_advance ho now f
    exact hadvance.queuing
  | endOfSnapshot seq => cases hc
  | snapshotFrame f => rfl
  | requestTimer => exact congrArg (·.queuing) (queue_onCall (c := .requestTimer) trivial r now)
  | livenessTick => exact congrArg (·.queuing) (queue_onCall (c := .livenessTick) trivial r now)

/-! ### Numbers that are words -/

/-- If the call ends a snapshot, it does so with a word. -/
def Call.Worded : Call → Prop
  | .endOfSnapshot seq => seq ≤ Arrivals.maxSeq
  | _ => True

instance : DecidablePred Call.Worded
  | .endOfSnapshot seq => inferInstanceAs (Decidable (seq ≤ Arrivals.maxSeq))
  | .snapshotFrame _ => .isTrue trivial
  | .frame _ => .isTrue trivial
  | .requestTimer => .isTrue trivial
  | .livenessTick => .isTrue trivial

/-- The answer hands over a frame that has the largest number. -/
def Answer.exhausts (a : Answer) : Bool :=
  a.deliveries.any fun
    | .message f => f.seq == Arrivals.maxSeq
    | _ => false

theorem Answer.seq_ne_of_exhausts {a : Answer} (h : a.exhausts = false) {opening : List Delivery} {out : List Frame}
    (hout : a.deliveries = opening ++ out.map .message) : ∀ f ∈ out, f.seq ≠ Arrivals.maxSeq := by
  intro f hf
  have hmem : Delivery.message f ∈ a.deliveries := by
    rw [hout]
    exact List.mem_append_right _ (List.mem_map.2 ⟨f, hf, rfl⟩)
  simpa using List.any_eq_false.1 h _ hmem

theorem ordered_onCall {r : Receiver} (ho : r.queue.Ordered) (now : Instant) (c : Call) :
    (r.onCall now c).receiver.queue.Ordered := by
  rcases c.aside_or with haside | ⟨f, rfl⟩ | ⟨seq, rfl⟩
  · rw [queue_onCall haside]
    exact ho
  · obtain ⟨out, hadvance, -⟩ := onFrame_advance ho now f
    exact hadvance.ordered
  · obtain ⟨out, hadvance, -⟩ := onEndOfSnapshot_advance ho now seq
    exact hadvance.ordered

theorem bound_onCall {r : Receiver} (hb : r.queue.bound ≤ Arrivals.maxSeq) (now : Instant) {c : Call} (hc : c.Worded) :
    (r.onCall now c).receiver.queue.bound ≤ Arrivals.maxSeq := by
  rcases c.aside_or with haside | ⟨f, rfl⟩ | ⟨seq, rfl⟩
  · rw [queue_onCall haside]
    exact hb
  · exact Nat.le_trans (r.bound_onFrame_le now f) (Nat.max_le.2 ⟨hb, Nat.le_refl _⟩)
  · show (r.onEndOfSnapshot now seq).receiver.queue.bound ≤ _
    rw [queue_endOfSnapshot]
    exact Nat.max_le.2 ⟨hb, hc⟩

theorem head_onCall {r : Receiver} (ho : r.queue.Ordered) (hh : r.queue.head ≤ Arrivals.maxSeq) {now : Instant} {c : Call}
    (hc : c.Worded) (hout : (r.onCall now c).exhausts = false) :
    (r.onCall now c).receiver.queue.head ≤ Arrivals.maxSeq := by
  rcases c.aside_or with haside | ⟨f, rfl⟩ | ⟨seq, rfl⟩
  · rw [queue_onCall haside]
    exact hh
  · obtain ⟨out, hadvance, hdeliveries⟩ := onFrame_advance ho now f
    have hdeliveries : (r.onCall now (.frame f)).deliveries = [] ++ out.map .message := hdeliveries
    exact hadvance.head_le hh (Answer.seq_ne_of_exhausts hout hdeliveries)
  · obtain ⟨out, hadvance, hdeliveries⟩ := onEndOfSnapshot_advance ho now seq
    have hdeliveries : (r.onCall now (.endOfSnapshot seq)).deliveries = [.endOfSnapshot seq] ++ out.map .message :=
      hdeliveries
    exact hadvance.head_le hc (Answer.seq_ne_of_exhausts hout hdeliveries)

theorem inWords_onCall {r : Receiver} (ho : r.queue.Ordered) (h : r.queue.InWords) {now : Instant} {c : Call}
    (hc : c.Worded) (hout : (r.onCall now c).exhausts = false) : (r.onCall now c).receiver.queue.InWords :=
  ⟨head_onCall ho h.head hc hout, bound_onCall h.bound now hc⟩

/-! ### Whole runs -/

def onCalls (r : Receiver) (calls : List (Instant × Call)) : Receiver :=
  calls.foldl (fun r call => (r.onCall call.1 call.2).receiver) r

theorem settings_onCalls (r : Receiver) (calls : List (Instant × Call)) : (r.onCalls calls).settings = r.settings := by
  induction calls generalizing r with
  | nil => rfl
  | cons call rest ih => exact (ih _).trans (settings_onCall r call.1 call.2)

/-- The answers to calls that come one after the other. -/
def answers (r : Receiver) : List (Instant × Call) → List Answer
  | [] => []
  | (now, c) :: rest => r.onCall now c :: (r.onCall now c).receiver.answers rest

theorem inWords_onCalls {r : Receiver} (ho : r.queue.Ordered) (h : r.queue.InWords) {calls : List (Instant × Call)}
    (hcalls : ∀ call ∈ calls, call.2.Worded) (hout : ∀ a ∈ r.answers calls, a.exhausts = false) :
    (r.onCalls calls).queue.InWords := by
  induction calls generalizing r with
  | nil => exact h
  | cons call rest ih =>
    obtain ⟨now, c⟩ := call
    have hfirst := inWords_onCall ho h (hcalls (now, c) List.mem_cons_self) (hout _ List.mem_cons_self)
    exact ih (ordered_onCall ho now c) hfirst (fun call hcall => hcalls call (List.mem_cons_of_mem _ hcall))
      fun a ha => hout a (List.mem_cons_of_mem _ ha)

/-- At most one of the calls is the end of a snapshot. -/
def EndsOnce (calls : List (Instant × Call)) : Prop := (calls.filter (closes ·.2)).length ≤ 1

instance : DecidablePred EndsOnce := fun calls => by
  unfold EndsOnce
  infer_instance

theorem Tended.onCalls {r : Receiver} (h : r.Tended) {calls : List (Instant × Call)}
    (honce : (∀ call ∈ calls, closes call.2 = false) ∨ r.queue.queuing = true ∧ EndsOnce calls)
    (hok : ∀ a ∈ r.answers calls, a.Borne) : (r.onCalls calls).Tended := by
  induction calls generalizing r with
  | nil => exact h
  | cons call rest ih =>
    obtain ⟨now, c⟩ := call
    have hends : closes c = true → r.queue.queuing = true := by
      intro hc
      rcases honce with hnone | ⟨hq, -⟩
      · cases hc.symm.trans (hnone (now, c) List.mem_cons_self)
      · exact hq
    refine ih (h.onCall hends (hok _ List.mem_cons_self)) ?_ fun a ha => hok a (List.mem_cons_of_mem _ ha)
    rcases honce with hnone | ⟨hq, honce⟩
    · exact Or.inl fun call hcall => hnone call (List.mem_cons_of_mem _ hcall)
    · unfold EndsOnce at honce
      rw [List.filter_cons] at honce
      cases hc : closes c with
      | true =>
        -- the one end of a snapshot was this one
        rw [hc, if_pos rfl, List.length_cons] at honce
        have hnone : rest.filter (closes ·.2) = [] := List.length_eq_zero_iff.1 (by omega)
        exact Or.inl fun call hcall => by simpa using List.filter_eq_nil_iff.1 hnone call hcall
      | false =>
        refine Or.inr ⟨?_, ?_⟩
        · rw [queuing_onCall h.ordered now hc]
          exact hq
        · simpa [EndsOnce, hc] using honce

/-- **The timer follows the gap.** Whatever frames, rings of the timers and at most one end of a snapshot a new receiver
was given: as long as it bore its gap and its window, the timer is set exactly while the window is live and has a gap, the
gap is within its limit, the window within its own, and no more frames are held back than the window is long, except where
its length overflows. If the snapshot ends with a word and the frame with the largest number is not handed over, head and
bound are words. And to the next call the receiver hands over all that this call makes ready, whether it bears the rest or
fails. -/
theorem tends (settings : Settings) (resendTo : Endpoint) (calls : List (Instant × Call)) (honce : EndsOnce calls)
    (hok : ∀ a ∈ (new settings resendTo).answers calls, a.Borne) :
    let r := (new settings resendTo).onCalls calls
    (r.requestAt.isSome ↔ r.queue.queuing = false ∧ r.queue.gap.isEmpty = false) ∧
      r.queue.gap.count ≤ settings.maxGap ∧ (r.queue.count ≤ r.queue.length ↔ ¬ r.queue.Overflows) ∧
        r.queue.length ≤ settings.maxQueue ∧
        ((∀ call ∈ calls, call.2.Worded) → (∀ a ∈ (new settings resendTo).answers calls, a.exhausts = false) →
          r.queue.InWords) ∧
        ∀ now c, ∃ out : List Frame, (r.onCall now c).deliveries = c.opening ++ out.map .message ∧
          out.Pairwise (·.seq < ·.seq) ∧ ∀ g, g ∈ out ↔ r.Ready c g := by
  intro r
  have htended : r.Tended := (tended_new settings resendTo).onCalls (Or.inr ⟨rfl, honce⟩) hok
  have hsettings : r.settings = settings := settings_onCalls (new settings resendTo) calls
  have harmed := htended.armed
  obtain ⟨hgap, hlength⟩ := htended.within
  rw [hsettings] at hgap hlength
  have hwords : (new settings resendTo).queue.InWords := ⟨Nat.zero_le _, Nat.zero_le _⟩
  refine ⟨?_, hgap, Arrivals.count_le_length_iff htended.ordered htended.spans, hlength,
    inWords_onCalls Arrivals.ordered_empty hwords, deliveries_onCall htended.ordered⟩
  rw [harmed]
  constructor
  · intro h
    have hgap : r.queue.gap.isEmpty = false := by simpa using h
    exact ⟨Arrivals.live_of_gap hgap, hgap⟩
  · rintro ⟨-, hgap⟩
    rw [hgap]
    rfl

/-- A window that goes live with one frame held back, and in which one number is missing before three others. -/
def awaiting : List (Instant × Call) :=
  [(1, .snapshotFrame ⟨⟨0, 0, 0, 1, noShard⟩, []⟩), (2, .frame ⟨⟨12, 0, 0, 1, noShard⟩, []⟩), (3, .endOfSnapshot 10),
    (4, .frame ⟨⟨11, 0, 0, 1, noShard⟩, []⟩), (5, .requestTimer), (6, .livenessTick),
    (7, .frame ⟨⟨16, 0, 0, 1, noShard⟩, []⟩)]

/-- The frame under the missing number closes the gap, and the next gap is too large; three frames are handed over. -/
theorem tends_awaiting :
    let settings : Settings := { Settings.default with maxGap := 2, maxQueue := 8 }
    let r := (new settings default).onCalls awaiting
    let c : Call := .frame ⟨⟨10, 0, 0, 1, noShard⟩, []⟩
    EndsOnce awaiting ∧ (∀ a ∈ (new settings default).answers awaiting, a.Borne) ∧ r.requestAt.isSome = true ∧
      r.queue.gap = ⟨10, 1⟩ ∧ r.queue.count = 3 ∧ r.queue.length = 7 ∧ r.queue.count ≤ r.queue.length ∧
        r.queue.InWords ∧ (r.onCall 8 c).failure = some (.gapTooLarge ⟨13, 3⟩) ∧
          ∃ out : List Frame, (r.onCall 8 c).deliveries = out.map .message ∧ out.map (·.seq) = [10, 11, 12] := by
  intro settings r c
  have honce : EndsOnce awaiting := by decide +kernel
  have hok : ∀ a ∈ (new settings default).answers awaiting, a.Borne := by decide +kernel
  have hcalls : ∀ call ∈ awaiting, call.2.Worded := by decide +kernel
  have hout : ∀ a ∈ (new settings default).answers awaiting, a.exhausts = false := by decide +kernel
  have hspan : ¬ r.queue.Overflows := by decide +kernel
  obtain ⟨harmed, -, hcount, -, hwords, -⟩ := tends settings default awaiting honce hok
  refine ⟨honce, hok, harmed.2 (by decide +kernel), by decide +kernel, by decide +kernel, by decide +kernel,
    hcount.2 hspan, hwords hcalls hout, by decide +kernel,
    [10, 11, 12].map fun seq => ⟨⟨seq, 0, 0, 1, noShard⟩, []⟩, by decide +kernel, by decide +kernel⟩

/-- While the window is queuing the outermost of all numbers arrive. -/
def outermost : List (Instant × Call) :=
  [(1, .frame ⟨⟨0, 0, 0, 1, noShard⟩, []⟩), (2, .frame ⟨⟨0xffffffffffffffff, 0, 0, 1, noShard⟩, []⟩)]

/-- The receiver bears a window that is longer than any limit, since its length is zero in words. -/
theorem outermost_overflows :
    let r := (new .default default).onCalls outermost
    Settings.default.Valid ∧ EndsOnce outermost ∧ (∀ a ∈ (new .default default).answers outermost, a.Borne) ∧
      r.queue.count = 2 ∧ r.queue.length = 0 ∧ ¬ r.queue.count ≤ r.queue.length := by
  decide +kernel

end Receiver

end ReliableMulticast
