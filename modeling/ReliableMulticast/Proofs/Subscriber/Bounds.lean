import ReliableMulticast.Proofs.Sequence.Gap
import ReliableMulticast.Proofs.Subscriber.Receiver

/-!
# What a receiver bears

A receiver fails where its gap or its window has become too large. As long as it does not fail it stays `Within` the limits
of its settings (`Within.onCall`).

While a gap is filled by repetition, the numbers from its end on do not matter: `Mends r stop` says of a receiver that it
bears the numbers below `stop` in whatever order they come. It can fail only when its head has passed `stop`, and when all
numbers below `stop` have come, the head has passed it (`Mends.hear`).
-/

namespace ReliableMulticast.Receiver

/-! ### Answers to frames -/

/-- All that a frame from the data socket can do. -/
theorem onFrame_cases (r : Receiver) (now : Instant) (f : Frame) :
    (f.isControl = false ∧ r.onFrame now f =
        onInserted { r with active := true, queue := (r.queue.insert f).2 } now (r.queue.insert f).1) ∨
      (f.isControl = true ∧ ∃ stamp, r.onFrame now f =
        settleGap { r with active := true, lastHeartbeat := some stamp, queue := (r.queue.raiseBound f.seq).2 } now
          (r.queue.raiseBound f.seq).1) ∨
      (f.isControl = true ∧ ∃ text, r.onFrame now f = ⟨{ r with active := true }, [.warn text], none⟩) := by
  have hcontrol : f.message? ≠ .ok none → f.isControl = true := by
    intro hm
    by_contra hc
    exact hm ((Frame.message?_eq_none_iff f).2 (by simpa using hc))
  unfold onFrame
  dsimp only
  split
  · next hm => exact Or.inl ⟨(Frame.message?_eq_none_iff f).1 hm, rfl⟩
  · next stamp hm => exact Or.inr (Or.inl ⟨hcontrol (by simp [hm]), stamp, rfl⟩)
  · next hm => exact Or.inr (Or.inr ⟨hcontrol (by simp [hm]), _, rfl⟩)
  · next hm => exact Or.inr (Or.inr ⟨hcontrol (by simp [hm]), _, rfl⟩)

theorem settings_onGapChange (r : Receiver) (now : Instant) (change : Option GapChange) :
    (r.onGapChange now change).receiver.settings = r.settings := by
  unfold onGapChange
  repeat' split
  all_goals rfl

theorem settings_settleGap (r : Receiver) (now : Instant) (change : Option GapChange) :
    (r.settleGap now change).receiver.settings = r.settings := by
  unfold settleGap
  dsimp only
  split <;> exact settings_onGapChange r now change

theorem settings_onFrame (r : Receiver) (now : Instant) (f : Frame) :
    (r.onFrame now f).receiver.settings = r.settings := by
  rcases r.onFrame_cases now f with ⟨-, h⟩ | ⟨-, stamp, h⟩ | ⟨-, text, h⟩ <;> rw [h]
  · exact settings_settleGap _ now _
  · exact settings_settleGap _ now _

theorem settings_onCall (r : Receiver) (now : Instant) (c : Call) :
    (r.onCall now c).receiver.settings = r.settings := by
  cases c with
  | snapshotFrame f => rfl
  | endOfSnapshot seq => exact settings_settleGap _ now _
  | frame f => exact settings_onFrame r now f
  | requestTimer =>
    simp only [onCall, onRequestTimer]
    repeat' split
    all_goals rfl
  | livenessTick =>
    simp only [onCall, onLivenessTick]
    repeat' split
    all_goals rfl

theorem queue_endOfSnapshot (r : Receiver) (now : Instant) (seq : Nat) :
    (r.onEndOfSnapshot now seq).receiver.queue = (r.queue.stopQueuing seq).2 :=
  queue_settleGap _ now _

theorem bound_onFrame_le (r : Receiver) (now : Instant) (f : Frame) :
    (r.onFrame now f).receiver.queue.bound ≤ max r.queue.bound Arrivals.maxSeq := by
  rcases r.onFrame_cases now f with ⟨-, h⟩ | ⟨-, stamp, h⟩ | ⟨-, text, h⟩ <;> rw [h]
  · rw [queue_onInserted]
    exact r.queue.bound_insert_le f
  · rw [queue_settleGap]
    exact r.queue.bound_raiseBound_le f
  · exact Nat.le_max_left _ _

/-! ### Failures -/

theorem failure_onGapChange (r : Receiver) (now : Instant) (change : Option GapChange) :
    (r.onGapChange now change).failure = none ↔ ∀ c ∈ change, c.now.count ≤ r.settings.maxGap := by
  cases change with
  | none => simp [onGapChange, quiet]
  | some c =>
    simp only [onGapChange, Option.mem_def, Option.some.injEq, forall_eq']
    split
    · next h =>
      rw [Gap.count_of_isEmpty h]
      simp [quiet]
    split
    · next h => simp [h]
    · next h =>
      have hle : c.now.count ≤ r.settings.maxGap := Nat.le_of_not_lt h
      split <;> simp [hle, requestNow, quiet]

theorem failure_settleGap (r : Receiver) (now : Instant) (change : Option GapChange) :
    (r.settleGap now change).failure = none ↔
      (∀ c ∈ change, c.now.count ≤ r.settings.maxGap) ∧ r.queue.length ≤ r.settings.maxQueue := by
  rw [← failure_onGapChange r now change]
  unfold settleGap
  dsimp only
  split
  · next d h => simp [h]
  · next h =>
    simp only [h, true_and, checkLength, settings_onGapChange, queue_onGapChange]
    split <;> simp_all

/-- A gap or a window is too large. -/
theorem desync_settleGap {r : Receiver} {now : Instant} {change : Option GapChange} {d : Desync}
    (h : (r.settleGap now change).failure = some d) : (∃ gap, d = .gapTooLarge gap) ∨ ∃ length, d = .queueOverflow length := by
  unfold settleGap at h
  dsimp only at h
  split at h
  · unfold onGapChange at h
    split at h
    · cases h
    split at h
    · cases h
    split at h
    · exact Or.inl ⟨_, (Option.some.inj h).symm⟩
    split at h <;> cases h
  · simp only [checkLength] at h
    split at h
    · exact Or.inr ⟨_, (Option.some.inj h).symm⟩
    · cases h

/-- A frame fails a receiver by the size of its gap or of its window. -/
theorem failure_onFrame {r : Receiver} {now : Instant} {f : Frame} {d : Desync} (h : (r.onFrame now f).failure = some d) :
    (∃ gap, d = .gapTooLarge gap) ∨ ∃ length, d = .queueOverflow length := by
  rcases r.onFrame_cases now f with ⟨-, hf⟩ | ⟨-, stamp, hf⟩ | ⟨-, text, hf⟩ <;> rw [hf] at h
  · exact desync_settleGap h
  · exact desync_settleGap h
  · cases h

/-! ### Limits -/

structure Within (r : Receiver) : Prop where
  gap : r.queue.gap.count ≤ r.settings.maxGap
  length : r.queue.length ≤ r.settings.maxQueue

theorem within_new (settings : Settings) (resendTo : Endpoint) : (new settings resendTo).Within :=
  ⟨Nat.zero_le _, Nat.zero_le _⟩

theorem Within.of_eq {r r' : Receiver} (h : r.Within) (hq : r'.queue = r.queue) (hs : r'.settings = r.settings) :
    r'.Within := by
  refine ⟨?_, ?_⟩
  · rw [hq, hs]
    exact h.gap
  · rw [hq, hs]
    exact h.length

/-- Where the gap was bearable before the change, a receiver fails exactly outside its limits. -/
theorem failure_settleGap_iff {r : Receiver} {before : Gap} {change : Option GapChange}
    (hchange : change = GapChange.of before r.queue.gap) (hbefore : before.count ≤ r.settings.maxGap) (now : Instant) :
    (r.settleGap now change).failure = none ↔ r.Within := by
  have hcount : (∀ c ∈ change, c.now.count ≤ r.settings.maxGap) ↔ r.queue.gap.count ≤ r.settings.maxGap := by
    rw [hchange, GapChange.of]
    split
    · next heq => simp [← heq, hbefore]
    · simp
  rw [failure_settleGap, hcount]
  exact ⟨fun h => ⟨h.1, h.2⟩, fun h => ⟨h.gap, h.length⟩⟩

theorem within_settleGap {r : Receiver} {before : Gap} {change : Option GapChange}
    (hchange : change = GapChange.of before r.queue.gap) (hbefore : before.count ≤ r.settings.maxGap) {now : Instant}
    (hok : (r.settleGap now change).failure = none) : (r.settleGap now change).receiver.Within :=
  ((failure_settleGap_iff hchange hbefore now).1 hok).of_eq (queue_settleGap r now change)
    (settings_settleGap r now change)

theorem Within.onFrame {r : Receiver} (h : r.Within) {now : Instant} {f : Frame}
    (hok : (r.onFrame now f).failure = none) : (r.onFrame now f).receiver.Within := by
  rcases r.onFrame_cases now f with ⟨-, hf⟩ | ⟨-, stamp, hf⟩ | ⟨-, text, hf⟩ <;> rw [hf] at hok ⊢
  · exact within_settleGap (r := { r with active := true, queue := (r.queue.insert f).2 })
      (r.queue.gapChange_insert f) h.gap hok
  · exact within_settleGap
      (r := { r with active := true, lastHeartbeat := some stamp, queue := (r.queue.raiseBound f.seq).2 })
      (r.queue.gapChange_raiseBound f.seq) h.gap hok
  · exact h.of_eq rfl rfl

/-- A receiver that does not fail stays within its limits. -/
theorem Within.onCall {r : Receiver} (h : r.Within) {now : Instant} {c : Call}
    (hok : (r.onCall now c).failure = none) : (r.onCall now c).receiver.Within := by
  cases c with
  | frame f => exact h.onFrame hok
  | endOfSnapshot seq => exact within_settleGap (r.queue.gapChange_stopQueuing seq) (Nat.zero_le _) hok
  | snapshotFrame f => exact h.of_eq rfl rfl
  | requestTimer => exact h.of_eq (queue_onCall (c := .requestTimer) trivial r now) (settings_onCall r now _)
  | livenessTick => exact h.of_eq (queue_onCall (c := .livenessTick) trivial r now) (settings_onCall r now _)

/-! ### Mending a gap -/

theorem failure_hear {r : Receiver} {replies : List (Instant × Frame)} {d : Desync}
    (h : (r.hear replies).failure = some d) : (∃ gap, d = .gapTooLarge gap) ∨ ∃ length, d = .queueOverflow length := by
  induction replies generalizing r with
  | nil => cases h
  | cons reply rest ih =>
    simp only [hear] at h
    split at h
    · exact failure_onFrame h
    · exact ih h

/-- A receiver with a gap up to `stop` that is small enough to be filled. -/
structure Mends (r : Receiver) (stop : Nat) : Prop where
  ends : r.queue.Ends stop
  within : r.Within
  room : stop - r.queue.head ≤ r.settings.maxGap

section Mends

variable {r : Receiver} {stop : Nat}

theorem mends_gap (ho : r.queue.Ordered) (hw : r.Within) (hknown : ∀ f ∈ r.queue.pending, f.seq < r.queue.bound)
    (hfits : r.queue.bound ≤ Arrivals.maxSeq) (hgap : r.queue.gap.isEmpty = false)
    (hmax : r.settings.maxGap < Gap.maxCount) :
    r.queue.gap.start = r.queue.head ∧ r.Mends r.queue.gap.stop := by
  obtain ⟨hstart, hends⟩ := Arrivals.ends_gap ho hknown hfits hgap (Nat.lt_of_le_of_lt hw.gap hmax)
  refine ⟨hstart, hends, hw, ?_⟩
  have hcount : r.queue.gap.stop - r.queue.head = r.queue.gap.count := by
    rw [Arrivals.stop_gap hknown hfits, ← hstart]
    exact Nat.add_sub_cancel_left _ _
  rw [hcount]
  exact hw.gap

/-- A frame of the gap settles its number, and where the receiver fails at it the gap has been filled. -/
theorem Mends.onFrame (h : r.Mends stop) (now : Instant) {f : Frame} (hc : f.isControl = false) (hf : f.seq < stop) :
    (∀ n, (r.onFrame now f).receiver.queue.Has n ↔ n = f.seq ∨ r.queue.Has n) ∧
      ((r.onFrame now f).failure = none → (r.onFrame now f).receiver.Mends stop) ∧
        ((r.onFrame now f).failure ≠ none → stop ≤ (r.onFrame now f).receiver.queue.head) := by
  have hframe : r.onFrame now f =
      onInserted { r with active := true, queue := (r.queue.insert f).2 } now (r.queue.insert f).1 := by
    rcases r.onFrame_cases now f with ⟨-, hcase⟩ | ⟨hcontrol, -⟩ | ⟨hcontrol, -⟩
    · exact hcase
    · rw [hc] at hcontrol
      cases hcontrol
    · rw [hc] at hcontrol
      cases hcontrol
  have hqueue : (r.onFrame now f).receiver.queue = (r.queue.insert f).2 := by
    rw [hframe, queue_onInserted]
  obtain ⟨hends, hbound, hhead⟩ := h.ends.insert hf
  have hroom := h.room
  refine ⟨fun n => ?_, fun hok => ⟨?_, h.within.onFrame hok, ?_⟩, fun hfail => ?_⟩
  · rw [hqueue, Arrivals.has_insert h.ends.live]
  · rw [hqueue]
    exact hends
  · rw [hqueue, settings_onFrame]
    omega
  · -- as long as the head stands before the end, neither limit is exceeded
    by_contra hlt
    rw [hqueue] at hlt
    have hedge := hends.edge_le (Nat.lt_of_not_le hlt)
    have hgap : (r.queue.insert f).2.gap.count ≤ r.settings.maxGap := by
      rw [Arrivals.gap_of_live hends.live]
      have := Gap.count_between_le (r.queue.insert f).2.head (r.queue.insert f).2.edge
      omega
    have hlength : (r.queue.insert f).2.length ≤ r.settings.maxQueue := by
      have hold := h.within.length
      rw [Arrivals.length_of_live h.ends.live] at hold
      rw [Arrivals.length_of_live hends.live, hbound]
      omega
    rw [hframe] at hfail
    exact hfail ((failure_settleGap_iff (r := { r with active := true, queue := (r.queue.insert f).2 })
      (r.queue.gapChange_insert f) h.within.gap now).2 ⟨hgap, hlength⟩)

/-- Frames of the gap in any order: when all have come, or the receiver has failed before, the gap has been filled. -/
theorem Mends.hear (h : r.Mends stop) {replies : List (Instant × Frame)}
    (hreplies : ∀ reply ∈ replies, reply.2.isControl = false ∧ reply.2.seq < stop)
    (hall : ∀ n < stop, r.queue.Has n ∨ n ∈ replies.map (·.2.seq)) : stop ≤ (r.hear replies).receiver.queue.head := by
  induction replies generalizing r with
  | nil => exact Arrivals.le_head_of_has h.ends.ordered h.ends.live (fun n hn => by simpa using hall n hn)
  | cons reply rest ih =>
    obtain ⟨now, f⟩ := reply
    obtain ⟨hc, hf⟩ := hreplies (now, f) (by simp)
    obtain ⟨hhas, hmends, hfilled⟩ := h.onFrame now hc hf
    simp only [Receiver.hear]
    split
    · next hfail => exact hfilled (Option.isSome_iff_ne_none.1 hfail)
    · next hok =>
      refine ih (hmends (by simpa using hok)) (fun reply hr => hreplies reply (List.mem_cons_of_mem _ hr)) (fun n hn => ?_)
      rcases hall n hn with hn | hn
      · exact Or.inl ((hhas n).2 (Or.inr hn))
      · rcases List.mem_cons.1 hn with rfl | hn
        · exact Or.inl ((hhas _).2 (Or.inl rfl))
        · exact Or.inr hn

end Mends

end ReliableMulticast.Receiver
