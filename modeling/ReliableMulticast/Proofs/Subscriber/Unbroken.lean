import ReliableMulticast.Proofs.Subscriber.Bounds

/-!
# A stream without a break

`r.Unbroken since heard cut` says of a receiver that the application data which it has `heard` carries the numbers from
`since` on, one after the other. Before the end of the snapshot the window holds all of it. A snapshot that ends at `seq`,
not before `since`, takes what is numbered below `seq` out of the window and hands over the rest; from then on the window
is empty, and its head and its bound are one number.

* `Unbroken.data`, `Unbroken.control`: the next frame from the data socket, under the next number;
* `Unbroken.endOfSnapshot`: the end of the snapshot, at any time in between;
* `Unbroken.aside`: the calls that leave the window alone.

Main statement (`Unbroken.onCall`): each of these answers is `Calm`, that is, the gap is empty after it, nothing is asked
for, and the gap is not what fails the receiver; and what has been handed over goes on as `Told` says.
-/

namespace ReliableMulticast

/-! ### Frames in sequence -/

section Numbered

variable {l : List Frame} {since : Nat}

theorem seq_bounds_of_numbered (h : l.map (·.seq) = List.range' since l.length) {f : Frame} (hf : f ∈ l) :
    since ≤ f.seq ∧ f.seq < since + l.length := by
  have hmem : f.seq ∈ l.map (·.seq) := List.mem_map_of_mem hf
  rwa [h, List.mem_range'_1] at hmem

theorem numbered_concat (h : l.map (·.seq) = List.range' since l.length) {f : Frame} (hf : f.seq = since + l.length) :
    (l ++ [f]).map (·.seq) = List.range' since (l ++ [f]).length := by
  rw [List.map_append, h, List.length_append, List.length_singleton, List.range'_concat, Nat.one_mul]
  exact congrArg (List.range' since l.length ++ [·]) hf

/-- What is numbered from `seq` on is the end of the list. -/
theorem filter_of_numbered (h : l.map (·.seq) = List.range' since l.length) {seq : Nat} (hle : since ≤ seq) :
    l.filter (seq ≤ ·.seq) = l.drop (seq - since) := by
  induction l generalizing since with
  | nil => simp
  | cons f rest ih =>
    rw [List.map_cons, List.length_cons, List.range'_succ, List.cons.injEq] at h
    obtain ⟨hf, hrest⟩ := h
    by_cases hseq : since = seq
    · -- nothing is numbered below `seq`
      subst hseq
      rw [Nat.sub_self, List.drop_zero, List.filter_eq_self]
      intro g hg
      rcases List.mem_cons.1 hg with rfl | hg
      · simp [hf]
      · have := (seq_bounds_of_numbered hrest hg).1
        simp
        omega
    · have hless : seq - since = (seq - (since + 1)) + 1 := by omega
      have hout : ¬ seq ≤ f.seq := by omega
      rw [List.filter_cons_of_neg (by simpa using hout), hless, List.drop_succ_cons]
      exact ih hrest (by omega)

theorem numbered_filter (h : l.map (·.seq) = List.range' since l.length) {seq : Nat} (hle : since ≤ seq) :
    (l.filter (seq ≤ ·.seq)).map (·.seq) = List.range' seq (since + l.length - seq) := by
  rw [filter_of_numbered h hle, List.map_drop, h, List.drop_range', Nat.mul_one, Nat.add_sub_cancel' hle]
  congr 1
  omega

end Numbered

namespace Arrivals

theorem place_last {f : Frame} {l : List Frame} (h : ∀ g ∈ l, g.seq < f.seq) : place f l = l ++ [f] := by
  induction l with
  | nil => rfl
  | cons g rest ih =>
    have hg : g.seq < f.seq := h g List.mem_cons_self
    unfold place
    rw [if_neg (by omega), if_neg (by omega), ih (fun g' hg' => h g' (List.mem_cons_of_mem _ hg'))]
    rfl

theorem run_of_numbered {l : List Frame} {n : Nat} (h : l.map (·.seq) = List.range' n l.length) : run n l = (l, []) := by
  induction l generalizing n with
  | nil => rfl
  | cons f rest ih =>
    rw [List.map_cons, List.length_cons, List.range'_succ, List.cons.injEq] at h
    unfold run
    rw [if_pos h.1, ih h.2]

/-! ### The window -/

/-- A window that waits for the end of the snapshot, with all that was heard. -/
structure Gathering (a : Arrivals) (since : Nat) (heard : List Frame) : Prop where
  queuing : a.queuing = true
  pending : a.pending = heard
  bound_le : a.bound ≤ since + heard.length
  bound : heard ≠ [] → a.bound = since + heard.length

/-- A live window in which nothing is missing or held back. -/
structure Through (a : Arrivals) (next : Nat) : Prop where
  live : a.queuing = false
  pending : a.pending = []
  head : a.head = next
  bound : a.bound = next

variable {a : Arrivals} {since next : Nat} {heard : List Frame} {f : Frame}

theorem gathering_empty (since : Nat) : empty.Gathering since [] :=
  ⟨rfl, rfl, Nat.zero_le _, fun h => absurd rfl h⟩

theorem Gathering.gap (h : a.Gathering since heard) : a.gap = Gap.none := by
  unfold Arrivals.gap
  rw [h.queuing]
  rfl

theorem Through.gap (h : a.Through next) : a.gap = Gap.none := by
  rw [gap_of_live h.live]
  unfold edge Gap.between
  rw [h.pending, h.head, h.bound]
  exact if_pos (Nat.le_refl next)

theorem Gathering.insert (h : a.Gathering since heard) (hn : heard.map (·.seq) = List.range' since heard.length)
    (hf : f.seq = since + heard.length) (hmax : f.seq < maxSeq) :
    (a.insert f).1 = .nothing ∧ (a.insert f).2.Gathering since (heard ++ [f]) := by
  have hplace : place f a.pending = heard ++ [f] := by
    rw [h.pending]
    refine place_last fun g hg => ?_
    have := (seq_bounds_of_numbered hn hg).2
    omega
  have hbound : max a.bound (boundAfter f.seq) = since + (heard ++ [f]).length := by
    have hle := h.bound_le
    unfold boundAfter
    rw [List.length_append, List.length_singleton]
    omega
  unfold Arrivals.insert
  rw [if_pos h.queuing]
  exact ⟨rfl, h.queuing, hplace, Nat.le_of_eq hbound, fun _ => hbound⟩

/-- The head stands behind the last frame that was heard, or at the end of the snapshot. -/
theorem Gathering.stopQueuing (h : a.Gathering since heard) (hn : heard.map (·.seq) = List.range' since heard.length)
    {seq : Nat} (hle : since ≤ seq) :
    (a.stopQueuing seq).1 = ⟨heard.filter (seq ≤ ·.seq), none⟩ ∧
      (a.stopQueuing seq).2.Through (max seq (since + heard.length)) := by
  have hnumbered := numbered_filter hn hle
  have hlen : (heard.filter (seq ≤ ·.seq)).length = since + heard.length - seq := by
    have := congrArg List.length hnumbered
    rwa [List.length_map, List.length_range'] at this
  rw [← hlen] at hnumbered
  have hrun : run seq (a.pending.filter (seq ≤ ·.seq)) = (heard.filter (seq ≤ ·.seq), []) := by
    rw [h.pending]
    exact run_of_numbered hnumbered
  have hthrough : (a.stopQueuing seq).2.Through (max seq (since + heard.length)) := by
    refine ⟨rfl, ?_, ?_, ?_⟩
    · show (run seq (a.pending.filter (seq ≤ ·.seq))).2 = []
      rw [hrun]
    · show seq + (run seq (a.pending.filter (seq ≤ ·.seq))).1.length = _
      rw [hrun, hlen]
      omega
    · show max a.bound seq = _
      have hbound := h.bound_le
      by_cases hnone : heard = []
      · subst hnone
        rw [List.length_nil] at hbound ⊢
        omega
      · rw [h.bound hnone]
        omega
  refine ⟨?_, hthrough⟩
  have hchange : GapChange.of Gap.none (a.stopQueuing seq).2.gap = none := by
    rw [hthrough.gap]
    rfl
  show (⟨(run seq (a.pending.filter (seq ≤ ·.seq))).1, GapChange.of Gap.none (a.stopQueuing seq).2.gap⟩ : Inserted) = _
  rw [hchange, hrun]

theorem Gathering.raiseBound (h : a.Gathering since heard) (bound : Nat) : a.raiseBound bound = (none, a) := by
  unfold Arrivals.raiseBound
  rw [if_pos h.queuing]

/-- A frame that the snapshot covers. -/
theorem Through.insert_below (h : a.Through next) (hf : f.seq < next) : a.insert f = (.nothing, a) := by
  have hold : (f.seq < a.head || a.holds f.seq) = true := by
    rw [h.head]
    simp [hf]
  unfold Arrivals.insert
  rw [if_neg (by simp [h.live]), if_pos hold]

theorem Through.insert_head (h : a.Through next) (hf : f.seq = next) (hmax : f.seq < maxSeq) :
    (a.insert f).1 = ⟨[f], none⟩ ∧ (a.insert f).2.Through (next + 1) := by
  have hnew : ¬ (f.seq < a.head || a.holds f.seq) = true := by
    unfold holds
    rw [h.head, h.pending]
    simp [hf]
  have hrun : run a.head (place f a.pending) = ([f], []) := by
    rw [h.pending, h.head, ← hf]
    exact run_of_numbered rfl
  have hinsert : a.insert f = (⟨(run a.head (place f a.pending)).1,
      GapChange.of a.gap (a.insert f).2.gap⟩, (a.insert f).2) := by
    unfold Arrivals.insert
    rw [if_neg (by simp [h.live]), if_neg hnew]
    rfl
  have hthrough : (a.insert f).2.Through (next + 1) := by
    unfold Arrivals.insert
    rw [if_neg (by simp [h.live]), if_neg hnew]
    refine ⟨h.live, ?_, ?_, ?_⟩
    · show (run a.head (place f a.pending)).2 = []
      rw [hrun]
    · show a.head + (run a.head (place f a.pending)).1.length = next + 1
      rw [hrun, h.head]
      rfl
    · show max a.bound (boundAfter f.seq) = next + 1
      unfold boundAfter
      rw [h.bound]
      omega
  refine ⟨?_, hthrough⟩
  rw [hinsert, h.gap, hthrough.gap, hrun]
  rfl

theorem Through.raiseBound (h : a.Through next) {bound : Nat} (hle : bound ≤ next) : a.raiseBound bound = (none, a) := by
  have hsame : ({ a with bound := max a.bound bound } : Arrivals) = a := by
    rw [h.bound, Nat.max_eq_left hle, ← h.bound]
  unfold Arrivals.raiseBound
  rw [if_neg (by simp [h.live])]
  dsimp only
  rw [hsame]
  exact congrArg (·, a) (if_pos rfl)

/-- The window after `heard`, with the end of the snapshot as far as it has come. -/
def Unbroken (a : Arrivals) (since : Nat) (heard : List Frame) : Option Nat → Prop
  | none => a.Gathering since heard
  | some seq => since ≤ seq ∧ a.Through (max seq (since + heard.length))

theorem Unbroken.gap {cut : Option Nat} (h : a.Unbroken since heard cut) : a.gap = Gap.none := by
  cases cut with
  | none => exact Gathering.gap h
  | some seq => exact Through.gap h.2

end Arrivals

/-! ### Answers -/

namespace Receiver

structure Answer.Calm (a : Answer) : Prop where
  gap : a.receiver.queue.gap.isEmpty = true
  asks : ∀ dest f, .send dest f ∉ a.outputs
  bears : ∀ gap, a.failure ≠ some (.gapTooLarge gap)

structure Unbroken (r : Receiver) (since : Nat) (heard : List Frame) (cut : Option Nat) : Prop where
  numbered : heard.map (·.seq) = List.range' since heard.length
  idle : r.requestAt = none
  window : r.queue.Unbroken since heard cut

/-- What the application gets of a frame that comes next. -/
def handsOver (cut : Option Nat) (f : Frame) : List Frame :=
  match cut with
  | none => []
  | some seq => if seq ≤ f.seq then [f] else []

variable {r : Receiver} {since : Nat} {heard : List Frame} {cut : Option Nat} {now : Instant}

theorem unbroken_new (settings : Settings) (resendTo : Endpoint) (since : Nat) :
    (new settings resendTo).Unbroken since [] none :=
  ⟨rfl, rfl, Arrivals.gathering_empty since⟩

theorem Unbroken.gap (h : r.Unbroken since heard cut) : r.queue.gap.isEmpty = true := by
  rw [h.window.gap]
  rfl

/-- An answer that leaves the gap as it is. -/
theorem calm_settleGap (hgap : r.queue.gap.isEmpty = true) : (r.settleGap now none).Calm where
  gap := by
    rw [queue_settleGap]
    exact hgap
  asks := by rintro dest f ⟨⟩
  bears := by
    intro gap hgap
    unfold settleGap onGapChange quiet checkLength at hgap
    dsimp only at hgap
    split at hgap <;> cases hgap

theorem Answer.Calm.after {a : Answer} (h : a.Calm) {outputs : List Output} (hout : ∀ dest f, .send dest f ∉ outputs) :
    (a.after outputs).Calm where
  gap := h.gap
  asks := by
    intro dest f hf
    rcases List.mem_append.1 hf with hf | hf
    · exact hout dest f hf
    · exact h.asks dest f hf
  bears := h.bears

theorem not_send_of_message (fs : List Frame) (dest : Endpoint) (f : Frame) :
    Output.send dest f ∉ fs.map fun g => Output.deliver (.message g) := by
  intro hf
  obtain ⟨g, -, hg⟩ := List.mem_map.1 hf
  cases hg

/-- Frames that are handed over without a change of the gap. -/
theorem calm_onInserted (hgap : r.queue.gap.isEmpty = true) (out : List Frame) : (r.onInserted now ⟨out, none⟩).Calm :=
  (calm_settleGap hgap).after (not_send_of_message out)

/-- Application data under the next number. -/
theorem Unbroken.data (h : r.Unbroken since heard cut) (now : Instant) {f : Frame} (hdata : f.isControl = false)
    (hf : f.seq = since + heard.length) (hmax : f.seq < Arrivals.maxSeq) :
    (r.onFrame now f).receiver.Unbroken since (heard ++ [f]) cut ∧ (r.onFrame now f).Calm ∧
      (r.onFrame now f).deliveries = (handsOver cut f).map .message := by
  have hanswer : r.onFrame now f =
      onInserted { r with active := true, queue := (r.queue.insert f).2 } now (r.queue.insert f).1 := by
    rcases r.onFrame_cases now f with ⟨-, hanswer⟩ | ⟨hcontrol, -⟩ | ⟨hcontrol, -⟩
    · exact hanswer
    · rw [hdata] at hcontrol
      cases hcontrol
    · rw [hdata] at hcontrol
      cases hcontrol
  obtain ⟨hout, hwindow⟩ : (r.queue.insert f).1 = ⟨handsOver cut f, none⟩ ∧
      (r.queue.insert f).2.Unbroken since (heard ++ [f]) cut := by
    cases cut with
    | none => exact Arrivals.Gathering.insert h.window h.numbered hf hmax
    | some seq =>
      obtain ⟨hle, hthrough⟩ := h.window
      have hlen : since + (heard ++ [f]).length = f.seq + 1 := by
        rw [List.length_append, List.length_singleton]
        omega
      by_cases hseq : seq ≤ f.seq
      · have hhead : f.seq = max seq (since + heard.length) := by omega
        obtain ⟨hins, hnext⟩ := hthrough.insert_head hhead hmax
        refine ⟨?_, hle, ?_⟩
        · rw [hins, handsOver, if_pos hseq]
        · have hmaxs : max seq (since + (heard ++ [f]).length) = max seq (since + heard.length) + 1 := by omega
          rwa [hmaxs]
      · have hold : f.seq < max seq (since + heard.length) := by omega
        rw [hthrough.insert_below hold]
        refine ⟨?_, hle, ?_⟩
        · rw [handsOver, if_neg hseq]
          rfl
        · have hmaxs : max seq (since + (heard ++ [f]).length) = max seq (since + heard.length) := by omega
          rwa [hmaxs]
  rw [hanswer, hout]
  have hnext : Unbroken { r with active := true, queue := (r.queue.insert f).2 } since (heard ++ [f]) cut :=
    ⟨numbered_concat h.numbered hf, h.idle, hwindow⟩
  exact ⟨hnext, calm_onInserted hnext.gap _, deliveries_onInserted _ now _⟩

/-- A control message under the next number, which it does not use up: a heartbeat, or one that is dropped. -/
theorem Unbroken.control (h : r.Unbroken since heard cut) (now : Instant) {f : Frame} (hcontrol : f.isControl = true)
    (hf : f.seq = since + heard.length) :
    (r.onFrame now f).receiver.Unbroken since heard cut ∧ (r.onFrame now f).Calm ∧ (r.onFrame now f).deliveries = [] := by
  have hraise : r.queue.raiseBound f.seq = (none, r.queue) := by
    cases cut with
    | none => exact Arrivals.Gathering.raiseBound h.window f.seq
    | some seq =>
      obtain ⟨-, hthrough⟩ := h.window
      exact hthrough.raiseBound (by omega)
  rcases r.onFrame_cases now f with ⟨hdata, -⟩ | ⟨-, stamp, hanswer⟩ | ⟨-, text, hanswer⟩
  · rw [hcontrol] at hdata
    cases hdata
  · rw [hanswer, hraise]
    have hsame : Unbroken { r with active := true, lastHeartbeat := some stamp } since heard cut :=
      ⟨h.numbered, h.idle, h.window⟩
    exact ⟨hsame, calm_settleGap hsame.gap, deliveries_settleGap _ now none⟩
  · rw [hanswer]
    refine ⟨⟨h.numbered, h.idle, h.window⟩, ⟨h.gap, ?_, ?_⟩, rfl⟩
    · intro dest g hg
      simp at hg
    · rintro gap ⟨⟩

/-- The end of the snapshot. -/
theorem Unbroken.endOfSnapshot (h : r.Unbroken since heard none) (now : Instant) {seq : Nat} (hle : since ≤ seq) :
    (r.onEndOfSnapshot now seq).receiver.Unbroken since heard (some seq) ∧ (r.onEndOfSnapshot now seq).Calm ∧
      (r.onEndOfSnapshot now seq).deliveries = .endOfSnapshot seq :: (heard.filter (seq ≤ ·.seq)).map .message := by
  obtain ⟨hout, hthrough⟩ := Arrivals.Gathering.stopQueuing h.window h.numbered hle
  have hanswer : r.onEndOfSnapshot now seq =
      (onInserted { r with snapshotSeq := some seq, queue := (r.queue.stopQueuing seq).2 } now
        ⟨heard.filter (seq ≤ ·.seq), none⟩).after [.deliver (.endOfSnapshot seq)] := by
    rw [← hout]
    rfl
  rw [hanswer]
  have hnext : Unbroken { r with snapshotSeq := some seq, queue := (r.queue.stopQueuing seq).2 } since heard (some seq) :=
    ⟨h.numbered, h.idle, hle, hthrough⟩
  refine ⟨hnext, (calm_onInserted hnext.gap _).after ?_, ?_⟩
  · intro dest f hf
    simp at hf
  · rw [deliveries_after, deliveries_onInserted]
    rfl

/-- The calls that leave the window alone. The timer that asks for a gap has nothing to ask for. -/
theorem Unbroken.aside (h : r.Unbroken since heard cut) (now : Instant) (call : Call) (hc : call.Aside) :
    (r.onCall now call).receiver.Unbroken since heard cut ∧ (r.onCall now call).Calm := by
  cases call with
  | snapshotFrame f =>
    refine ⟨⟨h.numbered, h.idle, h.window⟩, h.gap, ?_, by rintro gap ⟨⟩⟩
    intro dest g hg
    simp [onCall, onSnapshotFrame] at hg
  | requestTimer =>
    have hanswer : r.onCall now .requestTimer = quiet { r with requestAt := none } := by
      show r.onRequestTimer now = _
      unfold onRequestTimer
      dsimp only
      rw [if_pos h.gap]
    rw [hanswer]
    exact ⟨⟨h.numbered, rfl, h.window⟩, h.gap, by rintro dest f ⟨⟩, by rintro gap ⟨⟩⟩
  | livenessTick =>
    show r.onLivenessTick.receiver.Unbroken since heard cut ∧ r.onLivenessTick.Calm
    unfold onLivenessTick
    split
    · exact ⟨⟨h.numbered, h.idle, h.window⟩, h.gap, by rintro dest f ⟨⟩, by rintro gap ⟨⟩⟩
    split
    · exact ⟨⟨h.numbered, h.idle, h.window⟩, h.gap, by rintro dest f ⟨⟩, by rintro gap ⟨⟩⟩
    · exact ⟨⟨h.numbered, h.idle, h.window⟩, h.gap, by rintro dest f ⟨⟩, by rintro gap ⟨⟩⟩
  | endOfSnapshot seq => exact hc.elim
  | frame f => exact hc.elim

/-! ### What is handed over -/

/-- The end of the snapshot, and what was heard from there on. -/
def ending (heard : List Frame) : Option Nat → List Delivery
  | none => []
  | some seq => .endOfSnapshot seq :: (heard.filter (seq ≤ ·.seq)).map .message

theorem ending_concat (heard : List Frame) (cut : Option Nat) (f : Frame) :
    ending (heard ++ [f]) cut = ending heard cut ++ (handsOver cut f).map .message := by
  cases cut with
  | none => rfl
  | some seq => by_cases hseq : seq ≤ f.seq <;> simp [ending, handsOver, hseq]

/-- The deliveries of a connection that has heard this, and whose snapshot has ended at `cut` or goes on. -/
structure Told (since : Nat) (heard : List Frame) (cut : Option Nat) (ds : List Delivery) : Prop where
  numbered : heard.map (·.seq) = List.range' since heard.length
  since_le : ∀ seq, cut = some seq → since ≤ seq
  handed : ∃ snaps : List Frame, ds = snaps.map .snapshot ++ ending heard cut

theorem told_nil (since : Nat) : Told since [] none [] := ⟨rfl, by rintro seq ⟨⟩, [], rfl⟩

theorem Unbroken.told (h : r.Unbroken since heard cut) {ds : List Delivery} (snaps : List Frame)
    (hds : ds = snaps.map .snapshot ++ ending heard cut) : Told since heard cut ds where
  numbered := h.numbered
  since_le := by
    rintro seq rfl
    exact h.window.1
  handed := ⟨snaps, hds⟩

/-- The calls on a receiver that has `heard` what it should, each with what it has heard then. -/
inductive Comes (since : Nat) (heard : List Frame) (cut : Option Nat) : Call → List Frame → Prop
  | data {f : Frame} : f.isControl = false → f.seq = since + heard.length → f.seq < Arrivals.maxSeq →
    Comes since heard cut (.frame f) (heard ++ [f])
  | control {f : Frame} : f.isControl = true → f.seq = since + heard.length → Comes since heard cut (.frame f) heard
  | snapshotFrame (f : Frame) : cut = none → Comes since heard cut (.snapshotFrame f) heard
  | endOfSnapshot {seq : Nat} : cut = none → since ≤ seq → Comes since heard cut (.endOfSnapshot seq) heard
  | requestTimer : Comes since heard cut .requestTimer heard
  | livenessTick : Comes since heard cut .livenessTick heard

/-- Each call leaves the stream unbroken, and what has been handed over is what was heard from the end of the snapshot on. -/
theorem Unbroken.onCall (h : r.Unbroken since heard cut) (now : Instant) {call : Call} {heard' : List Frame}
    (hcall : Comes since heard cut call heard') :
    (r.onCall now call).Calm ∧ ∃ cut', (r.onCall now call).receiver.Unbroken since heard' cut' ∧
      ∀ ds, Told since heard cut ds → Told since heard' cut' (ds ++ (r.onCall now call).deliveries) := by
  have haside {call : Call} (hc : call.Aside) (hnone : (r.onCall now call).deliveries = []) :
      (r.onCall now call).Calm ∧ ∃ cut', (r.onCall now call).receiver.Unbroken since heard cut' ∧
        ∀ ds, Told since heard cut ds → Told since heard cut' (ds ++ (r.onCall now call).deliveries) := by
    obtain ⟨hnext, hcalm⟩ := h.aside now call hc
    refine ⟨hcalm, cut, hnext, fun ds hds => ?_⟩
    rwa [hnone, List.append_nil]
  cases hcall with
  | @data f hdata hseq hmax =>
    obtain ⟨hnext, hcalm, hout⟩ := h.data now hdata hseq hmax
    refine ⟨hcalm, cut, hnext, ?_⟩
    rintro ds ⟨-, -, snaps, rfl⟩
    refine hnext.told snaps ?_
    rw [show (r.onCall now (.frame f)).deliveries = _ from hout, ending_concat, List.append_assoc]
  | @control f hcontrol hseq =>
    obtain ⟨hnext, hcalm, hout⟩ := h.control now hcontrol hseq
    refine ⟨hcalm, cut, hnext, fun ds hds => ?_⟩
    rwa [show (r.onCall now (.frame f)).deliveries = [] from hout, List.append_nil]
  | snapshotFrame f hcut =>
    subst hcut
    obtain ⟨hnext, hcalm⟩ := h.aside now (.snapshotFrame f) trivial
    refine ⟨hcalm, none, hnext, ?_⟩
    rintro ds ⟨-, -, snaps, rfl⟩
    refine hnext.told (snaps ++ [f]) ?_
    simp [ending, Receiver.onCall, onSnapshotFrame, Answer.deliveries, Output.delivery?]
  | @endOfSnapshot seq hcut hle =>
    subst hcut
    obtain ⟨hnext, hcalm, hout⟩ := h.endOfSnapshot now hle
    refine ⟨hcalm, some seq, hnext, ?_⟩
    rintro ds ⟨-, -, snaps, rfl⟩
    refine hnext.told snaps ?_
    rw [show (r.onCall now (.endOfSnapshot seq)).deliveries = _ from hout]
    simp [ending]
  | requestTimer => exact haside trivial (deliveries_requestTimer r now)
  | livenessTick => exact haside trivial (deliveries_livenessTick r)

/-- Behind the end of the snapshot come the messages from there up to the last one that was heard. -/
theorem Told.messages {ds : List Delivery} (h : Told since heard cut ds) {seq : Nat} (hseq : .endOfSnapshot seq ∈ ds) :
    ∃ snaps : List Frame, ds = snaps.map .snapshot ++ .endOfSnapshot seq :: (heard.filter (seq ≤ ·.seq)).map .message ∧
      (heard.filter (seq ≤ ·.seq)).map (·.seq) = List.range' seq (since + heard.length - seq) ∧ since ≤ seq := by
  obtain ⟨snaps, rfl⟩ := h.handed
  have hcut : cut = some seq := by
    cases cut with
    | none => simp [ending] at hseq
    | some seq' => simpa [ending, eq_comm] using hseq
  subst hcut
  have hle := h.since_le seq rfl
  exact ⟨snaps, rfl, numbered_filter h.numbered hle, hle⟩

end Receiver

end ReliableMulticast
