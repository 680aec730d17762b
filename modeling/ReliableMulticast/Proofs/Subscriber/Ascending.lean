import ReliableMulticast.Proofs.Subscriber.Link

/-!
# Numbers that only grow

Over its life a link hands over the messages of many connections. `Follows` is what keeps their numbers in order, given
the head of the transmitter on the other side and `cuts`, the numbers with which the snapshots of the connections may end:

* no message that was handed over carries a number from `next` on, and `next` does not lie beyond the head;
* a connection whose snapshot has not ended yet can not end it before `next`;
* a connection whose snapshot has ended goes on at `next`.

Main statement (`Follows.onTask`): a task that brings nothing but frames from below the head and ends of snapshots at the
`cuts` keeps this, and what it hands over is in order with all that was handed over before (`Ascends`).
-/

namespace ReliableMulticast

/-! ### Deliveries in order -/

namespace Delivery

/-- The delivery is done with numbers below `next` only. Frames of a snapshot have no numbers. -/
def Below : Delivery → Nat → Prop
  | message f, next => f.seq < next
  | endOfSnapshot seq, next => seq ≤ next
  | snapshot _, _ => True

/-- The order of an earlier delivery and a later one. -/
def Before (d : Delivery) : Delivery → Prop
  | message f => d.Below f.seq
  | endOfSnapshot seq => d.Below seq
  | snapshot _ => True

theorem Below.mono {d : Delivery} {n m : Nat} (h : d.Below n) (hle : n ≤ m) : d.Below m := by
  cases d with
  | snapshot f => trivial
  | endOfSnapshot seq => exact Nat.le_trans h hle
  | message f => exact Nat.lt_of_lt_of_le h hle

def message? : Delivery → Option Frame
  | message f => some f
  | _ => none

def end? : Delivery → Option Nat
  | endOfSnapshot seq => some seq
  | _ => none

theorem eq_message {d : Delivery} {f : Frame} (h : d.message? = some f) : d = message f := by
  cases d <;> simp_all [message?]

theorem eq_endOfSnapshot {d : Delivery} {seq : Nat} (h : d.end? = some seq) : d = endOfSnapshot seq := by
  cases d <;> simp_all [end?]

end Delivery

/-- Deliveries in order, with numbers below `next`. -/
structure Ascends (ds : List Delivery) (next : Nat) : Prop where
  sorted : ds.Pairwise Delivery.Before
  below : ∀ d ∈ ds, d.Below next

namespace Ascends

variable {ds : List Delivery} {next : Nat}

theorem snoc (h : Ascends ds next) {d : Delivery} {next' : Nat} (hd : ∀ d' ∈ ds, d'.Before d) (hle : next ≤ next')
    (hbelow : d.Below next') : Ascends (ds ++ [d]) next' where
  sorted := by
    refine List.pairwise_append.2 ⟨h.sorted, List.pairwise_singleton _ _, fun d' hd' e he => ?_⟩
    rw [List.mem_singleton.1 he]
    exact hd d' hd'
  below := by
    intro e he
    rcases List.mem_append.1 he with he | he
    · exact (h.below e he).mono hle
    · rw [List.mem_singleton.1 he]
      exact hbelow

theorem append_snapshot (h : Ascends ds next) (f : Frame) : Ascends (ds ++ [.snapshot f]) next :=
  h.snoc (fun _ _ => trivial) (Nat.le_refl next) trivial

theorem append_endOfSnapshot (h : Ascends ds next) {seq : Nat} (hle : next ≤ seq) :
    Ascends (ds ++ [.endOfSnapshot seq]) seq :=
  h.snoc (fun d hd => (h.below d hd).mono hle) hle (Nat.le_refl seq)

theorem append_messages (h : Ascends ds next) {ms : List Frame}
    (hn : ms.map (·.seq) = List.range' next ms.length) : Ascends (ds ++ ms.map .message) (next + ms.length) := by
  induction ms generalizing ds next with
  | nil => simpa using h
  | cons f rest ih =>
    rw [List.map_cons, List.length_cons, List.range'_succ, List.cons.injEq] at hn
    obtain ⟨hf, hrest⟩ := hn
    have hone : Ascends (ds ++ [.message f]) (next + 1) := by
      refine h.snoc (fun d hd => ?_) (Nat.le_succ next) ?_
      · show d.Below f.seq
        rw [hf]
        exact h.below d hd
      · show f.seq < next + 1
        omega
    have := ih hone hrest
    rw [List.append_assoc] at this
    rwa [List.map_cons, List.length_cons, Nat.add_comm rest.length 1, ← Nat.add_assoc]

/-! What this says about the messages and the ends of snapshots alone. -/

theorem messages (h : Ascends ds next) : (ds.filterMap Delivery.message?).Pairwise (·.seq < ·.seq) := by
  refine h.sorted.filterMap _ (fun d d' hbefore f hf g hg => ?_)
  obtain rfl := Delivery.eq_message hf
  obtain rfl := Delivery.eq_message hg
  exact hbefore

theorem ends (h : Ascends ds next) : (ds.filterMap Delivery.end?).Pairwise (· ≤ ·) := by
  refine h.sorted.filterMap _ (fun d d' hbefore seq hseq seq' hseq' => ?_)
  obtain rfl := Delivery.eq_endOfSnapshot hseq
  obtain rfl := Delivery.eq_endOfSnapshot hseq'
  exact hbefore

theorem lt_end {before after : List Delivery} {seq : Nat} (h : Ascends (before ++ .endOfSnapshot seq :: after) next)
    {f : Frame} (hf : .message f ∈ before) : f.seq < seq := by
  obtain ⟨-, -, hcross⟩ := List.pairwise_append.1 h.sorted
  exact hcross _ hf _ List.mem_cons_self

end Ascends

/-- The number after the messages does not lie beyond a head that they lie below. -/
theorem next_le_of_numbered {seq head : Nat} {ms : List Frame} (hseq : seq ≤ head)
    (hn : ms.map (·.seq) = List.range' seq ms.length) (hms : ∀ f ∈ ms, f.seq < head) : seq + ms.length ≤ head := by
  rcases Nat.eq_zero_or_pos ms.length with hzero | hpos
  · omega
  · have hlast : seq + (ms.length - 1) ∈ ms.map (·.seq) := by
      rw [hn, List.mem_range'_1]
      omega
    obtain ⟨f, hf, hseq⟩ := List.mem_map.1 hlast
    have := hms f hf
    omega

namespace SubscriberLink

open Link (Machine)

def Effect.delivery? : Effect → Option Delivery
  | .deliver d => some d
  | _ => none

/-- What the application is handed, in order. -/
def deliveries (effects : List Effect) : List Delivery := effects.filterMap Effect.delivery?

theorem deliveries_append (effects effects' : List Effect) :
    deliveries (effects ++ effects') = deliveries effects ++ deliveries effects' :=
  List.filterMap_append

theorem Told.deliveries {s s' : Link.State} {effects : List Effect} (h : Told s effects s') :
    deliveries effects = [] := by
  refine List.filterMap_eq_nil_iff.2 (fun e he => ?_)
  have hquiet := h.quiet e he
  cases e <;> first | rfl | exact hquiet.elim

theorem deliveries_outputs (socket : SocketId) (outputs : List Receiver.Output) :
    deliveries (outputs.map (ofOutput socket)) = outputs.filterMap Receiver.Output.delivery? := by
  unfold deliveries
  rw [List.filterMap_map]
  congr 1
  funext o
  cases o <;> rfl

/-! ### One connection -/

variable {head : Nat} {cuts : Nat → Nat → Prop}

/-- A connection that goes on at `next`. -/
structure Connection.Continues (head : Nat) (cuts : Nat → Nat → Prop) (c : Connection) (next : Nat) : Prop where
  /-- The snapshot does not end before that. -/
  ahead : c.tcpState ≠ .disconnect → ∀ seq, cuts c.generation seq → next ≤ seq
  window : c.Window (·.seq < head) (·.head = next)

/-- What may come from the transmitter and its sessions. -/
structure Task.Lawful (head : Nat) (cuts : Nat → Nat → Prop) (task : Task) : Prop where
  frame : ∀ g f, task.Makes g (.frame f) → f.isControl = false → f.seq < head
  cut : ∀ g seq, task.Makes g (.endOfSnapshot seq) → cuts g seq

namespace Connection.Continues

variable {c : Connection} {next : Nat} {socket : SocketId} {r : Receiver}

theorem of_bare {c' : Connection} (h : c.Continues head cuts next) (hb : c'.bare = c.bare) :
    c'.Continues head cuts next := by
  obtain ⟨hgeneration, htcp, hreceiver⟩ := Connection.eq_of_bare hb
  refine ⟨?_, h.window.of_eq htcp hreceiver⟩
  rw [hgeneration, htcp]
  exact h.ahead

/-- A frame from the data socket. -/
theorem frame (h : c.Continues head cuts next) (hr : c.receiver = some (socket, r)) (hle : next ≤ head) (now : Instant)
    {f : Frame} (hf : f.isControl = false → f.seq < head) {ds : List Delivery} (hds : Ascends ds next) :
    ∃ next', Ascends (ds ++ (r.onCall now (.frame f)).deliveries) next' ∧ next' ≤ head ∧
      (c.after socket (.frame f) (r.onCall now (.frame f))).Continues head cuts next' := by
  obtain ⟨out, hout, hbelow, hadv, hwindow⟩ := h.window.frame hr now hf
  have hnumbered : out.map (·.seq) = List.range' next out.length := by
    rcases h.window.live socket r hr with hqueuing | ⟨-, hnext⟩
    · rw [hadv.patient hqueuing]
      rfl
    · rw [← hnext]
      exact hadv.numbered
  rw [hout]
  refine ⟨next + out.length, hds.append_messages hnumbered, next_le_of_numbered hle hnumbered hbelow, ?_, ?_⟩
  · intro hstate seq hcut
    -- before the end of the snapshot nothing is handed over
    rw [hadv.patient (h.window.queuing hr hstate)]
    exact h.ahead hstate seq hcut
  · exact hwindow _ (fun hnext => by rw [hadv.head, hnext])

/-- The end of the snapshot, from which on the connection goes on. -/
theorem endOfSnapshot (h : c.Continues head cuts next) (hr : c.receiver = some (socket, r))
    (hstate : c.tcpState = .receiving) (now : Instant) {seq : Nat} (hcut : cuts c.generation seq) (hseq : seq ≤ head)
    {ds : List Delivery} (hds : Ascends ds next) :
    ∃ next', Ascends (ds ++ (r.onCall now (.endOfSnapshot seq)).deliveries) next' ∧ next' ≤ head ∧
      (c.after socket (.endOfSnapshot seq) (r.onCall now (.endOfSnapshot seq))).Continues head cuts next' := by
  obtain ⟨out, hout, hbelow, hadv, hwindow⟩ := h.window.endOfSnapshot hr now seq
  have hnext : next ≤ seq := h.ahead (by simp [hstate]) seq hcut
  have hds' := (hds.append_endOfSnapshot hnext).append_messages hadv.numbered
  rw [List.append_assoc] at hds'
  rw [hout]
  refine ⟨seq + out.length, hds', next_le_of_numbered hseq hadv.numbered hbelow, ?_, hwindow _ hadv.head⟩
  intro hne
  exact absurd rfl hne

/-- A call that leaves the window and the TCP connection alone. -/
theorem aside (h : c.Continues head cuts next) (hr : c.receiver = some (socket, r)) (now : Instant)
    (call : Receiver.Call) (hc : call.Aside) : (c.after socket call (r.onCall now call)).Continues head cuts next := by
  refine ⟨?_, h.window.aside hr now call hc⟩
  cases call <;> first | exact h.ahead | exact hc.elim

end Connection.Continues

/-! ### Links -/

/-- A link that has handed over `handed` since it was new. -/
structure Follows (head : Nat) (cuts : Nat → Nat → Prop) (l : SubscriberLink) (handed : List Delivery) (next : Nat) :
    Prop where
  cut : ∀ g seq, cuts g seq → g ≤ l.generation ∧ seq ≤ head
  ascends : Ascends handed next
  le_head : next ≤ head
  continues : ∀ c, l.connection = some c → c.Continues head cuts next

namespace Follows

variable {l l' : SubscriberLink} {handed : List Delivery} {next : Nat}

/-- The head moves on, and sessions are told the head. -/
theorem mono (h : Follows head cuts l handed next) {head' : Nat} {cuts' : Nat → Nat → Prop} (hhead : head ≤ head')
    (hcuts : ∀ g seq, cuts' g seq → cuts g seq ∨ g ≤ l.generation ∧ head ≤ seq ∧ seq ≤ head') :
    Follows head' cuts' l handed next where
  cut := by
    intro g seq hcut
    rcases hcuts g seq hcut with hold | ⟨hg, -, hseq⟩
    · obtain ⟨hg, hseq⟩ := h.cut g seq hold
      exact ⟨hg, Nat.le_trans hseq hhead⟩
    · exact ⟨hg, hseq⟩
  ascends := h.ascends
  le_head := Nat.le_trans h.le_head hhead
  continues := by
    intro c hc
    have hold := h.continues c hc
    refine ⟨fun hstate seq hcut => ?_, hold.window.mono (fun f hf => Nat.lt_of_lt_of_le hf hhead)⟩
    rcases hcuts c.generation seq hcut with hcut | ⟨-, hseq, -⟩
    · exact hold.ahead hstate seq hcut
    · exact Nat.le_trans h.le_head hseq

theorem talk (h : Follows head cuts l handed next) (now : Instant) {task : Task} (ht : task.Lawful head cuts)
    {c : Connection} {socket : SocketId} {r : Receiver} {call : Receiver.Call} (hc : l.connection = some c)
    (hr : c.receiver = some (socket, r)) (hmakes : task.Makes c.generation call)
    (htcp : onTcp call = true → c.tcpState = .receiving) :
    ∃ next', Ascends (handed ++ (r.onCall now call).deliveries) next' ∧ next' ≤ head ∧
      (c.after socket call (r.onCall now call)).Continues head cuts next' := by
  have hold := h.continues c hc
  cases call with
  | frame f => exact hold.frame hr h.le_head now (ht.frame c.generation f hmakes) h.ascends
  | endOfSnapshot seq =>
    have hcut := ht.cut c.generation seq hmakes
    exact hold.endOfSnapshot hr (htcp rfl) now hcut (h.cut c.generation seq hcut).2 h.ascends
  | snapshotFrame f =>
    exact ⟨next, h.ascends.append_snapshot f, h.le_head, hold.aside hr now _ trivial⟩
  | requestTimer =>
    rw [show (r.onCall now .requestTimer).deliveries = [] from Receiver.deliveries_requestTimer r now, List.append_nil]
    exact ⟨next, h.ascends, h.le_head, hold.aside hr now _ trivial⟩
  | livenessTick =>
    rw [show (r.onCall now .livenessTick).deliveries = [] from Receiver.deliveries_livenessTick r, List.append_nil]
    exact ⟨next, h.ascends, h.le_head, hold.aside hr now _ trivial⟩

/-- A move that hands over nothing. -/
theorem still (h : Follows head cuts l handed next) {effects : List Effect} (hgeneration : l.generation ≤ l'.generation)
    (hnone : deliveries effects = []) (hc : ∀ c, l'.connection = some c → c.Continues head cuts next) :
    ∃ next', Follows head cuts l' (handed ++ deliveries effects) next' := by
  refine ⟨next, fun g seq hcut => ?_, ?_, h.le_head, hc⟩
  · obtain ⟨hg, hseq⟩ := h.cut g seq hcut
    exact ⟨Nat.le_trans hg hgeneration, hseq⟩
  · rw [hnone, List.append_nil]
    exact h.ascends

theorem move (h : Follows head cuts l handed next) {now : Instant} {task : Task} (ht : task.Lawful head cuts)
    {effects : List Effect} (hm : Move now task l effects l') :
    ∃ next', Follows head cuts l' (handed ++ deliveries effects) next' := by
  cases hm with
  | stay hgeneration hconnection htold =>
    refine h.still (Nat.le_of_eq hgeneration.symm) htold.deliveries (fun c' hc' => ?_)
    rw [hc'] at hconnection
    obtain ⟨c, hc, hb⟩ := Option.map_eq_some_iff.1 hconnection.symm
    exact (h.continues c hc).of_bare hb.symm
  | leave hgeneration hnone htold =>
    refine h.still (Nat.le_of_eq hgeneration.symm) htold.deliveries (fun c hc => ?_)
    rw [hnone] at hc
    cases hc
  | @start _ c _ dest hgeneration hc hcurrent hlogin hreceiver hstate heffects =>
    subst heffects
    refine h.still (by omega) rfl (fun c' hc' => ?_)
    rw [hc] at hc'
    obtain rfl := Option.some.inj hc'
    refine ⟨fun _ seq hcut => ?_, Connection.window_of_receiver_eq_none hreceiver _ _⟩
    -- no session has been told a number for a connection that is only being made
    have := (h.cut _ _ hcut).1
    omega
  | listen peer socket resendTo hc hgeneration hc' htold =>
    refine h.still (Nat.le_of_eq hgeneration.symm) htold.deliveries (fun c₁ hc₁ => ?_)
    rw [hc'] at hc₁
    obtain rfl := Option.some.inj hc₁
    exact ⟨(h.continues _ hc).ahead, .of_new l.settings resendTo rfl⟩
  | acknowledge hc hlogin hgeneration hc' hstate =>
    refine h.still (Nat.le_of_eq hgeneration.symm) rfl (fun c₁ hc₁ => ?_)
    rw [hc'] at hc₁
    obtain rfl := Option.some.inj hc₁
    have hold := h.continues _ hc
    exact ⟨fun _ => hold.ahead (by simp [hlogin]), hold.window.of_queuing (by simp [hlogin]) rfl⟩
  | @talk _ c socket r call hc hr hmakes htcp hup hgeneration hc' hstate =>
    obtain ⟨next', hascends, hle, hcontinues⟩ := h.talk now ht hc hr hmakes htcp
    have hclosing : deliveries (if closes call then [.closeTcp c.generation] else []) = [] := by
      split <;> rfl
    rw [deliveries_append, deliveries_outputs, hclosing, List.append_nil]
    refine ⟨next', fun g seq hcut => ?_, hascends, hle, fun c₁ hc₁ => ?_⟩
    · rw [hgeneration]
      exact h.cut g seq hcut
    · rw [hc'] at hc₁
      obtain rfl := Option.some.inj hc₁
      exact hcontinues

theorem moves (h : Follows head cuts l handed next) {now : Instant} {task : Task} (ht : task.Lawful head cuts)
    {effects : List Effect} (hm : Moves now task l effects l') :
    ∃ next', Follows head cuts l' (handed ++ deliveries effects) next' := by
  induction hm generalizing handed next with
  | refl l => exact ⟨next, by simpa [deliveries] using h⟩
  | step first rest ih =>
    obtain ⟨next₁, h₁⟩ := h.move ht first
    rw [deliveries_append, ← List.append_assoc]
    exact ih h₁

/-- A whole task. -/
theorem onTask (h : Follows head cuts l handed next) (hl : l.Consistent) (env : Surroundings) {task : Task}
    (ht : task.Lawful head cuts) :
    ∃ next', Follows head cuts (l.onTask env task).1 (handed ++ deliveries (l.onTask env task).2) next' :=
  h.moves ht (settles_onTask hl env task).moves

end Follows

end SubscriberLink

end ReliableMulticast
