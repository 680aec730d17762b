import ReliableMulticast.Proofs.Publisher.Transmitter

/-!
# What a transmitter can repeat

The frames that a transmitter keeps are the end of its log. It keeps all that its settings allow (`Keeps`), so what it has
let go of lies more than a whole queue behind its head (`Keeps.tail_le`). A request for numbers from its tail on is answered
with the piece of the log that carries them (`Faithful.onResend_eq`, `Faithful.map_seq_slice`).
-/

namespace ReliableMulticast.Transmission

/-- The frames of the log with `count` numbers from `seq` on, as far as there are any. -/
def slice (x : Transmission) (seq count : Nat) : List Frame := (x.log.drop (seq - 1)).take count

/-! ### What is kept -/

/-- All that a step can do to the frames that are kept. -/
theorem queue_step (x : Transmission) (now : Instant) (e : Transmitter.Event) :
    ((x.step now e).transmitter.queue = x.transmitter.queue ∧ (x.step now e).log = x.log) ∨
      ((x.step now e).transmitter.queue = x.transmitter.queue.trim x.transmitter.settings.maxQueue ∧
        (x.step now e).log = x.log) ∨
      ∃ f, (x.step now e).transmitter.queue = x.transmitter.queue.push f ∧
        (x.step now e).log = x.log ++ [x.transmitter.queue.stamp f] := by
  cases e with
  | task task =>
    cases task with
    | send f =>
      rcases x.transmitter.onSend_cases now f with ⟨o, hs⟩ | hs
      · refine Or.inr (Or.inr ⟨x.transmitter.stampOffset now f, ?_, ?_⟩)
        · simp [step, Transmitter.onEvent, Transmitter.onTask, hs]
        · simp [step, Transmitter.numbered, hs]
      · refine Or.inl ⟨?_, ?_⟩
        · simp [step, Transmitter.onEvent, Transmitter.onTask, hs]
        · simp [step, Transmitter.numbered, hs]
    | _ => exact Or.inl ⟨rfl, List.append_nil _⟩
  | trimTick => exact Or.inr (Or.inl ⟨rfl, List.append_nil _⟩)
  | heartbeatTick stamp =>
    refine Or.inl ⟨?_, List.append_nil _⟩
    rcases x.transmitter.onHeartbeatTick_cases now stamp with ⟨o, ho⟩ | ho <;> simp [step, Transmitter.onEvent, ho]

theorem settings_step (x : Transmission) (now : Instant) (e : Transmitter.Event) :
    (x.step now e).transmitter.settings = x.transmitter.settings := by
  cases e with
  | task task =>
    cases task with
    | send f =>
      rcases x.transmitter.onSend_cases now f with ⟨o, hs⟩ | hs <;>
        simp [step, Transmitter.onEvent, Transmitter.onTask, hs]
    | _ => rfl
  | trimTick => rfl
  | heartbeatTick stamp =>
    rcases x.transmitter.onHeartbeatTick_cases now stamp with ⟨o, ho⟩ | ho <;> simp [step, Transmitter.onEvent, ho]

def Keeps (x : Transmission) : Prop :=
  min x.log.length x.transmitter.settings.maxQueue ≤ x.transmitter.queue.length

theorem keeps_begin (settings : Settings) (now : Instant) : (begin settings now).Keeps := Nat.min_le_left _ _

theorem Keeps.step {x : Transmission} (h : x.Keeps) (now : Instant) (e : Transmitter.Event) : (x.step now e).Keeps := by
  unfold Keeps at h ⊢
  rw [settings_step]
  rcases x.queue_step now e with ⟨hq, hlog⟩ | ⟨hq, hlog⟩ | ⟨f, hq, hlog⟩ <;> rw [hq, hlog]
  · exact h
  · have hlength : (x.transmitter.queue.trim x.transmitter.settings.maxQueue).length =
        min x.transmitter.settings.maxQueue x.transmitter.queue.length := List.length_take
    omega
  · rw [Retained.length_push, List.length_append, List.length_singleton]
    omega

section Faithful

variable {x : Transmission}

theorem Faithful.length_le (h : x.Faithful) : x.transmitter.queue.length ≤ x.log.length := by
  have hle := h.kept.length_le
  rwa [List.length_reverse] at hle

/-- What a transmitter has let go of lies behind its head by more than a whole queue. -/
theorem Keeps.tail_le (h : x.Keeps) (hf : x.Faithful) :
    x.transmitter.queue.tail ≤ max 1 (x.head - x.transmitter.settings.maxQueue) := by
  have hhead := hf.head
  have htail : x.transmitter.queue.tail = x.head - x.transmitter.queue.length := rfl
  unfold Keeps at h
  omega

/-! ### What is repeated -/

theorem Faithful.range_eq (h : x.Faithful) {seq : Nat} (hseq : x.transmitter.queue.tail ≤ seq) (count : Nat) :
    x.transmitter.queue.range seq count = x.slice seq count := by
  have hlength := h.length_le
  have hhead : x.transmitter.queue.head = x.log.length + 1 := h.head
  have htail : x.transmitter.queue.tail = x.log.length + 1 - x.transmitter.queue.length := by
    rw [Retained.tail, hhead]
  have hframes : x.transmitter.queue.frames = x.log.drop (x.log.length - x.transmitter.queue.length) := by
    have hsuffix : x.transmitter.queue.frames <:+ x.log := by
      have := List.reverse_suffix.2 h.kept
      rwa [List.reverse_reverse] at this
    rw [List.suffix_iff_eq_drop.1 hsuffix, Retained.frames, List.length_reverse]
    rfl
  unfold Retained.range slice
  dsimp only
  rw [hframes, List.drop_drop, Nat.max_eq_left hseq,
    show x.log.length - x.transmitter.queue.length + (seq - x.transmitter.queue.tail) = seq - 1 by omega,
    List.take_eq_take_iff, List.length_drop]
  omega

/-- The numbers of a piece of the log, as long as there are numbers left. -/
theorem Faithful.map_seq_slice (h : x.Faithful) (hb : x.log.length < 2 ^ 64) {seq count : Nat} (hseq : 1 ≤ seq)
    (hstop : seq + count ≤ x.head) : (x.slice seq count).map (·.seq) = List.range' seq count := by
  have hhead := h.head
  refine List.ext_getElem? (fun i => ?_)
  rw [List.getElem?_map, slice, List.getElem?_take]
  split
  · next hi =>
    rw [List.getElem?_drop, List.getElem?_range' hi]
    have hlt : seq - 1 + i < x.log.length := by omega
    have hnumber := h.seq_of_getElem? hb (List.getElem?_eq_getElem hlt)
    rw [List.getElem?_eq_getElem hlt, Option.map_some, hnumber]
    congr 1
    omega
  · next hi => rw [Option.map_none, List.getElem?_eq_none (by rw [List.length_range']; omega)]

/-- A request that is within the limits is answered with a piece of the log. -/
theorem Faithful.onResend_eq (h : x.Faithful) {o : Outlets} (ho : x.transmitter.outlets = some o) {seq count : Nat}
    (hpos : 0 < count) (hmax : count ≤ x.transmitter.settings.maxGap) (htail : x.transmitter.queue.tail ≤ seq)
    (hlt : seq < x.head) (dest : Endpoint) :
    x.transmitter.onResend seq count dest = (x.slice seq count).map (⟨o.resend, dest, ·⟩) := by
  have hcount : ¬ (count = 0 ∨ x.transmitter.settings.maxGap < count) := by omega
  have hwindow : ¬ (seq < x.transmitter.queue.tail ∨ x.transmitter.queue.head ≤ seq) := by
    have hhead : x.transmitter.queue.head = x.head := rfl
    omega
  unfold Transmitter.onResend
  rw [ho]
  simp only [if_neg hcount, if_neg hwindow, h.range_eq htail]

end Faithful

end ReliableMulticast.Transmission
