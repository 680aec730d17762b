import ReliableMulticast.Proofs.Sequence.Arrivals

/-!
# The gap of a live window

A window `Has` a number if the number lies below the head or if its frame is held back. The head of a window in order is
the least number that it does not have (`not_has_head`, `le_head_of_has`), and the gap reaches from there to the `edge`: to
the next number that the window has, or to the bound.

A live window that takes a frame has its number afterwards and otherwise those that it had (`has_insert`). So while the
frames of a gap come in, what is missing still ends where the gap ended (`Ends`), whatever comes first.
-/

namespace ReliableMulticast

namespace Gap

theorem count_between_le (start stop : Nat) : (between start stop).count ≤ stop - start := by
  unfold between
  split
  · exact Nat.zero_le _
  · exact Nat.min_le_left _ _

theorem start_add_count_le (start stop : Nat) : (between start stop).start + (between start stop).count ≤ stop := by
  unfold between
  split
  · exact Nat.zero_le _
  · show start + min (stop - start) maxCount ≤ stop
    omega

/-- A gap is cut only at the largest count. -/
theorem ends_between {start stop : Nat} (hfits : stop < UInt64.size) (h : (between start stop).isEmpty = false)
    (hcount : (between start stop).count < maxCount) :
    (between start stop).start = start ∧ (between start stop).stop = stop := by
  rw [isEmpty_between] at h
  have hlt : ¬ stop ≤ start := of_decide_eq_false h
  unfold between at hcount ⊢
  rw [if_neg hlt] at hcount ⊢
  have hcut : min (stop - start) maxCount < maxCount := hcount
  have hall : start + min (stop - start) maxCount = stop := by omega
  refine ⟨rfl, ?_⟩
  show word (start + min (stop - start) maxCount) = stop
  rw [hall]
  exact word_of_lt hfits

theorem count_of_isEmpty {g : Gap} (h : g.isEmpty = true) : g.count = 0 := by
  simpa [isEmpty] using h

end Gap

namespace Arrivals

def Has (a : Arrivals) (n : Nat) : Prop := n < a.head ∨ n ∈ a.pending.map (·.seq)

/-- The number at which the missing ones end. -/
def edge (a : Arrivals) : Nat :=
  match a.pending with
  | first :: _ => first.seq
  | [] => a.bound

theorem seq_first_le {first : Frame} {rest : List Frame} (hs : (first :: rest).Pairwise (·.seq < ·.seq)) :
    ∀ f ∈ first :: rest, first.seq ≤ f.seq := by
  intro f hf
  rcases List.mem_cons.1 hf with rfl | hf
  · exact Nat.le_refl _
  · exact Nat.le_of_lt ((List.pairwise_cons.1 hs).1 f hf)

section Window

variable {a : Arrivals}

theorem gap_of_live (hl : a.queuing = false) : a.gap = Gap.between a.head a.edge := by
  unfold gap edge
  rw [hl]
  cases a.pending <;> rfl

theorem live_of_gap (h : a.gap.isEmpty = false) : a.queuing = false := by
  cases hq : a.queuing with
  | false => rfl
  | true => simp [gap, hq, Gap.none, Gap.isEmpty] at h

theorem length_of_live (hl : a.queuing = false) : a.length = a.bound - a.head := by
  simp [length, hl]

theorem has_edge (a : Arrivals) : a.Has a.edge ∨ a.edge = a.bound := by
  unfold Has edge
  cases a.pending with
  | nil => exact Or.inr rfl
  | cons first rest => exact Or.inl (Or.inr (by simp))

theorem edge_le_bound (hknown : ∀ f ∈ a.pending, f.seq < a.bound) : a.edge ≤ a.bound := by
  unfold edge
  cases hp : a.pending with
  | nil => exact Nat.le_refl _
  | cons first rest => exact Nat.le_of_lt (hknown first (by simp [hp]))

/-- Where the bound is a word, so is the end of the gap. -/
theorem stop_gap (hknown : ∀ f ∈ a.pending, f.seq < a.bound) (hfits : a.bound ≤ maxSeq) :
    a.gap.stop = a.gap.start + a.gap.count := by
  have hle : a.gap.start + a.gap.count ≤ a.bound := by
    cases hq : a.queuing with
    | true => simp [gap, hq, Gap.none]
    | false =>
      rw [gap_of_live hq]
      exact Nat.le_trans (Gap.start_add_count_le _ _) (edge_le_bound hknown)
  exact word_of_lt (Nat.lt_succ_of_le (Nat.le_trans hle hfits))

theorem edge_le_of_has (h : a.Ordered) {n : Nat} (hn : a.Has n) (hle : a.head ≤ n) : a.edge ≤ n := by
  have hsorted := h.sorted
  rcases hn with hlt | hmem
  · omega
  · obtain ⟨f, hf, rfl⟩ := List.mem_map.1 hmem
    unfold edge
    cases hp : a.pending with
    | nil =>
      rw [hp] at hf
      cases hf
    | cons first rest =>
      rw [hp] at hf hsorted
      exact seq_first_le hsorted f hf

theorem not_has_head (h : a.Ordered) (hl : a.queuing = false) : ¬ a.Has a.head := by
  rintro (hlt | hmem)
  · omega
  · obtain ⟨f, hf, hseq⟩ := List.mem_map.1 hmem
    have := h.ahead hl f hf
    omega

theorem le_head_of_has (h : a.Ordered) (hl : a.queuing = false) {n : Nat} (hn : ∀ k < n, a.Has k) : n ≤ a.head := by
  by_contra hlt
  exact not_has_head h hl (hn a.head (by omega))

/-! ### Taking frames -/

theorem mem_map_seq_place (f : Frame) (l : List Frame) (n : Nat) :
    n ∈ (place f l).map (·.seq) ↔ n = f.seq ∨ n ∈ l.map (·.seq) := by
  induction l with
  | nil => simp [place]
  | cons g rest ih =>
    simp only [place]
    split
    · simp
    split
    · next heq => simp [heq]
    · rw [List.map_cons, List.mem_cons, ih, List.map_cons, List.mem_cons, or_left_comm]

/-- Where the head goes, numbers are handed over, but none is lost. -/
theorem has_deliver (a : Arrivals) (n : Nat) : a.deliver.2.Has n ↔ a.Has n := by
  have hnumbers : n ∈ (run a.head a.pending).1.map (·.seq) ↔
      a.head ≤ n ∧ n < a.head + (run a.head a.pending).1.length := by
    rw [run_numbered, List.mem_range'_1]
  have hpending : n ∈ a.pending.map (·.seq) ↔
      n ∈ (run a.head a.pending).1.map (·.seq) ∨ n ∈ (run a.head a.pending).2.map (·.seq) := by
    rw [← List.mem_append, ← List.map_append, run_append]
  show n < a.head + (run a.head a.pending).1.length ∨ n ∈ (run a.head a.pending).2.map (·.seq) ↔
    n < a.head ∨ n ∈ a.pending.map (·.seq)
  rw [hpending, hnumbers]
  constructor
  · rintro (hlt | hheld)
    · rcases Nat.lt_or_ge n a.head with hbelow | hfrom
      · exact Or.inl hbelow
      · exact Or.inr (Or.inl ⟨hfrom, hlt⟩)
    · exact Or.inr (Or.inr hheld)
  · rintro (hbelow | ⟨-, hlt⟩ | hheld)
    · exact Or.inl (by omega)
    · exact Or.inl hlt
    · exact Or.inr hheld

theorem holds_iff (a : Arrivals) (n : Nat) : a.holds n = true ↔ n ∈ a.pending.map (·.seq) := by
  simp only [holds, List.any_eq_true, beq_iff_eq, List.mem_map]

/-- A live window drops a frame that it has, and takes any other. -/
theorem insert_cases (hl : a.queuing = false) (f : Frame) :
    (a.Has f.seq ∧ a.insert f = (.nothing, a)) ∨
      (¬ a.Has f.seq ∧ ∃ raised : Arrivals,
        raised = { a with bound := max a.bound (boundAfter f.seq), pending := place f a.pending } ∧
          a.insert f = (⟨raised.deliver.1, GapChange.of a.gap raised.deliver.2.gap⟩, raised.deliver.2)) := by
  have hhas : (decide (f.seq < a.head) || a.holds f.seq) = true ↔ a.Has f.seq := by
    rw [Bool.or_eq_true, decide_eq_true_iff, holds_iff]
    rfl
  unfold insert
  simp only [hl, Bool.false_eq_true, if_false]
  split
  · next h => exact Or.inl ⟨hhas.1 h, rfl⟩
  · next h => exact Or.inr ⟨fun hn => h (hhas.2 hn), _, rfl, rfl⟩

theorem has_insert (hl : a.queuing = false) (f : Frame) (n : Nat) :
    (a.insert f).2.Has n ↔ n = f.seq ∨ a.Has n := by
  rcases insert_cases hl f with ⟨hhas, hi⟩ | ⟨-, raised, rfl, hi⟩
  · rw [hi]
    constructor
    · exact Or.inr
    · rintro (rfl | hn)
      · exact hhas
      · exact hn
  · rw [hi, has_deliver]
    unfold Has
    rw [mem_map_seq_place, or_left_comm]

/-- A frame from below the bound leaves the bound where it is. -/
theorem bound_insert (hl : a.queuing = false) {f : Frame} (hf : f.seq < a.bound) : (a.insert f).2.bound = a.bound := by
  rcases insert_cases hl f with ⟨-, hi⟩ | ⟨-, raised, rfl, hi⟩
  · rw [hi]
  · rw [hi]
    show max a.bound (boundAfter f.seq) = a.bound
    unfold boundAfter
    omega

end Window

theorem seq_le_maxSeq (f : Frame) : f.seq ≤ maxSeq := Nat.le_of_lt_succ (UInt64.toNat_lt f.header.seq)

theorem bound_insert_le (a : Arrivals) (f : Frame) : (a.insert f).2.bound ≤ max a.bound maxSeq := by
  have hle : max a.bound (boundAfter f.seq) ≤ max a.bound maxSeq := by
    unfold boundAfter
    omega
  unfold insert
  split
  · exact hle
  split
  · exact Nat.le_max_left _ _
  · exact hle

theorem bound_raiseBound_le (a : Arrivals) (f : Frame) : (a.raiseBound f.seq).2.bound ≤ max a.bound maxSeq := by
  have hseq := seq_le_maxSeq f
  unfold raiseBound
  split
  · exact Nat.le_max_left _ _
  · show max a.bound f.seq ≤ _
    omega

/-! ### Changes of the gap -/

/-- The change that is noted is that of the gap, also where there is none. -/
theorem gapChange_insert (a : Arrivals) (f : Frame) :
    (a.insert f).1.gapChange = GapChange.of a.gap (a.insert f).2.gap := by
  unfold insert
  split
  · next hq => simp [gap, hq, Inserted.nothing, GapChange.of]
  split
  · simp [Inserted.nothing, GapChange.of]
  · rfl

theorem gapChange_raiseBound (a : Arrivals) (bound : Nat) :
    (a.raiseBound bound).1 = GapChange.of a.gap (a.raiseBound bound).2.gap := by
  unfold raiseBound
  split
  · simp [GapChange.of]
  · rfl

theorem gapChange_stopQueuing (a : Arrivals) (seq : Nat) :
    (a.stopQueuing seq).1.gapChange = GapChange.of Gap.none (a.stopQueuing seq).2.gap := rfl

/-! ### The end of a gap -/

/-- What a live window misses below `stop` is followed by a number that it has, or by nothing that it knows of. -/
structure Ends (a : Arrivals) (stop : Nat) : Prop where
  live : a.queuing = false
  ordered : a.Ordered
  known : ∀ n, a.Has n → n < a.bound
  le_bound : stop ≤ a.bound
  follows : a.Has stop ∨ a.bound = stop

section Ends

variable {a : Arrivals} {stop : Nat}

theorem Ends.edge_le (h : a.Ends stop) (hlt : a.head < stop) : a.edge ≤ stop := by
  rcases h.follows with hhas | hbound
  · exact edge_le_of_has h.ordered hhas (Nat.le_of_lt hlt)
  · rcases a.has_edge with hedge | hedge
    · have := h.known _ hedge
      omega
    · omega

theorem ends_gap (ho : a.Ordered) (hknown : ∀ f ∈ a.pending, f.seq < a.bound) (hfits : a.bound ≤ maxSeq)
    (hgap : a.gap.isEmpty = false) (hcount : a.gap.count < Gap.maxCount) :
    a.gap.start = a.head ∧ a.Ends a.gap.stop := by
  have hl : a.queuing = false := live_of_gap hgap
  have hhead : a.head < a.edge := by
    rw [gap_of_live hl, Gap.isEmpty_between] at hgap
    exact Nat.lt_of_not_le (of_decide_eq_false hgap)
  have hedge : a.edge ≤ a.bound := edge_le_bound hknown
  obtain ⟨hstart, hstop⟩ : a.gap.start = a.head ∧ a.gap.stop = a.edge := by
    rw [gap_of_live hl] at hgap hcount ⊢
    exact Gap.ends_between (Nat.lt_succ_of_le (Nat.le_trans hedge hfits)) hgap hcount
  have hpending : ∀ n ∈ a.pending.map (·.seq), n < a.bound := by
    intro n hn
    obtain ⟨f, hf, rfl⟩ := List.mem_map.1 hn
    exact hknown f hf
  rw [hstop]
  refine ⟨hstart, hl, ho, ?_, hedge, a.has_edge.imp_right Eq.symm⟩
  rintro n (hbelow | hheld)
  · omega
  · exact hpending n hheld

/-- A frame from below the end leaves end and bound where they are. -/
theorem Ends.insert (h : a.Ends stop) {f : Frame} (hf : f.seq < stop) :
    (a.insert f).2.Ends stop ∧ (a.insert f).2.bound = a.bound ∧ a.head ≤ (a.insert f).2.head := by
  have hadv := advance_insert h.ordered f
  have hhas := has_insert h.live f
  have hlt : f.seq < a.bound := Nat.lt_of_lt_of_le hf h.le_bound
  have hbound := bound_insert h.live hlt
  refine ⟨⟨hadv.queuing.trans h.live, hadv.ordered, fun n hn => ?_, ?_, ?_⟩, hbound, ?_⟩
  · rw [hbound]
    rcases (hhas n).1 hn with rfl | hn
    · exact hlt
    · exact h.known n hn
  · rw [hbound]
    exact h.le_bound
  · rw [hbound]
    exact h.follows.imp_left (fun hn => (hhas stop).2 (Or.inr hn))
  · rw [hadv.head]
    exact Nat.le_add_right _ _

end Ends

end Arrivals

end ReliableMulticast
