import ReliableMulticast.Sequence.Arrivals
import Mathlib.Data.List.Basic

/-!
# The window of the receiving end

* `Ordered a`: the frames held back are sorted by number, and once the window is live all of them lie beyond the next
  number to deliver;
* `Advance a a' fresh out`: what one operation does to a window. The frames `out` that it hands over carry the numbers
  from the head on, the head moves over them, and whatever is handed over or held afterwards was held before or is one
  of the `fresh` frames.

`advance_insert`, `advance_raiseBound` and `advance_stopQueuing` say that every operation is such a step. Along such steps
a window that went live at `seq` hands over frames numbered from `seq` on, without a gap (`Live`).
-/

namespace ReliableMulticast.Arrivals

/-! ### Frames in their places -/

theorem mem_place {f g : Frame} {l : List Frame} (h : g ∈ place f l) : g = f ∨ g ∈ l := by
  induction l with
  | nil => simpa [place] using h
  | cons x rest ih =>
    simp only [place] at h
    split at h
    · simpa using h
    split at h
    · exact Or.inr h
    · rcases List.mem_cons.1 h with rfl | h
      · exact Or.inr (by simp)
      · rcases ih h with rfl | h
        · exact Or.inl rfl
        · exact Or.inr (List.mem_cons_of_mem _ h)

theorem place_sorted {l : List Frame} (f : Frame) (h : l.Pairwise (·.seq < ·.seq)) :
    (place f l).Pairwise (·.seq < ·.seq) := by
  induction l with
  | nil => simp [place]
  | cons x rest ih =>
    obtain ⟨hx, hrest⟩ := List.pairwise_cons.1 h
    simp only [place]
    split
    · next hlt =>
      refine List.pairwise_cons.2 ⟨fun g hg => ?_, h⟩
      rcases List.mem_cons.1 hg with rfl | hg
      · exact hlt
      · exact Nat.lt_trans hlt (hx g hg)
    split
    · exact h
    · next hle hne =>
      refine List.pairwise_cons.2 ⟨fun g hg => ?_, ih hrest⟩
      rcases mem_place hg with rfl | hg
      · omega
      · exact hx g hg

/-! ### Frames without a gap -/

theorem run_append (head : Nat) (l : List Frame) : (run head l).1 ++ (run head l).2 = l := by
  induction l generalizing head with
  | nil => rfl
  | cons f rest ih =>
    simp only [run]
    split
    · simp [ih (head + 1)]
    · rfl

theorem run_numbered (head : Nat) (l : List Frame) :
    (run head l).1.map (·.seq) = List.range' head (run head l).1.length := by
  induction l generalizing head with
  | nil => rfl
  | cons f rest ih =>
    simp only [run]
    split
    · next h => simp [h, ih (head + 1), List.range'_succ]
    · rfl

/-- The frames that a run leaves lie beyond the number at which it stopped. -/
theorem run_ahead {l : List Frame} (hs : l.Pairwise (·.seq < ·.seq)) (head : Nat)
    (hl : ∀ f ∈ l, head ≤ f.seq) : ∀ f ∈ (run head l).2, head + (run head l).1.length < f.seq := by
  induction l generalizing head with
  | nil => simp [run]
  | cons x rest ih =>
    obtain ⟨hx, hrest⟩ := List.pairwise_cons.1 hs
    simp only [run]
    split
    · next h =>
      have hbeyond : ∀ f ∈ rest, head + 1 ≤ f.seq := fun f hf => by have := hx f hf; omega
      intro f hf
      have := ih hrest (head + 1) hbeyond f hf
      simp only [List.length_cons]
      omega
    · next h =>
      have hhead := hl x (by simp)
      intro f hf
      rcases List.mem_cons.1 hf with rfl | hf
      · simp; omega
      · have := hx f hf
        simp; omega

/-! ### The window in order -/

structure Ordered (a : Arrivals) : Prop where
  sorted : a.pending.Pairwise (·.seq < ·.seq)
  ahead : a.queuing = false → ∀ f ∈ a.pending, a.head < f.seq

theorem ordered_empty : empty.Ordered := ⟨List.Pairwise.nil, fun _ f hf => by simp [empty] at hf⟩

/-- What one operation does to a window. -/
structure Advance (a a' : Arrivals) (fresh out : List Frame) : Prop where
  queuing : a'.queuing = a.queuing
  head : a'.head = a.head + out.length
  numbered : out.map (·.seq) = List.range' a.head out.length
  /-- A window that is queuing hands nothing over. -/
  patient : a.queuing = true → out = []
  origin : ∀ f ∈ out ++ a'.pending, f ∈ fresh ∨ f ∈ a.pending
  ordered : a'.Ordered

theorem Advance.refl {a : Arrivals} (h : a.Ordered) (fresh : List Frame) : Advance a a fresh [] :=
  ⟨rfl, rfl, rfl, fun _ => rfl, fun f hf => Or.inr (by simpa using hf), h⟩

/-- Where the window lets the head run, all frames may still be at the head or beyond. -/
theorem advance_deliver {a : Arrivals} (hq : a.queuing = false) (hs : a.pending.Pairwise (·.seq < ·.seq))
    (hl : ∀ f ∈ a.pending, a.head ≤ f.seq) : Advance a a.deliver.2 [] a.deliver.1 where
  queuing := rfl
  head := rfl
  numbered := run_numbered a.head a.pending
  patient := fun h => by rw [hq] at h; cases h
  origin := fun f hf => Or.inr (by simpa [deliver, run_append] using hf)
  ordered := by
    refine ⟨?_, fun _ => run_ahead hs a.head hl⟩
    have := run_append a.head a.pending
    rw [← this, List.pairwise_append] at hs
    exact hs.2.1

theorem advance_insert {a : Arrivals} (h : a.Ordered) (f : Frame) :
    Advance a (a.insert f).2 [f] (a.insert f).1.delivered := by
  unfold insert
  split
  · next hq =>
    -- a queuing window only takes the frame to the others
    refine ⟨rfl, rfl, rfl, fun _ => rfl, fun g hg => ?_, place_sorted f h.sorted, fun hn => ?_⟩
    · simpa [Inserted.nothing] using mem_place hg
    · rw [hq] at hn; cases hn
  split
  · exact Advance.refl h [f]
  · next hq hnew =>
    have hq : a.queuing = false := by simpa using hq
    have hge : a.head ≤ f.seq := by
      by_contra hlt
      exact hnew (by simp [show f.seq < a.head by omega])
    have hl : ∀ g ∈ place f a.pending, a.head ≤ g.seq := by
      intro g hg
      rcases mem_place hg with rfl | hg
      · exact hge
      · exact Nat.le_of_lt (h.ahead hq g hg)
    have step := advance_deliver
      (a := { a with bound := max a.bound (boundAfter f.seq), pending := place f a.pending }) hq
      (place_sorted f h.sorted) hl
    refine ⟨step.queuing, step.head, step.numbered, step.patient, fun g hg => ?_, step.ordered⟩
    rcases step.origin g hg with hg | hg
    · cases hg
    · simpa using mem_place hg

theorem advance_raiseBound {a : Arrivals} (h : a.Ordered) (bound : Nat) :
    Advance a (a.raiseBound bound).2 [] [] := by
  unfold raiseBound
  split
  · exact Advance.refl h []
  · exact ⟨rfl, rfl, rfl, fun _ => rfl, fun f hf => Or.inr (by simpa using hf), h.sorted, h.ahead⟩

/-- The window that goes live at `seq`, before it delivers anything. -/
def cutAt (a : Arrivals) (seq : Nat) : Arrivals :=
  { head := seq, bound := max a.bound seq, pending := a.pending.filter (seq ≤ ·.seq), queuing := false }

theorem advance_stopQueuing {a : Arrivals} (h : a.Ordered) (seq : Nat) :
    Advance (a.cutAt seq) (a.stopQueuing seq).2 [] (a.stopQueuing seq).1.delivered :=
  advance_deliver (a := a.cutAt seq) rfl (h.sorted.filter _)
    (fun f hf => by simpa [cutAt] using (List.mem_filter.1 hf).2)

/-- A window that went live at `seq` and has handed over `ms` since. -/
structure Live (a : Arrivals) (seq : Nat) (ms : List Frame) : Prop where
  live : a.queuing = false
  head : a.head = seq + ms.length
  numbered : ms.map (·.seq) = List.range' seq ms.length

theorem live_cutAt (a : Arrivals) (seq : Nat) : (a.cutAt seq).Live seq [] := ⟨rfl, rfl, rfl⟩

theorem Live.advance {a a' : Arrivals} {seq : Nat} {ms fresh out : List Frame} (h : a.Live seq ms)
    (step : Advance a a' fresh out) : a'.Live seq (ms ++ out) where
  live := by rw [step.queuing, h.live]
  head := by rw [step.head, h.head, List.length_append, Nat.add_assoc]
  numbered := by
    rw [List.map_append, step.numbered, h.numbered, h.head, List.length_append]
    simp

theorem mem_of_mem_cutAt {a : Arrivals} {seq : Nat} {f : Frame} (h : f ∈ (a.cutAt seq).pending) :
    f ∈ a.pending :=
  (List.mem_filter.1 h).1

end ReliableMulticast.Arrivals
