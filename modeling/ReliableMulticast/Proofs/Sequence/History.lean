import Mathlib.Data.List.Induction
import Mathlib.Data.List.Sort
import Mathlib.Order.Bounds.Basic
import ReliableMulticast.Proofs.Sequence.Gap

/-!
# Windows as sets

Of the frames that a window has taken, only which numbers they carry matters, and which frame of each number came first.
`Reads x seq arrived high` reads a window in this way that went live at `seq`, took the frames `arrived`, in this order, and
was told of bounds up to `high`:

* the head is the least number from `seq` on that did not arrive;
* the frames that were handed over are those with the numbers from `seq` up to the head, each as it came first;
* the frames held back are those with the numbers beyond the head, each as it came first;
* the bound is the largest of `seq`, the number after the last one that arrived, and `high`.

Main statement (`reads_history`): this is where every history of a window leads, so neither the order of the frames nor the
moment at which the window went live makes a difference.
-/

namespace ReliableMulticast.Arrivals

/-! ### Histories -/

/-- A window with all that it has handed over. -/
structure History where
  window : Arrivals
  delivered : List Frame
deriving DecidableEq, Repr, Inhabited

/-- What comes to a window, before and after the end of the snapshot. -/
inductive Op
  | insert (f : Frame)
  | raiseBound (bound : Nat)
deriving DecidableEq, Repr, Inhabited

def Op.frame? : Op → Option Frame
  | .insert f => some f
  | .raiseBound _ => none

def Op.bound? : Op → Option Nat
  | .insert _ => none
  | .raiseBound bound => some bound

namespace History

def step (x : History) : Op → History
  | .insert f => ⟨(x.window.insert f).2, x.delivered ++ (x.window.insert f).1.delivered⟩
  | .raiseBound bound => ⟨(x.window.raiseBound bound).2, x.delivered⟩

def steps (x : History) (ops : List Op) : History := ops.foldl step x

theorem steps_concat (x : History) (ops : List Op) (op : Op) : x.steps (ops ++ [op]) = (x.steps ops).step op := by
  simp [steps]

def stop (x : History) (seq : Nat) : History :=
  ⟨(x.window.stopQueuing seq).2, x.delivered ++ (x.window.stopQueuing seq).1.delivered⟩

end History

/-- Frames that come while the window is queuing, the end of the snapshot, and what comes after it. -/
def history (start : Arrivals) (before : List Frame) (seq : Nat) (after : List Op) : History :=
  ((History.steps ⟨start, []⟩ (before.map .insert)).stop seq).steps after

/-! ### Readings -/

/-- The frame with this number that came first. -/
def first? (arrived : List Frame) (n : Nat) : Option Frame := arrived.find? (·.seq == n)

/-- The number after the largest, or 0 if there is none. -/
def stopOf (arrived : List Frame) : Nat := (arrived.map (·.seq + 1)).foldl max 0

/-- All frames of a history, in the order of their arrival. -/
def arrivedIn (before : List Frame) (after : List Op) : List Frame := before ++ after.filterMap Op.frame?

/-- The highest bound that a window was told of, or 0 if there is none. -/
def highest (ops : List Op) : Nat := (ops.filterMap Op.bound?).foldl max 0

/-- Numbers from `seq` on that did not arrive. -/
def missing (seq : Nat) (arrived : List Frame) : Set Nat := {n | seq ≤ n ∧ n ∉ arrived.map (·.seq)}

structure Reads (x : History) (seq : Nat) (arrived : List Frame) (high : Nat) : Prop where
  live : x.window.queuing = false
  head : IsLeast (missing seq arrived) x.window.head
  delivered : x.delivered.map some = (List.range' seq (x.window.head - seq)).map (first? arrived)
  sorted : x.window.pending.Pairwise (·.seq < ·.seq)
  pending : ∀ f, f ∈ x.window.pending ↔ x.window.head < f.seq ∧ first? arrived f.seq = some f
  bound : x.window.bound = max seq (max (stopOf arrived) high)

/-! ### First arrivals -/

section First

variable {arrived : List Frame} {f : Frame} {n : Nat}

theorem seq_of_first? (h : first? arrived n = some f) : f.seq = n := by
  simpa using List.find?_some h

theorem first?_eq_none_iff : first? arrived n = none ↔ n ∉ arrived.map (·.seq) := by
  simp [first?]

theorem exists_first?_iff : (∃ f, first? arrived n = some f) ↔ n ∈ arrived.map (·.seq) := by
  rw [← Option.isSome_iff_exists, Option.isSome_iff_ne_none, ne_eq, first?_eq_none_iff, not_not]

theorem first?_concat (arrived : List Frame) (f : Frame) (n : Nat) :
    first? (arrived ++ [f]) n = (first? arrived n).or (if f.seq = n then some f else none) := by
  unfold first?
  rw [List.find?_append]
  by_cases h : f.seq = n <;> simp [h]

/-- A frame that comes later is the first of its number where there was none. -/
theorem first?_concat_eq_some_iff {g : Frame} :
    first? (arrived ++ [f]) g.seq = some g ↔
      first? arrived g.seq = some g ∨ g = f ∧ first? arrived f.seq = none := by
  rw [first?_concat]
  constructor
  · intro h
    cases hg : first? arrived g.seq with
    | some g' =>
      rw [hg] at h
      exact Or.inl h
    | none =>
      rw [hg] at h
      by_cases hf : f.seq = g.seq
      · obtain rfl : f = g := by simpa [hf] using h
        exact Or.inr ⟨rfl, hg⟩
      · simp [hf] at h
  · rintro (h | ⟨rfl, h⟩)
    · simp [h]
    · simp [h]

theorem stopOf_concat (arrived : List Frame) (f : Frame) : stopOf (arrived ++ [f]) = max (stopOf arrived) (f.seq + 1) := by
  simp [stopOf]

theorem lt_stopOf (h : f ∈ arrived) : f.seq < stopOf arrived := by
  induction arrived using List.reverseRecOn with
  | nil => cases h
  | append_singleton rest g ih =>
    rw [stopOf_concat]
    rcases List.mem_append.1 h with h | h
    · have := ih h
      omega
    · obtain rfl := List.mem_singleton.1 h
      omega

theorem highest_concat (ops : List Op) (op : Op) :
    highest (ops ++ [op]) = (op.bound?.map (max (highest ops))).getD (highest ops) := by
  cases op with
  | insert f => simp [highest, Op.bound?, List.filterMap_append, List.filterMap_cons]
  | raiseBound bound => simp [highest, Op.bound?, List.filterMap_append]

theorem boundAfter_of_lt (h : n < maxSeq) : boundAfter n = n + 1 := by
  unfold boundAfter
  omega

end First

/-! ### Sorted frames -/

/-- A sorted list is known by its members. -/
theorem eq_of_sorted {l l' : List Frame} (h : l.Pairwise (·.seq < ·.seq)) (h' : l'.Pairwise (·.seq < ·.seq))
    (hmem : ∀ f, f ∈ l ↔ f ∈ l') : l = l' := by
  have hirrefl : Std.Irrefl fun f g : Frame => f.seq < g.seq := ⟨fun f => Nat.lt_irrefl f.seq⟩
  have hantisymm : Std.Antisymm fun f g : Frame => f.seq < g.seq :=
    ⟨fun f g hfg hgf => absurd (Nat.lt_trans hfg hgf) (Nat.lt_irrefl f.seq)⟩
  exact List.Pairwise.eq_of_mem_iff h h' hmem

/-- Of two frames with one number, `place` keeps the one that is there. -/
theorem mem_place_iff {f g : Frame} {l : List Frame} (h : l.Pairwise (·.seq < ·.seq)) :
    g ∈ place f l ↔ g ∈ l ∨ g = f ∧ ∀ x ∈ l, x.seq ≠ f.seq := by
  induction l with
  | nil => simp [place]
  | cons x rest ih =>
    obtain ⟨hx, hrest⟩ := List.pairwise_cons.1 h
    simp only [place]
    split
    · next hlt =>
      have hnew : ∀ y ∈ x :: rest, y.seq ≠ f.seq := by
        intro y hy
        rcases List.mem_cons.1 hy with rfl | hy
        · omega
        · have := hx y hy
          omega
      rw [List.mem_cons]
      constructor
      · rintro (rfl | hg)
        · exact Or.inr ⟨rfl, hnew⟩
        · exact Or.inl hg
      · rintro (hg | ⟨rfl, -⟩)
        · exact Or.inr hg
        · exact Or.inl rfl
    split
    · next heq =>
      constructor
      · exact Or.inl
      · rintro (hg | ⟨-, hnew⟩)
        · exact hg
        · exact absurd heq.symm (hnew x (by simp))
    · next hle hne =>
      have hsame : (∀ y ∈ x :: rest, y.seq ≠ f.seq) ↔ ∀ y ∈ rest, y.seq ≠ f.seq := by
        constructor
        · intro hnew y hy
          exact hnew y (List.mem_cons_of_mem _ hy)
        · intro hnew y hy
          rcases List.mem_cons.1 hy with rfl | hy
          · omega
          · exact hnew y hy
      rw [List.mem_cons, List.mem_cons, ih hrest, hsame, or_assoc]

/-! ### While queuing -/

/-- A queuing window holds the first arrival of each number. -/
structure Holding (x : History) (arrived : List Frame) : Prop where
  queuing : x.window.queuing = true
  delivered : x.delivered = []
  sorted : x.window.pending.Pairwise (·.seq < ·.seq)
  pending : ∀ f, f ∈ x.window.pending ↔ first? arrived f.seq = some f
  bound : x.window.bound = stopOf arrived

theorem holding_empty : Holding ⟨empty, []⟩ [] :=
  ⟨rfl, rfl, List.Pairwise.nil, fun f => by simp [empty, first?], rfl⟩

theorem Holding.insert {x : History} {arrived : List Frame} (h : Holding x arrived) {f : Frame} (hf : f.seq < maxSeq) :
    Holding (x.step (.insert f)) (arrived ++ [f]) := by
  have hstep : x.step (.insert f) = ⟨{ x.window with
      bound := max x.window.bound (boundAfter f.seq), pending := place f x.window.pending }, []⟩ := by
    simp [History.step, Arrivals.insert, h.queuing, h.delivered, Inserted.nothing]
  have hnew : (∀ y ∈ x.window.pending, y.seq ≠ f.seq) ↔ first? arrived f.seq = none := by
    constructor
    · intro hnew
      by_contra hsome
      obtain ⟨y, hy⟩ := Option.ne_none_iff_exists'.1 hsome
      have hseq := seq_of_first? hy
      exact hnew y ((h.pending y).2 (hseq ▸ hy)) hseq
    · intro hnone y hy hseq
      rw [h.pending, hseq, hnone] at hy
      cases hy
  rw [hstep]
  refine ⟨h.queuing, rfl, place_sorted f h.sorted, fun g => ?_, ?_⟩
  · rw [mem_place_iff h.sorted, h.pending, hnew, first?_concat_eq_some_iff]
  · show max x.window.bound (boundAfter f.seq) = _
    rw [h.bound, boundAfter_of_lt hf, stopOf_concat]

theorem Holding.inserts {x : History} {arrived : List Frame} (h : Holding x arrived) {fs : List Frame}
    (hfs : ∀ f ∈ fs, f.seq < maxSeq) : Holding (x.steps (fs.map .insert)) (arrived ++ fs) := by
  induction fs generalizing x arrived with
  | nil => simpa [History.steps] using h
  | cons f rest ih =>
    have hrest := ih (h.insert (hfs f (by simp))) (fun g hg => hfs g (List.mem_cons_of_mem _ hg))
    simpa [History.steps] using hrest

/-! ### Once live -/

/-- A reading of a live window before its head has run over what is complete. -/
structure Covers (x : History) (seq : Nat) (arrived : List Frame) (high : Nat) : Prop where
  live : x.window.queuing = false
  le_head : seq ≤ x.window.head
  below : ∀ n, seq ≤ n → n < x.window.head → n ∈ arrived.map (·.seq)
  delivered : x.delivered.map some = (List.range' seq (x.window.head - seq)).map (first? arrived)
  sorted : x.window.pending.Pairwise (·.seq < ·.seq)
  pending : ∀ f, f ∈ x.window.pending ↔ x.window.head ≤ f.seq ∧ first? arrived f.seq = some f
  bound : x.window.bound = max seq (max (stopOf arrived) high)

section Covers

variable {x : History} {seq : Nat} {arrived : List Frame} {high : Nat}

theorem Reads.covers (h : Reads x seq arrived high) : Covers x seq arrived high := by
  refine ⟨h.live, h.head.1.1, fun n hn hlt => ?_, h.delivered, h.sorted, fun f => ?_, h.bound⟩
  · by_contra hmem
    have := h.head.2 ⟨hn, hmem⟩
    omega
  · rw [h.pending]
    constructor
    · rintro ⟨hlt, hfirst⟩
      exact ⟨Nat.le_of_lt hlt, hfirst⟩
    · rintro ⟨hle, hfirst⟩
      refine ⟨Nat.lt_of_le_of_ne hle (fun heq => ?_), hfirst⟩
      rw [← heq] at hfirst
      exact h.head.1.2 (exists_first?_iff.1 ⟨f, hfirst⟩)

/-- Where the head is not among the numbers that arrived, there is nothing left to hand over. -/
theorem Covers.reads (h : Covers x seq arrived high) (hhead : x.window.head ∉ arrived.map (·.seq)) :
    Reads x seq arrived high := by
  refine ⟨h.live, ⟨⟨h.le_head, hhead⟩, ?_⟩, h.delivered, h.sorted, fun f => ?_, h.bound⟩
  · rintro n ⟨hn, hmem⟩
    by_contra hlt
    exact hmem (h.below n hn (by omega))
  · rw [h.pending]
    constructor
    · rintro ⟨hle, hfirst⟩
      refine ⟨Nat.lt_of_le_of_ne hle (fun heq => hhead ?_), hfirst⟩
      rw [heq]
      exact exists_first?_iff.1 ⟨f, hfirst⟩
    · rintro ⟨hlt, hfirst⟩
      exact ⟨Nat.le_of_lt hlt, hfirst⟩

/-- The numbers of the frames that a run hands over, and of those that it leaves. -/
theorem mem_run_iff {l : List Frame} {head : Nat} (hs : l.Pairwise (·.seq < ·.seq)) (hl : ∀ f ∈ l, head ≤ f.seq)
    (f : Frame) :
    (f ∈ (run head l).1 ↔ f ∈ l ∧ f.seq < head + (run head l).1.length) ∧
      (f ∈ (run head l).2 ↔ f ∈ l ∧ head + (run head l).1.length ≤ f.seq) := by
  have happend : f ∈ l ↔ f ∈ (run head l).1 ∨ f ∈ (run head l).2 := by
    rw [← List.mem_append, run_append]
  have hdelivered : f ∈ (run head l).1 → f.seq < head + (run head l).1.length := by
    intro hf
    have hseq : f.seq ∈ (run head l).1.map (·.seq) := List.mem_map.2 ⟨f, hf, rfl⟩
    rw [run_numbered] at hseq
    obtain ⟨i, hi, hseq⟩ := List.mem_range'.1 hseq
    omega
  have hheld : f ∈ (run head l).2 → head + (run head l).1.length < f.seq := run_ahead hs head hl f
  rw [happend]
  constructor
  · constructor
    · exact fun hf => ⟨Or.inl hf, hdelivered hf⟩
    · rintro ⟨hf | hf, hlt⟩
      · exact hf
      · have := hheld hf
        omega
  · constructor
    · exact fun hf => ⟨Or.inr hf, Nat.le_of_lt (hheld hf)⟩
    · rintro ⟨hf | hf, hle⟩
      · have := hdelivered hf
        omega
      · exact hf

/-- The frames that a run hands over are the first arrivals of their numbers. -/
theorem Covers.map_run (h : Covers x seq arrived high) :
    (run x.window.head x.window.pending).1.map some =
      (List.range' x.window.head (run x.window.head x.window.pending).1.length).map (first? arrived) := by
  rw [← run_numbered, List.map_map]
  refine List.map_congr_left (fun f hf => ?_)
  have hmem : f ∈ x.window.pending := by
    rw [← run_append x.window.head x.window.pending]
    exact List.mem_append_left _ hf
  exact ((h.pending f).1 hmem).2.symm

/-- The head runs over what is complete, and then it stands before a number that did not arrive. -/
theorem Covers.deliver (h : Covers x seq arrived high) :
    Reads ⟨x.window.deliver.2, x.delivered ++ x.window.deliver.1⟩ seq arrived high := by
  have hmem := mem_run_iff h.sorted (fun f hf => ((h.pending f).1 hf).1)
  set count := (run x.window.head x.window.pending).1.length with hcount
  have hfirst : ∀ n, x.window.head ≤ n → n < x.window.head + count → n ∈ arrived.map (·.seq) := by
    intro n hle hlt
    have hnumber : n ∈ (run x.window.head x.window.pending).1.map (·.seq) := by
      rw [run_numbered, List.mem_range'_1]
      exact ⟨hle, hlt⟩
    obtain ⟨f, hf, rfl⟩ := List.mem_map.1 hnumber
    exact exists_first?_iff.1 ⟨f, ((h.pending f).1 ((hmem f).1.1 hf).1).2⟩
  refine Covers.reads ⟨h.live, ?_, fun n hn hlt => ?_, ?_, ?_, fun f => ?_, h.bound⟩ ?_
  · exact Nat.le_trans h.le_head (Nat.le_add_right _ _)
  · rcases Nat.lt_or_ge n x.window.head with hbelow | hfrom
    · exact h.below n hn hbelow
    · exact hfirst n hfrom hlt
  · have hsplit : x.window.head + count - seq = (x.window.head - seq) + count := by
      have := h.le_head
      omega
    show (x.delivered ++ (run x.window.head x.window.pending).1).map some =
      (List.range' seq (x.window.head + count - seq)).map (first? arrived)
    rw [List.map_append, h.delivered, h.map_run, ← hcount, hsplit, ← List.map_append, ← List.range'_append_1,
      show seq + (x.window.head - seq) = x.window.head from Nat.add_sub_cancel' h.le_head]
  · have hs := h.sorted
    rw [← run_append x.window.head x.window.pending, List.pairwise_append] at hs
    exact hs.2.1
  · show f ∈ (run x.window.head x.window.pending).2 ↔ x.window.head + count ≤ f.seq ∧ first? arrived f.seq = some f
    rw [(hmem f).2, h.pending]
    constructor
    · rintro ⟨⟨-, hf⟩, hle⟩
      exact ⟨hle, hf⟩
    · rintro ⟨hle, hf⟩
      exact ⟨⟨by omega, hf⟩, hle⟩
  · -- a frame with the number of the new head would have been handed over
    show x.window.head + count ∉ arrived.map (·.seq)
    intro hnext
    obtain ⟨f, hf⟩ := exists_first?_iff.2 hnext
    have hseq := seq_of_first? hf
    have hpending : f ∈ x.window.pending := (h.pending f).2 ⟨by omega, hseq ▸ hf⟩
    have hheld : f ∈ (run x.window.head x.window.pending).2 := (hmem f).2.2 ⟨hpending, by omega⟩
    have := run_ahead h.sorted x.window.head (fun g hg => ((h.pending g).1 hg).1) f hheld
    omega

end Covers

theorem Holding.stop {x : History} {arrived : List Frame} (h : Holding x arrived) (seq : Nat) :
    Reads (x.stop seq) seq arrived 0 := by
  have hcut : Covers ⟨x.window.cutAt seq, []⟩ seq arrived 0 := by
    refine ⟨rfl, le_rfl, fun n hn hlt => ?_, ?_, h.sorted.filter _, fun f => ?_, ?_⟩
    · exact absurd hlt (Nat.not_lt.2 hn)
    · simp [cutAt]
    · show f ∈ x.window.pending.filter (seq ≤ ·.seq) ↔ _
      rw [List.mem_filter, h.pending]
      simp [cutAt, and_comm]
    · show max x.window.bound seq = max seq (max (stopOf arrived) 0)
      rw [h.bound]
      omega
  have hdelivered := hcut.deliver
  rw [List.nil_append] at hdelivered
  unfold History.stop
  rw [h.delivered, List.nil_append]
  exact hdelivered

section Live

variable {x : History} {seq : Nat} {arrived : List Frame} {high : Nat}

/-- A window has what the snapshot covers and what arrived. -/
theorem Reads.has_iff (h : Reads x seq arrived high) (n : Nat) :
    x.window.Has n ↔ n < seq ∨ n ∈ arrived.map (·.seq) := by
  constructor
  · rintro (hbelow | hheld)
    · rcases Nat.lt_or_ge n seq with hcovered | hfrom
      · exact Or.inl hcovered
      · exact Or.inr (h.covers.below n hfrom hbelow)
    · obtain ⟨g, hg, rfl⟩ := List.mem_map.1 hheld
      exact Or.inr (exists_first?_iff.1 ⟨g, ((h.pending g).1 hg).2⟩)
  · rintro (hcovered | harrived)
    · exact Or.inl (Nat.lt_of_lt_of_le hcovered h.head.1.1)
    · rcases Nat.lt_or_ge n x.window.head with hbelow | hfrom
      · exact Or.inl hbelow
      · obtain ⟨g, hg⟩ := exists_first?_iff.2 harrived
        have hseq := seq_of_first? hg
        have hpending : g ∈ x.window.pending := (h.covers.pending g).2 ⟨by omega, hseq ▸ hg⟩
        exact Or.inr (List.mem_map.2 ⟨g, hpending, hseq⟩)

/-- A frame whose number the window has changes nothing. -/
theorem Reads.late (h : Reads x seq arrived high) {f : Frame} (hf : x.window.Has f.seq) :
    Reads x seq (arrived ++ [f]) high := by
  have hknown : f.seq < seq ∨ f.seq ∈ arrived.map (·.seq) := (h.has_iff f.seq).1 hf
  have hlt : f.seq < x.window.bound := by
    have hbound := h.bound
    rcases hknown with hcovered | harrived
    · omega
    · obtain ⟨g, hg, hseq⟩ := List.mem_map.1 harrived
      have := lt_stopOf hg
      omega
  have hfirst : ∀ n, seq ≤ n → first? (arrived ++ [f]) n = first? arrived n := by
    intro n hn
    rw [first?_concat]
    by_cases hseq : f.seq = n
    · obtain ⟨g, hg⟩ := exists_first?_iff.2 (hknown.resolve_left (by omega))
      simp [← hseq, hg]
    · simp [hseq]
  have hmissing : missing seq (arrived ++ [f]) = missing seq arrived := by
    ext n
    unfold missing
    constructor
    · rintro ⟨hn, hmem⟩
      exact ⟨hn, fun harrived => hmem (by simp only [List.map_append]; exact List.mem_append_left _ harrived)⟩
    · rintro ⟨hn, hmem⟩
      refine ⟨hn, fun harrived => hmem ?_⟩
      rw [← exists_first?_iff, ← hfirst n hn]
      exact exists_first?_iff.2 harrived
  refine ⟨h.live, hmissing ▸ h.head, ?_, h.sorted, fun g => ?_, ?_⟩
  · rw [h.delivered]
    refine List.map_congr_left (fun n hn => (hfirst n ?_).symm)
    exact (List.mem_range'_1.1 hn).1
  · rw [h.pending]
    refine and_congr_right (fun hlt => ?_)
    rw [hfirst g.seq (Nat.le_trans h.head.1.1 (Nat.le_of_lt hlt))]
  · rw [stopOf_concat]
    have := h.bound
    omega

/-- A frame that comes in time is the first of its number. -/
theorem Reads.fresh (h : Reads x seq arrived high) {f : Frame} (hf : f.seq < maxSeq) (hnew : ¬ x.window.Has f.seq) :
    Covers ⟨{ x.window with
      bound := max x.window.bound (boundAfter f.seq), pending := place f x.window.pending }, x.delivered⟩
      seq (arrived ++ [f]) high := by
  have hge : x.window.head ≤ f.seq := by
    by_contra hlt
    exact hnew (Or.inl (by omega))
  have hnone : first? arrived f.seq = none :=
    first?_eq_none_iff.2 (fun harrived => hnew ((h.has_iff f.seq).2 (Or.inr harrived)))
  have hunlike : ∀ y ∈ x.window.pending, y.seq ≠ f.seq :=
    fun y hy hseq => hnew (Or.inr (List.mem_map.2 ⟨y, hy, hseq⟩))
  refine ⟨h.live, h.head.1.1, fun n hn hlt => ?_, ?_, place_sorted f h.sorted, fun g => ?_, ?_⟩
  · rw [List.map_append]
    exact List.mem_append_left _ (h.covers.below n hn hlt)
  · rw [h.delivered]
    refine List.map_congr_left (fun n hn => ?_)
    have hne : f.seq ≠ n := by
      have := (List.mem_range'_1.1 hn).2
      have hle : seq ≤ x.window.head := h.head.1.1
      omega
    simp [first?_concat, hne]
  · show g ∈ place f x.window.pending ↔ x.window.head ≤ g.seq ∧ first? (arrived ++ [f]) g.seq = some g
    rw [mem_place_iff h.sorted, h.covers.pending, first?_concat_eq_some_iff]
    constructor
    · rintro (⟨hle, hg⟩ | ⟨rfl, -⟩)
      · exact ⟨hle, Or.inl hg⟩
      · exact ⟨hge, Or.inr ⟨rfl, hnone⟩⟩
    · rintro ⟨hle, hg | ⟨rfl, -⟩⟩
      · exact Or.inl ⟨hle, hg⟩
      · exact Or.inr ⟨rfl, hunlike⟩
  · show max x.window.bound (boundAfter f.seq) = _
    rw [boundAfter_of_lt hf, stopOf_concat, h.bound]
    omega

theorem Reads.insert (h : Reads x seq arrived high) {f : Frame} (hf : f.seq < maxSeq) :
    Reads (x.step (.insert f)) seq (arrived ++ [f]) high := by
  show Reads ⟨(x.window.insert f).2, x.delivered ++ (x.window.insert f).1.delivered⟩ seq (arrived ++ [f]) high
  rcases insert_cases h.live f with ⟨hhas, hi⟩ | ⟨hnew, raised, rfl, hi⟩ <;> rw [hi]
  · have hdelivered : x.delivered ++ Inserted.nothing.delivered = x.delivered := List.append_nil _
    rw [hdelivered]
    exact h.late hhas
  · exact (h.fresh hf hnew).deliver

theorem Reads.raiseBound (h : Reads x seq arrived high) (bound : Nat) :
    Reads (x.step (.raiseBound bound)) seq arrived (max high bound) := by
  have hstep : x.step (.raiseBound bound) = ⟨{ x.window with bound := max x.window.bound bound }, x.delivered⟩ := by
    simp [History.step, Arrivals.raiseBound, h.live]
  rw [hstep]
  refine ⟨h.live, h.head, h.delivered, h.sorted, h.pending, ?_⟩
  show max x.window.bound bound = _
  rw [h.bound]
  omega

theorem Reads.steps (h : Reads x seq arrived high) {ops : List Op}
    (hops : ∀ f ∈ ops.filterMap Op.frame?, f.seq < maxSeq) :
    Reads (x.steps ops) seq (arrived ++ ops.filterMap Op.frame?) (max high (highest ops)) := by
  induction ops using List.reverseRecOn with
  | nil => simpa [History.steps, highest] using h
  | append_singleton ops op ih =>
    have hrest := ih (fun f hf => hops f (by simp only [List.filterMap_append]; exact List.mem_append_left _ hf))
    rw [History.steps_concat, List.filterMap_append, ← List.append_assoc, highest_concat]
    cases op with
    | insert f =>
      exact hrest.insert (hops f (by simp [Op.frame?, List.filterMap_append]))
    | raiseBound bound =>
      have hraised := hrest.raiseBound bound
      rw [Nat.max_assoc] at hraised
      simpa [Op.frame?, Op.bound?, List.filterMap_cons] using hraised

end Live

/-! ### What a reading leaves open -/

section Unique

variable {x x' : History} {seq : Nat} {arrived arrived' : List Frame} {high : Nat}

theorem Reads.map_delivered (h : Reads x seq arrived high) :
    x.delivered.map (·.seq) = List.range' seq (x.window.head - seq) := by
  refine List.ext_getElem? (fun i => ?_)
  have hi := congrArg (·[i]?) h.delivered
  simp only [List.getElem?_map] at hi ⊢
  cases hd : x.delivered[i]? with
  | none =>
    rw [hd] at hi
    cases hr : (List.range' seq (x.window.head - seq))[i]? with
    | none => rfl
    | some n => simp [hr] at hi
  | some f =>
    rw [hd] at hi
    cases hr : (List.range' seq (x.window.head - seq))[i]? with
    | none => simp [hr] at hi
    | some n =>
      have hfirst : first? arrived n = some f := by simpa [hr] using hi.symm
      simp [seq_of_first? hfirst]

theorem stopOf_congr (h : ∀ n, n ∈ arrived'.map (·.seq) ↔ n ∈ arrived.map (·.seq)) : stopOf arrived' = stopOf arrived := by
  have hle : ∀ {l l' : List Frame}, (∀ n, n ∈ l.map (·.seq) → n ∈ l'.map (·.seq)) → stopOf l ≤ stopOf l' := by
    intro l l' hsub
    induction l using List.reverseRecOn with
    | nil => exact Nat.zero_le _
    | append_singleton rest f ih =>
      have hrest := ih (fun n hn => hsub n (by rw [List.map_append]; exact List.mem_append_left _ hn))
      obtain ⟨g, hg, hseq⟩ := List.mem_map.1 (hsub f.seq (by simp))
      have := lt_stopOf hg
      rw [stopOf_concat]
      omega
  exact Nat.le_antisymm (hle fun n => (h n).1) (hle fun n => (h n).2)

/-- The numbers of what arrived decide on all numbers of the window. -/
theorem Reads.congr (h : Reads x seq arrived high) (h' : Reads x' seq arrived' high)
    (hn : ∀ n, n ∈ arrived'.map (·.seq) ↔ n ∈ arrived.map (·.seq)) :
    x'.window.head = x.window.head ∧ x'.window.bound = x.window.bound ∧
      x'.delivered.map (·.seq) = x.delivered.map (·.seq) ∧
        x'.window.pending.map (·.seq) = x.window.pending.map (·.seq) := by
  have hmissing : missing seq arrived' = missing seq arrived := by
    ext n
    exact and_congr_right (fun _ => not_congr (hn n))
  have hhead : x'.window.head = x.window.head := by
    have hleast := h'.head
    rw [hmissing] at hleast
    exact hleast.unique h.head
  have hmem : ∀ {y : History} {l : List Frame}, Reads y seq l high →
      ∀ n, n ∈ y.window.pending.map (·.seq) ↔ y.window.head < n ∧ n ∈ l.map (·.seq) := by
    intro y l hy n
    constructor
    · intro hn
      obtain ⟨f, hf, rfl⟩ := List.mem_map.1 hn
      obtain ⟨hlt, hfirst⟩ := (hy.pending f).1 hf
      exact ⟨hlt, exists_first?_iff.1 ⟨f, hfirst⟩⟩
    · rintro ⟨hlt, hn⟩
      obtain ⟨f, hfirst⟩ := exists_first?_iff.2 hn
      have hseq := seq_of_first? hfirst
      exact List.mem_map.2 ⟨f, (hy.pending f).2 ⟨by omega, hseq ▸ hfirst⟩, hseq⟩
  refine ⟨hhead, ?_, ?_, ?_⟩
  · rw [h'.bound, h.bound, stopOf_congr hn]
  · rw [h'.map_delivered, h.map_delivered, hhead]
  · have hsorted' : (x'.window.pending.map (·.seq)).Pairwise (· < ·) := List.pairwise_map.2 h'.sorted
    have hsorted : (x.window.pending.map (·.seq)).Pairwise (· < ·) := List.pairwise_map.2 h.sorted
    refine hsorted'.eq_of_mem_iff hsorted (fun n => ?_)
    rw [hmem h', hmem h, hhead, hn]

/-- The first arrivals decide on everything. -/
theorem Reads.unique (h : Reads x seq arrived high) (h' : Reads x' seq arrived' high)
    (hfirst : ∀ n, first? arrived' n = first? arrived n) : x' = x := by
  have hn : ∀ n, n ∈ arrived'.map (·.seq) ↔ n ∈ arrived.map (·.seq) := by
    intro n
    rw [← exists_first?_iff, ← exists_first?_iff, hfirst]
  obtain ⟨hhead, hbound, -, -⟩ := h.congr h' hn
  have hpending : x'.window.pending = x.window.pending := by
    refine eq_of_sorted h'.sorted h.sorted (fun f => ?_)
    rw [h'.pending, h.pending, hhead, hfirst]
  have hdelivered : x'.delivered = x.delivered := by
    have hsome : x'.delivered.map some = x.delivered.map some := by
      rw [h'.delivered, h.delivered, hhead]
      exact List.map_congr_left (fun n _ => hfirst n)
    exact (List.map_injective_iff.2 (Option.some_injective Frame)) hsome
  have hqueuing : x'.window.queuing = x.window.queuing := by rw [h'.live, h.live]
  obtain ⟨⟨head, bound, pending, queuing⟩, delivered⟩ := x
  obtain ⟨⟨head', bound', pending', queuing'⟩, delivered'⟩ := x'
  simp_all

end Unique

/-! ### Any history -/

/-- A window before anything came to it. -/
def Fresh (start : Arrivals) : Prop := start = empty ∨ ∃ a : Arrivals, start = a.startQueuing

theorem history_of_fresh {start : Arrivals} (hstart : start.Fresh) {before : List Frame} {seq : Nat} {after : List Op}
    (hseq : ∀ f ∈ arrivedIn before after, f.seq < maxSeq) :
    Reads (history start before seq after) seq (arrivedIn before after) (highest after) := by
  obtain rfl : start = empty := by
    rcases hstart with rfl | ⟨a, rfl⟩ <;> rfl
  have hholding : Holding (History.steps ⟨empty, []⟩ (before.map .insert)) ([] ++ before) :=
    holding_empty.inserts (fun f hf => hseq f (List.mem_append_left _ hf))
  rw [List.nil_append] at hholding
  have hafter : ∀ f ∈ after.filterMap Op.frame?, f.seq < maxSeq := fun f hf => hseq f (List.mem_append_right _ hf)
  have hreads := (hholding.stop seq).steps hafter
  rwa [Nat.zero_max] at hreads

/-- Whatever comes to a window, and in whatever order, it reads as the set of what arrived. So of two histories in which
the same numbers arrive, whenever they do so and whenever the window goes live, the one hands over and holds back the same
numbers as the other; and if the same frames come first, the same frames. -/
theorem reads_history {start start' : Arrivals} (hstart : start.Fresh) (hstart' : start'.Fresh)
    (before before' : List Frame) (seq : Nat) (after after' : List Op)
    (hseq : ∀ f ∈ arrivedIn before after, f.seq < maxSeq) (hseq' : ∀ f ∈ arrivedIn before' after', f.seq < maxSeq) :
    let x := history start before seq after
    let x' := history start' before' seq after'
    Reads x seq (arrivedIn before after) (highest after) ∧
      (highest after' = highest after →
        ((∀ n, n ∈ (arrivedIn before' after').map (·.seq) ↔ n ∈ (arrivedIn before after).map (·.seq)) →
          x'.window.head = x.window.head ∧ x'.window.bound = x.window.bound ∧
            x'.delivered.map (·.seq) = x.delivered.map (·.seq) ∧
              x'.window.pending.map (·.seq) = x.window.pending.map (·.seq)) ∧
        ((∀ n, first? (arrivedIn before' after') n = first? (arrivedIn before after) n) → x' = x)) := by
  intro x x'
  have h : Reads x seq (arrivedIn before after) (highest after) := history_of_fresh hstart hseq
  refine ⟨h, fun hhigh => ?_⟩
  have h' : Reads x' seq (arrivedIn before' after') (highest after) := hhigh ▸ history_of_fresh hstart' hseq'
  exact ⟨h.congr h', h.unique h'⟩

def numbered (seq : UInt64) (b : UInt8) : Frame := ⟨⟨seq, 0, 1, 64, 0⟩, [b]⟩

/-- Two frames come with the number 5, and one comes with a number that the snapshot covers. -/
def early : List Frame := [numbered 5 1, numbered 1 2, numbered 5 3]

def late : List Op :=
  [.raiseBound 9, .insert (numbered 3 4), .insert (numbered 3 5), .insert (numbered 2 6), .insert (numbered 7 7)]

/-- The same frames in another order, all of them after the snapshot. -/
def allLate : List Op :=
  [.insert (numbered 7 7), .insert (numbered 2 6), .insert (numbered 5 1), .insert (numbered 3 4), .raiseBound 4,
    .insert (numbered 3 5), .insert (numbered 1 2), .raiseBound 9, .insert (numbered 5 3)]

theorem first?_allLate (n : Nat) : first? (arrivedIn [] allLate) n = first? (arrivedIn early late) n := by
  have hnumbers : ∀ n, n ∉ [1, 2, 3, 5, 7] →
      first? (arrivedIn [] allLate) n = none ∧ first? (arrivedIn early late) n = none := by
    intro n hn
    have hall : (arrivedIn [] allLate).map (·.seq) = [7, 2, 5, 3, 3, 1, 5] := by decide
    have hlate : (arrivedIn early late).map (·.seq) = [5, 1, 5, 3, 3, 2, 7] := by decide
    rw [first?_eq_none_iff, first?_eq_none_iff, hall, hlate]
    simp only [List.mem_cons, List.not_mem_nil, or_false, not_or] at hn ⊢
    omega
  by_cases hn : n ∈ [1, 2, 3, 5, 7]
  · have hsame : ∀ n ∈ [1, 2, 3, 5, 7],
        first? (arrivedIn [] allLate) n = first? (arrivedIn early late) n := by decide
    exact hsame n hn
  · rw [(hnumbers n hn).1, (hnumbers n hn).2]

theorem reads_allLate :
    let x := history empty early 3 late
    (∀ f ∈ arrivedIn early late, f.seq < maxSeq) ∧ (∀ f ∈ arrivedIn [] allLate, f.seq < maxSeq) ∧
      x.delivered = [numbered 3 4] ∧ Reads x 3 (arrivedIn early late) 9 ∧
        history (startQueuing ⟨8, 9, [], false⟩) [] 3 allLate = x := by
  intro x
  have hseq : ∀ f ∈ arrivedIn early late, f.seq < maxSeq := by decide
  have hseq' : ∀ f ∈ arrivedIn [] allLate, f.seq < maxSeq := by decide
  obtain ⟨hreads, hsame⟩ := reads_history (Or.inl rfl) (Or.inr ⟨⟨8, 9, [], false⟩, rfl⟩) early [] 3 late allLate hseq hseq'
  exact ⟨hseq, hseq', by decide, hreads, (hsame (by decide)).2 first?_allLate⟩

end ReliableMulticast.Arrivals
