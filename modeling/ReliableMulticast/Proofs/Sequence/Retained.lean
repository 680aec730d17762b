import Mathlib.Data.List.Basic
import ReliableMulticast.Sequence.Arrivals
import ReliableMulticast.Sequence.Retained

/-!
# The window over what was pushed

A window knows the number of the next frame and the frames that it keeps; where it begins follows from the two. A `Past` is
a window together with all that was pushed to it since it last began anew. `Windows x` says that the window is the end of its
past:

* its numbers are those from the tail up to the head, and the tail is not before the number it began with;
* each frame that it keeps is the one that was pushed under its number (`Past.under?`).

Both follow from what one operation does (`Windows.step`). Where a range begins and how long it is comes out of the head and
the number of frames in machine words, with a sum that stops at the largest one. `rangeInWords?` has an answer only if no
difference is below zero and no place outside of the window, and `rangeInWords?_eq` says that it always has the right one.

Main statement (`windows_run`): this is so after any operations, the tail only moves on between two resets, and trims and
ranges are exact.
-/

namespace ReliableMulticast

/-- The frame under this number. -/
def Frame.numbered (f : Frame) (n : Nat) : Frame := { f with header := { f.header with seq := .ofNat n } }

theorem Frame.seq_numbered (f : Frame) {n : Nat} (hn : n ≤ Arrivals.maxSeq) : (f.numbered n).seq = n :=
  UInt64.toNat_ofNat_of_lt' (Nat.lt_succ_of_le hn)

namespace Retained

/-! ### Histories -/

/-- What is done to a window. -/
inductive Op
  | push (f : Frame)
  | trim (max : Nat)
  | reset (first : Nat)
deriving DecidableEq, Repr, Inhabited

/-- A window and where it comes from. -/
structure Past where
  window : Retained
  /-- The number with which it last began anew. -/
  first : Nat
  /-- What was pushed since then, oldest first. -/
  pushed : List Frame
deriving DecidableEq, Repr, Inhabited

namespace Past

def begin (first : Nat) : Past := ⟨.startingAt first, first, []⟩

def step (x : Past) : Op → Past
  | .push f => { x with window := x.window.push f, pushed := x.pushed ++ [f] }
  | .trim max => { x with window := x.window.trim max }
  | .reset first => ⟨x.window.reset first, first, []⟩

def run (x : Past) (ops : List Op) : Past := ops.foldl step x

theorem run_append (x : Past) (ops ops' : List Op) : x.run (ops ++ ops') = (x.run ops).run ops' := List.foldl_append

/-- The frame that was pushed under a number. -/
def under? (x : Past) (n : Nat) : Option Frame :=
  if n < x.first then none else x.pushed[n - x.first]?.map (·.numbered n)

/-- The numbers that operations use are below the largest one. -/
def Fits (x : Past) : List Op → Prop
  | [] => True
  | .push f :: rest => x.window.head < Arrivals.maxSeq ∧ (x.step (.push f)).Fits rest
  | .trim max :: rest => (x.step (.trim max)).Fits rest
  | .reset first :: rest => first ≤ Arrivals.maxSeq ∧ (x.step (.reset first)).Fits rest

instance decidableFits : ∀ (x : Past) (ops : List Op), Decidable (x.Fits ops)
  | _, [] => .isTrue trivial
  | x, .push f :: rest =>
    have := decidableFits (x.step (.push f)) rest
    inferInstanceAs (Decidable (_ ∧ _))
  | x, .trim max :: rest => decidableFits (x.step (.trim max)) rest
  | x, .reset first :: rest =>
    have := decidableFits (x.step (.reset first)) rest
    inferInstanceAs (Decidable (_ ∧ _))

end Past

/-! ### The end of the past -/

structure Windows (x : Past) : Prop where
  head : x.window.head = x.first + x.pushed.length
  length_le : x.window.length ≤ x.pushed.length
  head_le : x.window.head ≤ Arrivals.maxSeq
  frames : x.window.frames.map some = (List.range' x.window.tail x.window.length).map x.under?

section Views

variable (r : Retained)

theorem length_frames : r.frames.length = r.length := List.length_reverse

theorem length_trim (max : Nat) : (r.trim max).length = min r.length max := by
  simp [length, trim, Nat.min_comm]

theorem frames_trim (max : Nat) : (r.trim max).frames = r.frames.drop (r.length - max) := by
  unfold trim frames length
  rw [List.drop_reverse, List.reverse_inj, List.take_eq_take_iff]
  omega

theorem tail_push (f : Frame) : (r.push f).tail = r.tail := by
  unfold tail
  rw [length_push]
  exact Nat.add_sub_add_right r.head 1 r.length

theorem tail_trim (max : Nat) : (r.trim max).tail = r.head - min r.length max := by
  unfold tail
  rw [length_trim]
  rfl

end Views

section Windows

variable {x : Past}

theorem Windows.tail_add_length (h : Windows x) : x.window.tail + x.window.length = x.window.head := by
  have := h.head
  have := h.length_le
  unfold tail
  omega

theorem Windows.first_le (h : Windows x) : x.first ≤ x.window.tail := by
  have := h.head
  have := h.length_le
  unfold tail
  omega

theorem windows_begin {first : Nat} (hfirst : first ≤ Arrivals.maxSeq) : Windows (.begin first) :=
  ⟨rfl, Nat.le_refl _, hfirst, rfl⟩

/-- What was pushed before stays under its number. -/
theorem under?_push_of_lt {f : Frame} {n : Nat} (hn : n < x.first + x.pushed.length) :
    (x.step (.push f)).under? n = x.under? n := by
  unfold Past.under? Past.step
  dsimp only
  split
  · rfl
  · rw [List.getElem?_append_left (by omega)]

theorem under?_push_self (f : Frame) :
    (x.step (.push f)).under? (x.first + x.pushed.length) = some (f.numbered (x.first + x.pushed.length)) := by
  simp [Past.under?, Past.step]

theorem Windows.push (h : Windows x) {f : Frame} (hlt : x.window.head < Arrivals.maxSeq) :
    Windows (x.step (.push f)) := by
  have htail := h.tail_add_length
  have hhead := h.head
  refine ⟨?_, ?_, hlt, ?_⟩
  · show x.window.head + 1 = x.first + (x.pushed ++ [f]).length
    rw [List.length_append, List.length_singleton, hhead, Nat.add_assoc]
  · show (x.window.push f).length ≤ (x.pushed ++ [f]).length
    rw [length_push, List.length_append, List.length_singleton]
    exact Nat.succ_le_succ h.length_le
  · have hbefore : (List.range' x.window.tail x.window.length).map (x.step (.push f)).under? =
        (List.range' x.window.tail x.window.length).map x.under? := by
      refine List.map_congr_left fun n hn => under?_push_of_lt ?_
      have := (List.mem_range'_1.1 hn).2
      omega
    have hlast : (x.step (.push f)).under? x.window.head = some (x.window.stamp f) := by
      rw [hhead, under?_push_self, ← hhead]
      rfl
    show (x.window.push f).frames.map some =
      (List.range' (x.window.push f).tail (x.window.push f).length).map (x.step (.push f)).under?
    rw [frames_push, tail_push, length_push, List.range'_1_concat, List.map_append, List.map_append, h.frames, hbefore,
      htail, List.map_singleton, List.map_singleton, hlast]

theorem Windows.trim (h : Windows x) (max : Nat) : Windows (x.step (.trim max)) := by
  have htail := h.tail_add_length
  refine ⟨h.head, ?_, h.head_le, ?_⟩
  · show (x.window.trim max).length ≤ x.pushed.length
    rw [length_trim]
    exact Nat.le_trans (Nat.min_le_left _ _) h.length_le
  · show (x.window.trim max).frames.map some =
      (List.range' (x.window.trim max).tail (x.window.trim max).length).map x.under?
    rw [frames_trim, List.map_drop, h.frames, ← List.map_drop, List.drop_range', Nat.mul_one, tail_trim, length_trim]
    congr 2 <;> omega

theorem Windows.step (h : Windows x) {op : Op} {rest : List Op} (hfits : x.Fits (op :: rest)) :
    Windows (x.step op) ∧ (x.step op).Fits rest := by
  cases op with
  | push f => exact ⟨h.push hfits.1, hfits.2⟩
  | trim max => exact ⟨h.trim max, hfits⟩
  | reset first => exact ⟨windows_begin hfits.1, hfits.2⟩

theorem Windows.run (h : Windows x) {ops : List Op} (hfits : x.Fits ops) : Windows (x.run ops) := by
  induction ops generalizing x with
  | nil => exact h
  | cons op rest ih =>
    obtain ⟨hstep, hrest⟩ := h.step hfits
    exact ih hstep hrest

theorem Windows.map_seq (h : Windows x) : x.window.frames.map (·.seq) = List.range' x.window.tail x.window.length := by
  refine List.ext_getElem? fun i => ?_
  have hi := congrArg (·[i]?) h.frames
  simp only [List.getElem?_map] at hi ⊢
  by_cases hlt : i < x.window.length
  · have hnumber : x.window.tail + i ≤ Arrivals.maxSeq := by
      have hhead := h.tail_add_length
      have hmax := h.head_le
      omega
    rw [List.getElem?_range' hlt, Option.map_some, Nat.one_mul] at hi
    rw [List.getElem?_range' hlt, Nat.one_mul]
    obtain ⟨f, hf, hunder⟩ := Option.map_eq_some_iff.1 hi
    unfold Past.under? at hunder
    split at hunder
    · cases hunder
    · obtain ⟨g, -, rfl⟩ := Option.map_eq_some_iff.1 hunder.symm
      rw [hf, Option.map_some, g.seq_numbered hnumber]
  · rw [List.getElem?_eq_none (by rw [length_frames]; omega), List.getElem?_eq_none (by rw [List.length_range']; omega)]
    rfl

/-! ### The tail -/

theorem tail_le_step (op : Op) (hop : ∀ first, op ≠ .reset first) : x.window.tail ≤ (x.step op).window.tail := by
  cases op with
  | push f => exact Nat.le_of_eq (tail_push x.window f).symm
  | trim max =>
    show x.window.tail ≤ (x.window.trim max).tail
    rw [tail_trim]
    exact Nat.sub_le_sub_left (Nat.min_le_left _ _) _
  | reset first => exact absurd rfl (hop first)

theorem tail_le_run {ops : List Op} (hops : ∀ first, .reset first ∉ ops) : x.window.tail ≤ (x.run ops).window.tail := by
  induction ops generalizing x with
  | nil => exact Nat.le_refl _
  | cons op rest ih =>
    have hop : ∀ first, op ≠ .reset first := fun first h => hops first (h ▸ List.mem_cons_self)
    exact Nat.le_trans (tail_le_step op hop) (ih fun first h => hops first (List.mem_cons_of_mem _ h))

end Windows

/-! ### Ranges -/

/-- A piece of consecutive frames holds those with numbers from `lo` up to `hi`. -/
theorem piece_eq_filter {l : List Frame} {start : Nat} (hl : l.map (·.seq) = List.range' start l.length) (lo hi : Nat) :
    (l.drop (max lo start - start)).take (min hi (start + l.length) - max lo start) =
      l.filter fun f => lo ≤ f.seq && f.seq < hi := by
  induction l generalizing start with
  | nil => simp
  | cons f rest ih =>
    rw [List.length_cons, List.range'_succ, List.map_cons] at hl
    obtain ⟨hf, hrest⟩ := List.cons.inj hl
    have hpiece := ih hrest
    rw [List.filter_cons, ← hpiece, hf, List.length_cons]
    rcases Nat.lt_or_ge start lo with hbelow | hfrom
    · -- the first frame comes before the range
      rw [if_neg (by simp; omega), Nat.max_eq_left (by omega), Nat.max_eq_left (by omega),
        show lo - start = lo - (start + 1) + 1 by omega, List.drop_succ_cons]
      congr 1
      omega
    · rw [Nat.max_eq_right hfrom, Nat.max_eq_right (by omega), Nat.sub_self, Nat.sub_self, List.drop_zero, List.drop_zero]
      rcases Nat.lt_or_ge start hi with hbefore | hbehind
      · rw [if_pos (by simp; omega), show min hi (start + (rest.length + 1)) - start =
          min hi (start + 1 + rest.length) - (start + 1) + 1 by omega, List.take_succ_cons]
      · -- the range ends before the first frame
        rw [if_neg (by simp; omega), show min hi (start + (rest.length + 1)) - start = 0 by omega,
          show min hi (start + 1 + rest.length) - (start + 1) = 0 by omega, List.take_zero, List.take_zero]

theorem Windows.range_eq {x : Past} (h : Windows x) (seq count : Nat) :
    x.window.range seq count = x.window.frames.filter fun f => seq ≤ f.seq && f.seq < seq + count := by
  have hseq : x.window.frames.map (·.seq) = List.range' x.window.tail x.window.frames.length := by
    rw [length_frames]
    exact h.map_seq
  rw [← piece_eq_filter hseq, length_frames, h.tail_add_length]
  rfl

/-- The frames of a range are in order. -/
theorem Windows.sorted_range {x : Past} (h : Windows x) (seq count : Nat) :
    (x.window.range seq count).Pairwise (·.seq < ·.seq) := by
  have hsorted : x.window.frames.Pairwise (·.seq < ·.seq) := by
    rw [← List.pairwise_map, h.map_seq]
    exact List.pairwise_lt_range'
  rw [h.range_eq]
  exact hsorted.filter _

/-! ### Ranges in machine words -/

/-- The difference, if it is not below zero. -/
def sub? (a b : UInt64) : Option UInt64 := if b ≤ a then some (a - b) else none

/-- The sum, or the largest number if it is larger. -/
def addUpTo (a b : UInt64) : UInt64 := if a ≤ a + b then a + b else .ofNat Arrivals.maxSeq

/-- The next `count` frames after the first `skip`, if there are so many. -/
def piece? (fs : List Frame) (skip count : UInt64) : Option (List Frame) :=
  if skip.toNat + count.toNat ≤ fs.length then some ((fs.drop skip.toNat).take count.toNat) else none

/-- A range, computed with all that could go wrong. -/
def rangeInWords? (r : Retained) (seq : UInt64) (count : UInt32) : Option (List Frame) := do
  let tail ← sub? (.ofNat r.head) (.ofNat r.length)
  let start := if tail ≤ seq then seq else tail
  let stop := if addUpTo seq count.toUInt64 ≤ .ofNat r.head then addUpTo seq count.toUInt64 else .ofNat r.head
  if start < stop then
    let skip ← sub? start tail
    let count ← sub? stop start
    piece? r.frames skip count
  else piece? r.frames 0 0

theorem toNat_addUpTo (a b : UInt64) : (addUpTo a b).toNat = min (a.toNat + b.toNat) Arrivals.maxSeq := by
  have ha := a.toNat_lt
  have hb := b.toNat_lt
  have hsum : (a + b).toNat = (a.toNat + b.toNat) % 2 ^ 64 := UInt64.toNat_add a b
  unfold addUpTo
  split
  · next hle =>
    rw [UInt64.le_iff_toNat_le, hsum] at hle
    rw [hsum]
    unfold Arrivals.maxSeq
    omega
  · next hlt =>
    rw [UInt64.le_iff_toNat_le, hsum] at hlt
    unfold Arrivals.maxSeq
    rw [UInt64.toNat_ofNat_of_lt' (by decide)]
    omega

theorem sub?_of_le {a b : UInt64} (h : b.toNat ≤ a.toNat) : ∃ d, sub? a b = some d ∧ d.toNat = a.toNat - b.toNat := by
  have hle : b ≤ a := UInt64.le_iff_toNat_le.2 h
  exact ⟨a - b, if_pos hle, UInt64.toNat_sub_of_le a b hle⟩

theorem toNat_larger (a b : UInt64) : (if a ≤ b then b else a).toNat = max a.toNat b.toNat := by
  split
  · next h => exact (Nat.max_eq_right (UInt64.le_iff_toNat_le.1 h)).symm
  · next h => exact (Nat.max_eq_left (Nat.le_of_not_le fun hle => h (UInt64.le_iff_toNat_le.2 hle))).symm

theorem toNat_smaller (a b : UInt64) : (if a ≤ b then a else b).toNat = min a.toNat b.toNat := by
  split
  · next h => exact (Nat.min_eq_left (UInt64.le_iff_toNat_le.1 h)).symm
  · next h => exact (Nat.min_eq_right (Nat.le_of_not_le fun hle => h (UInt64.le_iff_toNat_le.2 hle))).symm

/-- Nothing goes wrong in a window whose numbers fit. -/
theorem rangeInWords?_eq {r : Retained} (hlength : r.length ≤ r.head) (hhead : r.head ≤ Arrivals.maxSeq) (seq : UInt64)
    (count : UInt32) : r.rangeInWords? seq count = some (r.range seq.toNat count.toNat) := by
  have hwords : r.head < 2 ^ 64 := Nat.lt_succ_of_le hhead
  have hheadWord : (UInt64.ofNat r.head).toNat = r.head := UInt64.toNat_ofNat_of_lt' hwords
  have hlengthWord : (UInt64.ofNat r.length).toNat = r.length :=
    UInt64.toNat_ofNat_of_lt' (Nat.lt_of_le_of_lt hlength hwords)
  obtain ⟨tail, htail, htailWord⟩ := sub?_of_le (a := .ofNat r.head) (b := .ofNat r.length) (by omega)
  rw [hheadWord, hlengthWord] at htailWord
  have htailNat : tail.toNat = r.tail := htailWord
  unfold rangeInWords?
  rw [htail, Option.bind_eq_bind, Option.bind_some]
  dsimp only
  set start := if tail ≤ seq then seq else tail with hstart
  set stop := if addUpTo seq count.toUInt64 ≤ .ofNat r.head then addUpTo seq count.toUInt64 else .ofNat r.head with hstop
  have hstartWord : start.toNat = max seq.toNat r.tail := by
    rw [hstart, toNat_larger, htailNat, Nat.max_comm]
  have hstopWord : stop.toNat = min (seq.toNat + count.toNat) r.head := by
    rw [hstop, toNat_smaller, toNat_addUpTo, hheadWord, UInt32.toNat_toUInt64]
    omega
  have hframes := length_frames r
  split
  · next hlt =>
    rw [UInt64.lt_iff_toNat_lt] at hlt
    obtain ⟨skip, hskip, hskipWord⟩ := sub?_of_le (a := start) (b := tail) (by omega)
    obtain ⟨number, hnumber, hnumberWord⟩ := sub?_of_le (a := stop) (b := start) (by omega)
    rw [hskip, Option.bind_some, hnumber, Option.bind_some, piece?, if_pos (by omega), hskipWord, hnumberWord, hstartWord,
      hstopWord, htailNat]
    rfl
  · next hle =>
    rw [UInt64.lt_iff_toNat_lt, hstartWord, hstopWord] at hle
    have hempty : r.range seq.toNat count.toNat = [] := by
      unfold range
      dsimp only
      rw [Nat.sub_eq_zero_of_le (Nat.le_of_not_lt hle), List.take_zero]
    rw [hempty]
    simp [piece?]

/-- **The window over the past.** Let any operations be done to a window that begins with any number, as long as the numbers
fit. Then its frames are those pushed under the numbers from its tail up to its head since the last reset, in order, and the
tail has not moved back since then. A trim leaves the last ones, as many as it is to leave or all. And a range holds the
frames with the numbers asked for, in order, for any number and count, and nothing goes wrong when it is computed. -/
theorem windows_run (first : Nat) (hfirst : first ≤ Arrivals.maxSeq) (ops : List Op) (hops : (Past.begin first).Fits ops) :
    let x := (Past.begin first).run ops
    let r := x.window
    (r.tail ≤ r.head ∧ r.length = r.head - r.tail ∧ x.first ≤ r.tail ∧ r.head = x.first + x.pushed.length) ∧
      (r.frames.map (·.seq) = List.range' r.tail r.length ∧
        r.frames.map some = (List.range' r.tail r.length).map x.under?) ∧
      (∀ before after, ops = before ++ after → (∀ n, .reset n ∉ after) →
        ((Past.begin first).run before).window.tail ≤ r.tail) ∧
      (∀ max, (r.trim max).frames <:+ r.frames ∧ (r.trim max).frames.length = min r.length max ∧
        (r.trim max).head = r.head ∧ r.excess max + (r.trim max).length = r.length) ∧
      ∀ (seq : UInt64) (count : UInt32),
        r.rangeInWords? seq count =
            some (r.frames.filter fun f => seq.toNat ≤ f.seq && f.seq < seq.toNat + count.toNat) ∧
          r.range seq.toNat count.toNat =
            r.frames.filter (fun f => seq.toNat ≤ f.seq && f.seq < seq.toNat + count.toNat) ∧
          (r.range seq.toNat count.toNat).Pairwise (·.seq < ·.seq) := by
  intro x r
  have h : Windows x := (windows_begin hfirst).run hops
  have htail : r.tail + r.length = r.head := h.tail_add_length
  refine ⟨⟨by omega, by omega, h.first_le, h.head⟩, ⟨h.map_seq, h.frames⟩, ?_, fun max => ⟨?_, ?_, rfl, ?_⟩,
    fun seq count => ?_⟩
  · rintro before after rfl hafter
    have hrun : x = ((Past.begin first).run before).run after := Past.run_append _ before after
    show _ ≤ x.window.tail
    rw [hrun]
    exact tail_le_run hafter
  · rw [frames_trim]
    exact List.drop_suffix _ _
  · rw [length_frames, length_trim]
  · rw [length_trim]
    unfold excess
    omega
  · have hrange : r.range seq.toNat count.toNat = _ := h.range_eq seq.toNat count.toNat
    refine ⟨?_, hrange, h.sorted_range _ _⟩
    have hlength : r.length ≤ r.head := by omega
    rw [rangeInWords?_eq hlength h.head_le, hrange]

/-- The numbers come close to the largest one, and the window begins anew in between. -/
def restarted : List Op :=
  [.push default, .reset 0xfffffffffffffffb, .push default, .push default, .push default, .trim 2]

theorem windows_restarted :
    let x := (Past.begin 1).run restarted
    (Past.begin 1).Fits restarted ∧ x.window.frames.map (·.seq) = [0xfffffffffffffffc, 0xfffffffffffffffd] ∧
      x.window.rangeInWords? 0xfffffffffffffffd 0xffffffff = some [Frame.numbered default 0xfffffffffffffffd] ∧
      ((Past.begin 1).run (restarted.take 2)).window.tail ≤ x.window.tail := by
  intro x
  have hops : (Past.begin 1).Fits restarted := by decide
  obtain ⟨-, ⟨hseq, -⟩, htail, -, hranges⟩ := windows_run 1 (by decide) restarted hops
  refine ⟨hops, hseq, ?_, htail _ (restarted.drop 2) rfl (by simp [restarted])⟩
  rw [(hranges 0xfffffffffffffffd 0xffffffff).1]
  decide

end Retained

end ReliableMulticast
