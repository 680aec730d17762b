import Mathlib.Data.List.Nodup
import ReliableMulticast.Proofs.Sequence.History

/-!
# What a window misses

A window is asked to take frames, to note that numbers exist, and to begin and to end a snapshot. A `Journal` follows these
calls and keeps beside the window the numbers of all frames since the last snapshot began. What has arrived is held, or the
head has passed it. Only the end of a snapshot can take the head back: where it comes to a window that is live already and
names a number below its head, the window forgets what had arrived from there up to its head. These numbers are `rewound`,
until they arrive again.

`Sound a` is what every call keeps of the window alone: what is held lies between the head and the bound, and both are words.

Main statement (`gap_tells`): the gap of a live window begins at its head, ends at the first number that is held, or at the
bound if none is, and covers nothing that has arrived and was not rewound; and every call tells how it changed the gap. A
rewound number may well be covered (`gap_covers_rewound`).
-/

namespace ReliableMulticast.Arrivals

/-! ### Journals -/

/-- All that a window is asked for. -/
inductive Call
  | insert (f : Frame)
  | raiseBound (bound : UInt64)
  | startQueuing
  | stopQueuing (seq : UInt64)
deriving DecidableEq, Repr, Inhabited

def Call.frame? : Call → Option Frame
  | .insert f => some f
  | _ => none

/-- The call ends a snapshot below the head of a window that is live already. -/
def Call.rewinds (a : Arrivals) : Call → Bool
  | .stopQueuing seq => !a.queuing && decide (seq.toNat < a.head)
  | _ => false

structure Journal where
  window : Arrivals
  /-- The numbers of all frames since the last snapshot began, in the order in which they came. -/
  arrived : List Nat
  /-- Those of them that the head had passed before it went back, and that did not come again. -/
  rewound : List Nat
deriving DecidableEq, Repr, Inhabited

namespace Journal

def step (x : Journal) : Call → Journal
  | .insert f => ⟨(x.window.insert f).2, x.arrived ++ [f.seq], x.rewound.filter (· ≠ f.seq)⟩
  | .raiseBound bound => { x with window := (x.window.raiseBound bound.toNat).2 }
  | .startQueuing => ⟨x.window.startQueuing, [], []⟩
  | .stopQueuing seq =>
    { x with
      window := (x.window.stopQueuing seq.toNat).2
      rewound := x.rewound ++ x.arrived.filter fun n => seq.toNat ≤ n ∧ n < x.window.head }

/-- What becomes of a new window. -/
def run (calls : List Call) : Journal := calls.foldl step ⟨empty, [], []⟩

theorem run_concat (calls : List Call) (call : Call) : run (calls ++ [call]) = (run calls).step call := by
  simp [run]

end Journal

/-- No end of a snapshot takes the head back. -/
def Onward (calls : List Call) : Prop :=
  ∀ i (hi : i < calls.length), calls[i].rewinds (Journal.run (calls.take i)).window = false

instance : DecidablePred Onward := fun calls =>
  inferInstanceAs <| Decidable <| ∀ i (hi : i < calls.length),
    calls[i].rewinds (Journal.run (calls.take i)).window = false

theorem Onward.of_concat {calls : List Call} {call : Call} (h : Onward (calls ++ [call])) :
    Onward calls ∧ call.rewinds (Journal.run calls).window = false := by
  refine ⟨fun i hi => ?_, ?_⟩
  · have hi' : i < (calls ++ [call]).length := by
      rw [List.length_append]
      omega
    have hback := h i hi'
    rwa [List.getElem_append_left hi, List.take_append_of_le_length (Nat.le_of_lt hi)] at hback
  · have hback := h calls.length (by simp)
    rwa [List.getElem_concat_length rfl, List.take_left] at hback

/-! ### The window -/

structure Sound (a : Arrivals) : Prop where
  ordered : a.Ordered
  head_le : a.head ≤ a.bound
  known : ∀ f ∈ a.pending, f.seq < a.bound
  fits : a.bound ≤ maxSeq
  /-- Nothing is handed over before the end of the snapshot. -/
  waits : a.queuing = true → a.head = 0

theorem sound_empty : empty.Sound :=
  ⟨ordered_empty, Nat.le_refl _, by rintro f ⟨⟩, Nat.zero_le _, fun _ => rfl⟩

section Sound

variable {a : Arrivals}

/-- Where the head runs over what is complete, it does not run over the bound. -/
theorem head_deliver_le (hle : a.head ≤ a.bound) (hknown : ∀ f ∈ a.pending, f.seq < a.bound) :
    a.deliver.2.head ≤ a.bound := by
  show a.head + (run a.head a.pending).1.length ≤ a.bound
  rcases Nat.eq_zero_or_pos (run a.head a.pending).1.length with hnone | hsome
  · rw [hnone]
    exact hle
  · have hlast : a.head + (run a.head a.pending).1.length - 1 ∈ (run a.head a.pending).1.map (·.seq) := by
      rw [run_numbered, List.mem_range'_1]
      omega
    obtain ⟨f, hf, hseq⟩ := List.mem_map.1 hlast
    have hmem : f ∈ a.pending := by
      rw [← run_append a.head a.pending]
      exact List.mem_append_left _ hf
    have := hknown f hmem
    omega

theorem mem_pending_of_deliver {f : Frame} (h : f ∈ a.deliver.2.pending) : f ∈ a.pending := by
  rw [← run_append a.head a.pending]
  exact List.mem_append_right _ h

theorem sound_deliver (hl : a.queuing = false) (hs : a.pending.Pairwise (·.seq < ·.seq))
    (hahead : ∀ f ∈ a.pending, a.head ≤ f.seq) (hle : a.head ≤ a.bound) (hknown : ∀ f ∈ a.pending, f.seq < a.bound)
    (hfits : a.bound ≤ maxSeq) : a.deliver.2.Sound where
  ordered := (advance_deliver hl hs hahead).ordered
  head_le := head_deliver_le hle hknown
  known := fun f hf => hknown f (mem_pending_of_deliver hf)
  fits := hfits
  waits := by
    intro hq
    have hq : a.queuing = true := hq
    rw [hl] at hq
    cases hq

theorem known_place {f : Frame} (hf : f.seq < maxSeq) (hknown : ∀ g ∈ a.pending, g.seq < a.bound) :
    ∀ g ∈ place f a.pending, g.seq < max a.bound (boundAfter f.seq) := by
  intro g hg
  rw [boundAfter_of_lt hf]
  rcases mem_place hg with rfl | hg
  · omega
  · have := hknown g hg
    omega

theorem insert_of_queuing (hq : a.queuing = true) (f : Frame) : a.insert f =
    (.nothing, { a with bound := max a.bound (boundAfter f.seq), pending := place f a.pending }) := by
  unfold insert
  exact if_pos hq

theorem Sound.insert (h : a.Sound) {f : Frame} (hf : f.seq < maxSeq) : (a.insert f).2.Sound := by
  have hle : a.head ≤ max a.bound (boundAfter f.seq) := Nat.le_trans h.head_le (Nat.le_max_left _ _)
  have hfits : max a.bound (boundAfter f.seq) ≤ maxSeq := Nat.max_le.2 ⟨h.fits, Nat.min_le_right _ _⟩
  cases hq : a.queuing with
  | true =>
    have hordered := (advance_insert h.ordered f).ordered
    rw [insert_of_queuing hq] at hordered ⊢
    exact ⟨hordered, hle, known_place hf h.known, hfits, h.waits⟩
  | false =>
    rcases insert_cases hq f with ⟨-, hi⟩ | ⟨hnew, raised, rfl, hi⟩ <;> rw [hi]
    · exact h
    · refine sound_deliver hq (place_sorted f h.ordered.sorted) (fun g hg => ?_) hle (known_place hf h.known) hfits
      show a.head ≤ g.seq
      rcases mem_place hg with rfl | hg
      · by_contra hlt
        exact hnew (Or.inl (Nat.lt_of_not_le hlt))
      · exact Nat.le_of_lt (h.ordered.ahead hq g hg)

theorem raiseBound_cases (a : Arrivals) (bound : Nat) :
    (a.raiseBound bound).2 = a ∨ (a.raiseBound bound).2 = { a with bound := max a.bound bound } := by
  unfold raiseBound
  split
  · exact Or.inl rfl
  · exact Or.inr rfl

theorem Sound.raiseBound (h : a.Sound) {bound : Nat} (hbound : bound ≤ maxSeq) : (a.raiseBound bound).2.Sound := by
  rcases a.raiseBound_cases bound with hr | hr <;> rw [hr]
  · exact h
  · refine ⟨⟨h.ordered.sorted, h.ordered.ahead⟩, ?_, fun f hf => ?_, Nat.max_le.2 ⟨h.fits, hbound⟩, h.waits⟩
    · exact Nat.le_trans h.head_le (Nat.le_max_left _ _)
    · exact Nat.lt_of_lt_of_le (h.known f hf) (Nat.le_max_left _ _)

theorem Sound.stopQueuing (h : a.Sound) {seq : Nat} (hseq : seq ≤ maxSeq) : (a.stopQueuing seq).2.Sound := by
  show (a.cutAt seq).deliver.2.Sound
  refine sound_deliver rfl (h.ordered.sorted.filter _) (fun f hf => ?_) (Nat.le_max_right _ _) (fun f hf => ?_)
    (Nat.max_le.2 ⟨h.fits, hseq⟩)
  · simpa [cutAt] using (List.mem_filter.1 hf).2
  · exact Nat.lt_of_lt_of_le (h.known f (mem_of_mem_cutAt hf)) (Nat.le_max_left _ _)

/-! ### Its gap -/

/-- The frames that are held come after the first of them. -/
theorem edge_eq (ho : a.Ordered) :
    (a.pending = [] → a.edge = a.bound) ∧ (a.pending ≠ [] → IsLeast {n | a.holds n = true} a.edge) := by
  have hsorted := ho.sorted
  unfold edge
  cases hp : a.pending with
  | nil => exact ⟨fun _ => rfl, fun hne => absurd rfl hne⟩
  | cons first rest =>
    rw [hp] at hsorted
    refine ⟨nofun, fun _ => ⟨?_, fun n hn => ?_⟩⟩
    · show a.holds first.seq = true
      rw [holds_iff, hp]
      exact List.mem_map.2 ⟨first, List.mem_cons_self, rfl⟩
    · have hn : a.holds n = true := hn
      rw [holds_iff, hp] at hn
      obtain ⟨f, hf, rfl⟩ := List.mem_map.1 hn
      exact seq_first_le hsorted f hf

theorem Sound.edge_le_head_iff (h : a.Sound) (hl : a.queuing = false) : a.edge ≤ a.head ↔ a.head = a.bound := by
  have hle := h.head_le
  unfold edge
  cases hp : a.pending with
  | nil =>
    show a.bound ≤ a.head ↔ _
    omega
  | cons first rest =>
    have hmem : first ∈ a.pending := by simp [hp]
    have hahead := h.ordered.ahead hl first hmem
    have hknown := h.known first hmem
    show first.seq ≤ a.head ↔ _
    omega

theorem Sound.isEmpty_gap (h : a.Sound) (hl : a.queuing = false) : a.gap.isEmpty = true ↔ a.head = a.bound := by
  rw [gap_of_live hl, Gap.isEmpty_between, decide_eq_true_iff]
  exact h.edge_le_head_iff hl

theorem Sound.gap_eq (h : a.Sound) (hl : a.queuing = false) (hne : a.head ≠ a.bound) :
    a.head < a.edge ∧ a.gap = ⟨a.head, min (a.edge - a.head) Gap.maxCount⟩ := by
  have hlt : ¬ a.edge ≤ a.head := fun hle => hne ((h.edge_le_head_iff hl).1 hle)
  refine ⟨Nat.lt_of_not_le hlt, ?_⟩
  rw [gap_of_live hl]
  exact if_neg hlt

/-- What the window has lies outside the gap. -/
theorem Sound.not_contains (h : a.Sound) (hl : a.queuing = false) {n : Nat} (hn : a.Has n) : a.gap.contains n = false := by
  rw [Gap.contains, stop_gap h.known h.fits, Bool.and_eq_false_iff, decide_eq_false_iff_not, decide_eq_false_iff_not]
  by_cases hnone : a.head = a.bound
  · rw [Gap.count_of_isEmpty ((h.isEmpty_gap hl).2 hnone)]
    omega
  · obtain ⟨-, hgap⟩ := h.gap_eq hl hnone
    rw [hgap]
    by_cases hle : a.head ≤ n
    · have hedge := edge_le_of_has h.ordered hn hle
      refine Or.inr ?_
      show ¬ n < a.head + min (a.edge - a.head) Gap.maxCount
      omega
    · exact Or.inl hle

end Sound

/-! ### What has arrived -/

/-- The window has all that has arrived and was not rewound, and it holds nothing else. -/
structure Journal.Kept (x : Journal) : Prop where
  sound : x.window.Sound
  has : ∀ n ∈ x.arrived, n ∉ x.rewound → x.window.Has n
  held : ∀ f ∈ x.window.pending, f.seq ∈ x.arrived

section Kept

variable {x : Journal}

theorem has_insert_of_queuing {a : Arrivals} (hq : a.queuing = true) (f : Frame) (n : Nat) :
    (a.insert f).2.Has n ↔ n = f.seq ∨ a.Has n := by
  rw [insert_of_queuing hq]
  show n < a.head ∨ n ∈ (place f a.pending).map (·.seq) ↔ n = f.seq ∨ n < a.head ∨ n ∈ a.pending.map (·.seq)
  rw [mem_map_seq_place, or_left_comm]

/-- The end of a snapshot forgets only numbers that the head has passed, from its own on. -/
theorem has_stopQueuing {a : Arrivals} {n seq : Nat} (hn : a.Has n) (hback : ¬ (seq ≤ n ∧ n < a.head)) :
    (a.stopQueuing seq).2.Has n := by
  show (a.cutAt seq).deliver.2.Has n
  rw [has_deliver]
  by_cases hlt : n < seq
  · exact Or.inl hlt
  · have hle : seq ≤ n := Nat.le_of_not_lt hlt
    obtain ⟨f, hf, rfl⟩ := List.mem_map.1 (hn.resolve_left fun hbelow => hback ⟨hle, hbelow⟩)
    exact Or.inr (List.mem_map.2 ⟨f, List.mem_filter.2 ⟨hf, by simpa using hle⟩, rfl⟩)

theorem mem_pending_of_stopQueuing {a : Arrivals} {seq : Nat} {f : Frame} (h : f ∈ (a.stopQueuing seq).2.pending) :
    f ∈ a.pending :=
  mem_of_mem_cutAt (mem_pending_of_deliver (a := a.cutAt seq) h)

theorem Journal.Kept.insert (h : x.Kept) {f : Frame} (hf : f.seq < maxSeq) : (x.step (.insert f)).Kept where
  sound := h.sound.insert hf
  has := by
    intro n hn hback
    have hhas : (x.window.insert f).2.Has n ↔ n = f.seq ∨ x.window.Has n := by
      cases hq : x.window.queuing with
      | true => exact has_insert_of_queuing hq f n
      | false => exact has_insert hq f n
    refine hhas.2 ?_
    by_cases hsame : n = f.seq
    · exact Or.inl hsame
    · have hold : n ∈ x.arrived := (List.mem_append.1 hn).resolve_right fun hnew => hsame (List.mem_singleton.1 hnew)
      exact Or.inr (h.has n hold fun hmem => hback (List.mem_filter.2 ⟨hmem, by simpa using hsame⟩))
  held := by
    intro g hg
    rcases (advance_insert h.sound.ordered f).origin g (List.mem_append_right _ hg) with hnew | hold
    · exact List.mem_append_right _ (List.mem_singleton.2 (congrArg Frame.seq (List.mem_singleton.1 hnew)))
    · exact List.mem_append_left _ (h.held g hold)

theorem Journal.Kept.raiseBound (h : x.Kept) (bound : UInt64) : (x.step (.raiseBound bound)).Kept where
  sound := h.sound.raiseBound (Nat.le_of_lt_succ (UInt64.toNat_lt bound))
  has := by
    intro n hn hback
    have hhas := h.has n hn hback
    show (x.window.raiseBound bound.toNat).2.Has n
    rcases x.window.raiseBound_cases bound.toNat with hr | hr <;> rw [hr] <;> exact hhas
  held := by
    intro f hf
    refine h.held f ?_
    have hf : f ∈ (x.window.raiseBound bound.toNat).2.pending := hf
    rcases x.window.raiseBound_cases bound.toNat with hr | hr <;> rw [hr] at hf <;> exact hf

theorem Journal.Kept.stopQueuing (h : x.Kept) (seq : UInt64) : (x.step (.stopQueuing seq)).Kept where
  sound := h.sound.stopQueuing (Nat.le_of_lt_succ (UInt64.toNat_lt seq))
  has := by
    intro n hn hback
    obtain ⟨hold, hnew⟩ := not_or.1 (List.mem_append.not.1 hback)
    refine has_stopQueuing (h.has n hn hold) fun hpassed => hnew (List.mem_filter.2 ⟨hn, ?_⟩)
    simpa using hpassed
  held := fun f hf => h.held f (mem_pending_of_stopQueuing hf)

theorem fits_of_concat {calls : List Call} {call : Call}
    (h : ∀ f ∈ (calls ++ [call]).filterMap Call.frame?, f.seq < maxSeq) :
    (∀ f ∈ calls.filterMap Call.frame?, f.seq < maxSeq) ∧ ∀ f ∈ call.frame?, f.seq < maxSeq := by
  rw [List.filterMap_append] at h
  refine ⟨fun f hf => h f (List.mem_append_left _ hf), fun f hf => h f (List.mem_append_right _ ?_)⟩
  exact List.mem_filterMap.2 ⟨call, List.mem_singleton.2 rfl, hf⟩

theorem Journal.Kept.run {calls : List Call} (hseq : ∀ f ∈ calls.filterMap Call.frame?, f.seq < maxSeq) :
    (Journal.run calls).Kept := by
  induction calls using List.reverseRecOn with
  | nil => exact ⟨sound_empty, by rintro n ⟨⟩, by rintro f ⟨⟩⟩
  | append_singleton calls call ih =>
    obtain ⟨hcalls, hcall⟩ := fits_of_concat hseq
    have hbefore := ih hcalls
    rw [Journal.run_concat]
    cases call with
    | insert f => exact hbefore.insert (hcall f rfl)
    | raiseBound bound => exact hbefore.raiseBound bound
    | startQueuing => exact ⟨sound_empty, by rintro n ⟨⟩, by rintro f ⟨⟩⟩
    | stopQueuing seq => exact hbefore.stopQueuing seq

/-- As long as the head does not go back, nothing is rewound. -/
theorem Onward.rewound_eq_nil {calls : List Call} (h : Onward calls)
    (hseq : ∀ f ∈ calls.filterMap Call.frame?, f.seq < maxSeq) : (Journal.run calls).rewound = [] := by
  induction calls using List.reverseRecOn with
  | nil => rfl
  | append_singleton calls call ih =>
    obtain ⟨hcalls, hcall⟩ := h.of_concat
    obtain ⟨hbefore, -⟩ := fits_of_concat hseq
    have hnone := ih hcalls hbefore
    rw [Journal.run_concat]
    cases call with
    | insert f => simp [Journal.step, hnone]
    | raiseBound bound => exact hnone
    | startQueuing => rfl
    | stopQueuing seq =>
      have hle : (Journal.run calls).window.head ≤ seq.toNat := by
        cases hq : (Journal.run calls).window.queuing with
        | true =>
          rw [(Journal.Kept.run hbefore).sound.waits hq]
          exact Nat.zero_le _
        | false => simpa [Call.rewinds, hq] using hcall
      have hfilter : ((Journal.run calls).arrived.filter fun n =>
          seq.toNat ≤ n ∧ n < (Journal.run calls).window.head) = [] := by
        rw [List.filter_eq_nil_iff]
        intro n hn
        rw [decide_eq_true_iff]
        omega
      show (Journal.run calls).rewound ++ _ = []
      rw [hnone, hfilter, List.append_nil]

end Kept

/-! ### What the gap tells -/

/-- What the fields of a live window and its gap say about the numbers that have arrived. -/
structure Tells (a : Arrivals) (arrived rewound : List Nat) : Prop where
  head_le : a.head ≤ a.bound
  sorted : a.pending.Pairwise (·.seq < ·.seq)
  /-- A number that is held is that of one frame, which has arrived. -/
  held : ∀ n, a.holds n = true → a.head < n ∧ n < a.bound ∧ n ∈ arrived ∧ ∃! f, f ∈ a.pending ∧ f.seq = n
  isEmpty : a.gap.isEmpty = true ↔ a.head = a.bound
  start : a.gap.isEmpty = false → a.gap.start = a.head
  misses : ∀ n ∈ arrived, n ∉ rewound → a.gap.contains n = false
  /-- The gap ends where it is to end, unless it would be longer than the largest count. -/
  stop : a.gap.isEmpty = false → a.gap.stop = a.edge ∨ a.gap.count = Gap.maxCount ∧ a.gap.stop < a.edge
  edge : (a.pending = [] → a.edge = a.bound) ∧ (a.pending ≠ [] → IsLeast {n | a.holds n = true} a.edge)

/-- What is told of two gaps, one after the other. -/
def Reports (change : Option GapChange) (before now : Gap) : Prop :=
  (before ≠ now → change = some ⟨before, now⟩) ∧ (before = now → change = none)

theorem reports_of (before now : Gap) : Reports (GapChange.of before now) before now :=
  ⟨fun hne => if_neg hne, fun heq => if_pos heq⟩

theorem existsUnique_of_holds {a : Arrivals} (hs : a.pending.Pairwise (·.seq < ·.seq)) {n : Nat} (h : a.holds n = true) :
    ∃! f, f ∈ a.pending ∧ f.seq = n := by
  obtain ⟨f, hf, hseq⟩ := List.mem_map.1 ((a.holds_iff n).1 h)
  have hnodup : (a.pending.map (·.seq)).Nodup := List.pairwise_map.2 (hs.imp Nat.ne_of_lt)
  refine ⟨f, ⟨hf, hseq⟩, ?_⟩
  rintro g ⟨hg, hgseq⟩
  exact List.inj_on_of_nodup_map hnodup hg hf (hgseq.trans hseq.symm)

theorem Journal.Kept.tells {x : Journal} (h : x.Kept) (hl : x.window.queuing = false) :
    Tells x.window x.arrived x.rewound where
  head_le := h.sound.head_le
  sorted := h.sound.ordered.sorted
  held := by
    intro n hn
    obtain ⟨f, hf, rfl⟩ := List.mem_map.1 ((x.window.holds_iff n).1 hn)
    exact ⟨h.sound.ordered.ahead hl f hf, h.sound.known f hf, h.held f hf,
      existsUnique_of_holds h.sound.ordered.sorted hn⟩
  isEmpty := h.sound.isEmpty_gap hl
  start := by
    intro hgap
    have hne : x.window.head ≠ x.window.bound := fun heq => by simp [(h.sound.isEmpty_gap hl).2 heq] at hgap
    rw [(h.sound.gap_eq hl hne).2]
  misses := fun n hn hback => h.sound.not_contains hl (h.has n hn hback)
  stop := by
    intro hgap
    have hne : x.window.head ≠ x.window.bound := fun heq => by simp [(h.sound.isEmpty_gap hl).2 heq] at hgap
    obtain ⟨hlt, heq⟩ := h.sound.gap_eq hl hne
    rw [stop_gap h.sound.known h.sound.fits, heq]
    show x.window.head + min (x.window.edge - x.window.head) Gap.maxCount = x.window.edge ∨
      min (x.window.edge - x.window.head) Gap.maxCount = Gap.maxCount ∧
        x.window.head + min (x.window.edge - x.window.head) Gap.maxCount < x.window.edge
    omega
  edge := edge_eq h.sound.ordered

/-- **The gap.** Let any calls be made to a new window, as long as the numbers of the frames fit. Then in a live window
the numbers that are held lie between head and bound, each with its one frame. The gap is empty exactly if the head has come
to the bound. Otherwise it begins at the head, covers no number that has arrived, but for those that were rewound, of which
there are none as long as no end of a snapshot takes the head back, and ends at the first number that is held, or at the
bound if none is, unless this is more than a gap can count. And in every state of a window, a frame, a bound and the end of a
snapshot are answered with the gaps before and after exactly if these differ. -/
theorem gap_tells (calls : List Call) (hseq : ∀ f ∈ calls.filterMap Call.frame?, f.seq < maxSeq) :
    let x := Journal.run calls
    (x.window.queuing = false → Tells x.window x.arrived x.rewound) ∧
      (Onward calls → x.rewound = []) ∧
      ∀ a : Arrivals,
        (∀ f, Reports (a.insert f).1.gapChange a.gap (a.insert f).2.gap) ∧
        (∀ bound, Reports (a.raiseBound bound).1 a.gap (a.raiseBound bound).2.gap) ∧
        ∀ seq, a.queuing = true → Reports (a.stopQueuing seq).1.gapChange a.gap (a.stopQueuing seq).2.gap := by
  intro x
  refine ⟨(Journal.Kept.run hseq).tells, fun h => h.rewound_eq_nil hseq,
    fun a => ⟨fun f => ?_, fun bound => ?_, fun seq hq => ?_⟩⟩
  · rw [gapChange_insert]
    exact reports_of _ _
  · rw [gapChange_raiseBound]
    exact reports_of _ _
  · have hnone : a.gap = Gap.none := by simp [gap, hq]
    rw [gapChange_stopQueuing, hnone]
    exact reports_of _ _

/-- A second snapshot ends, and then a frame comes from so far ahead that no gap can count up to it. -/
def farAhead : List Call :=
  [.insert (numbered 8 1), .stopQueuing 2, .startQueuing, .insert (numbered 5 2), .raiseBound 50, .insert (numbered 3 3),
    .insert (numbered 3 4), .insert (numbered 1 5), .stopQueuing 3, .raiseBound 9, .insert (numbered 4 6),
    .insert (numbered 0x10000000000 7)]

theorem tells_farAhead :
    let x := Journal.run farAhead
    let a := (Journal.run (farAhead.take 11)).window
    (∀ f ∈ farAhead.filterMap Call.frame?, f.seq < maxSeq) ∧ x.window.queuing = false ∧ Onward farAhead ∧
      Tells x.window x.arrived [] ∧ x.arrived = [5, 3, 3, 1, 4, 0x10000000000] ∧ x.window.gap = ⟨6, Gap.maxCount⟩ ∧
      a.gap = ⟨6, 3⟩ ∧ (a.insert (numbered 0x10000000000 7)).1.gapChange = some ⟨a.gap, x.window.gap⟩ := by
  intro x a
  have hseq : ∀ f ∈ farAhead.filterMap Call.frame?, f.seq < maxSeq := by decide
  have hlive : x.window.queuing = false := by decide
  have honward : Onward farAhead := by decide +kernel
  have hchange : a.gap ≠ (a.insert (numbered 0x10000000000 7)).2.gap := by decide
  obtain ⟨htells, hrewound, hreports⟩ := gap_tells farAhead hseq
  obtain ⟨hinsert, -, -⟩ := hreports a
  refine ⟨hseq, hlive, honward, ?_, by decide, by decide, by decide, (hinsert _).1 hchange⟩
  rw [← hrewound honward]
  exact htells hlive

/-- The second snapshot ends in a window that is live, below its head. -/
def goingBack : List Call := [.stopQueuing 1, .insert (numbered 1 1), .stopQueuing 1]

/-- What was handed over before is missing now. -/
theorem gap_covers_rewound :
    let x := Journal.run goingBack
    (∀ f ∈ goingBack.filterMap Call.frame?, f.seq < maxSeq) ∧ x.window.queuing = false ∧ x.arrived = [1] ∧
      x.window.gap = ⟨1, 1⟩ ∧ x.window.gap.contains 1 = true ∧ x.rewound = [1] := by
  decide

end ReliableMulticast.Arrivals
