import ReliableMulticast.Frame.Stream
import ReliableMulticast.Proofs.Frame.Codec
import Mathlib.Data.List.Infix
import Mathlib.Tactic.IntervalCases

/-!
# Frames on a stream

What the reads of a stream return depends on its bytes alone (`Stream.outcomes_congr`), whatever the chunks in which
they arrive. Of the bytes of a list of frames, cut off anywhere, they return the frames in front of the cut
(`Stream.outcomes_cut`), and then:

* the end of the stream, where the cut is between two frames;
* an error, where it is inside a frame. A header that announces a body is inside the frame it belongs to, one that
  announces an empty body is a frame of its own.
-/

namespace ReliableMulticast

namespace Stream

/-! ### One read -/

theorem flatten_collect (n : Nat) (chunks : List Bytes) :
    (collect n chunks).1 = chunks.flatten.take n ∧ (collect n chunks).2.flatten = chunks.flatten.drop n := by
  induction chunks generalizing n with
  | nil => simp [collect]
  | cons c cs ih =>
    by_cases hn : n = 0
    · subst hn
      simp [collect]
    by_cases hc : c.length ≤ n
    · obtain ⟨taken, left⟩ := ih (n - c.length)
      unfold collect
      rw [if_neg hn, if_pos hc, List.flatten_cons, List.take_append, List.drop_append,
        List.take_of_length_le hc, List.drop_of_length_le hc]
      exact ⟨congrArg (c ++ ·) taken, left⟩
    · unfold collect
      rw [if_neg hn, if_neg hc, List.flatten_cons, List.take_append_of_le_length (by omega),
        List.drop_append_of_le_length (by omega)]
      exact ⟨rfl, List.flatten_cons⟩

/-- Bytes that arrive in other chunks are read in the same way. -/
theorem read_congr {chunks chunks' : List Bytes} (h : chunks.flatten = chunks'.flatten) :
    (read chunks).1 = (read chunks').1 ∧ (read chunks).2.flatten = (read chunks').2.flatten := by
  obtain ⟨start, rest⟩ := flatten_collect Header.size chunks
  obtain ⟨start', rest'⟩ := flatten_collect Header.size chunks'
  have hstart : (collect Header.size chunks).1 = (collect Header.size chunks').1 := by
    rw [start, start', h]
  have hrest : (collect Header.size chunks).2.flatten = (collect Header.size chunks').2.flatten := by
    rw [rest, rest', h]
  unfold read
  dsimp only
  rw [hstart]
  split
  · exact ⟨rfl, hrest⟩
  · next header left hdec =>
    obtain ⟨body, last⟩ := flatten_collect header.len.toNat (collect Header.size chunks).2
    obtain ⟨body', last'⟩ := flatten_collect header.len.toNat (collect Header.size chunks').2
    have hbody : (collect header.len.toNat (collect Header.size chunks).2).1 =
        (collect header.len.toNat (collect Header.size chunks').2).1 := by
      rw [body, body', hrest]
    have hlast : (collect header.len.toNat (collect Header.size chunks).2).2.flatten =
        (collect header.len.toNat (collect Header.size chunks').2).2.flatten := by
      rw [last, last', hrest]
    rw [hbody]
    split
    · exact ⟨rfl, hlast⟩
    · exact ⟨rfl, hlast⟩

/-- A frame is read as soon as its header and the body that the header announces have arrived. -/
theorem read_eq_frame_iff {chunks : List Bytes} {f : Frame} :
    (read chunks).1 = .frame f ↔
      ∃ rest, Header.decode? (chunks.flatten.take Header.size) = some (f.header, rest) ∧
        f.header.len.toNat ≤ (chunks.flatten.drop Header.size).length ∧
        f.body = (chunks.flatten.drop Header.size).take f.header.len.toNat := by
  obtain ⟨start, left⟩ := flatten_collect Header.size chunks
  unfold read
  dsimp only
  rw [start]
  constructor
  · intro h
    split at h
    · split at h <;> cases h
    · next header rest hdec =>
      obtain ⟨body, -⟩ := flatten_collect header.len.toNat (collect Header.size chunks).2
      rw [left] at body
      split at h
      · cases h
      · next hlong =>
        obtain rfl : (⟨header, (collect header.len.toNat (collect Header.size chunks).2).1⟩ : Frame) = f :=
          Outcome.frame.inj h
        refine ⟨rest, hdec, ?_, body⟩
        show header.len.toNat ≤ _
        rw [body, List.length_take] at hlong
        omega
  · rintro ⟨rest, hdec, hlong, hbody⟩
    rw [hdec]
    dsimp only
    obtain ⟨body, -⟩ := flatten_collect f.header.len.toNat (collect Header.size chunks).2
    rw [left] at body
    have hlength : (collect f.header.len.toNat (collect Header.size chunks).2).1.length = f.header.len.toNat := by
      rw [body, List.length_take, Nat.min_eq_left hlong]
    rw [if_neg (by omega), body, ← hbody]

/-- What arrives behind a frame makes no difference to it. -/
theorem read_append_of_frame {chunks : List Bytes} {f : Frame} (h : (read chunks).1 = .frame f) (more : List Bytes) :
    (read (chunks ++ more)).1 = .frame f := by
  obtain ⟨rest, hdec, hlong, hbody⟩ := read_eq_frame_iff.1 h
  have hwhole : Header.size ≤ chunks.flatten.length := by
    by_contra hshort
    have hnone := (Header.decode?_eq_none_iff (chunks.flatten.take Header.size)).2 (by
      rw [List.length_take]
      omega)
    rw [hnone] at hdec
    cases hdec
  refine read_eq_frame_iff.2 ⟨rest, ?_, ?_, ?_⟩
  · rwa [List.flatten_append, List.take_append_of_le_length hwhole]
  · rw [List.flatten_append, List.drop_append_of_le_length hwhole, List.length_append]
    omega
  · rwa [List.flatten_append, List.drop_append_of_le_length hwhole, List.take_append_of_le_length hlong]

theorem poll_of_frame {chunks : List Bytes} {f : Frame} (h : (read chunks).1 = .frame f) (ended : Bool) :
    poll chunks ended = some (.frame f, (read chunks).2) := by
  unfold poll
  rcases hread : read chunks with ⟨outcome, rest⟩
  rw [hread] at h
  obtain rfl : outcome = .frame f := h
  rfl

/-- Without a frame there is an answer only at the end of the stream. -/
theorem poll_of_partial {chunks : List Bytes} (h : ∀ f, (read chunks).1 ≠ .frame f) (ended : Bool) :
    poll chunks ended = if ended then some (read chunks) else none := by
  unfold poll
  rcases hread : read chunks with ⟨outcome, rest⟩
  rw [hread] at h
  cases outcome with
  | frame f => exact absurd rfl (h f)
  | ended => rfl
  | failed error => rfl

theorem readAll_congr (fuel : Nat) {chunks chunks' : List Bytes} (h : chunks.flatten = chunks'.flatten) :
    readAll fuel chunks = readAll fuel chunks' := by
  induction fuel generalizing chunks chunks' with
  | zero => rfl
  | succ fuel ih =>
    obtain ⟨outcome, rest⟩ := read_congr h
    unfold readAll
    rcases hread : read chunks with ⟨o, left⟩
    rcases hread' : read chunks' with ⟨o', left'⟩
    rw [hread, hread'] at outcome rest
    obtain rfl : o = o' := outcome
    cases o with
    | frame f => exact congrArg (Outcome.frame f :: ·) (ih rest)
    | ended => rfl
    | failed error => rfl

/-- The chunks in which a stream arrives make no difference to its frames, nor to how it ends. -/
theorem outcomes_congr {chunks chunks' : List Bytes} (h : chunks.flatten = chunks'.flatten) :
    outcomes chunks = outcomes chunks' := by
  unfold outcomes
  rw [h]
  exact readAll_congr _ h

/-! ### The bytes of one frame -/

/-- What a read returns behind the last complete frame, `left` bytes before the end of the stream. -/
def ending (left : Nat) : Outcome :=
  if left = 0 then .ended
  else if left < Header.size then .failed (.closedInHeader left)
  else .failed .closedInBody

theorem ending_eq_ended_iff (left : Nat) : ending left = .ended ↔ left = 0 := by
  unfold ending
  split
  · next h => simp [h]
  · next h =>
    split
    · simp [h]
    · simp [h]

/-- A complete frame is read, and nothing of what follows it. -/
theorem read_encode_append {f : Frame} (hf : f.WellSized) (rest : Bytes) :
    read [f.encode ++ rest] = (.frame f, (read [f.encode ++ rest]).2) ∧ (read [f.encode ++ rest]).2.flatten = rest := by
  obtain ⟨start, left⟩ := flatten_collect Header.size [f.encode ++ rest]
  have hlen : f.header.encode.length = Header.size := Header.length_encode f.header
  have hflat : [f.encode ++ rest].flatten = f.header.encode ++ (f.body ++ rest) := by
    simp [Frame.encode]
  rw [hflat, List.take_left' hlen] at start
  rw [hflat, List.drop_left' hlen] at left
  obtain ⟨body, last⟩ := flatten_collect f.header.len.toNat (collect Header.size [f.encode ++ rest]).2
  rw [left, show f.header.len.toNat = f.body.length from hf, List.take_left' rfl] at body
  rw [left, show f.header.len.toNat = f.body.length from hf, List.drop_left' rfl] at last
  have hdec : Header.decode? f.header.encode = some (f.header, []) := by
    simpa using Header.decode?_encode_append f.header []
  have hread : read [f.encode ++ rest] =
      (.frame f, (collect f.body.length (collect Header.size [f.encode ++ rest]).2).2) := by
    unfold read
    dsimp only
    rw [start, hdec]
    dsimp only
    rw [show f.header.len.toNat = f.body.length from hf, body, if_neg (by omega)]
  rw [hread]
  exact ⟨rfl, last⟩

/-- A frame that is cut off is not read: the end of the stream is reported only where nothing of the frame has come. -/
theorem read_take {f : Frame} (hf : f.WellSized) {n : Nat} (hn : n < f.encode.length) :
    (read [f.encode.take n]).1 = ending n := by
  obtain ⟨start, left⟩ := flatten_collect Header.size [f.encode.take n]
  have hlen : f.header.encode.length = Header.size := Header.length_encode f.header
  rw [List.flatten_singleton] at start left
  unfold read
  dsimp only
  by_cases hsize : n < Header.size
  · have hstart : (collect Header.size [f.encode.take n]).1.length = n := by
      rw [start, List.length_take, List.length_take]
      omega
    have hnone : Header.decode? (collect Header.size [f.encode.take n]).1 = none := by
      rw [Header.decode?_eq_none_iff, hstart]
      exact hsize
    rw [hnone]
    dsimp only
    unfold ending
    simp only [← List.length_eq_zero_iff, hstart, if_pos hsize]
  · -- the whole header has come, and less of the body than it announces
    have hhead : (collect Header.size [f.encode.take n]).1 = f.header.encode := by
      rw [start, List.take_take, Nat.min_eq_left (by omega)]
      exact List.take_left' hlen
    have hbody : (collect Header.size [f.encode.take n]).2.flatten.length < f.body.length := by
      rw [left, List.length_drop, List.length_take]
      have : f.encode.length = Header.size + f.body.length := f.length_encode
      omega
    obtain ⟨body, -⟩ := flatten_collect f.header.len.toNat (collect Header.size [f.encode.take n]).2
    have hdec : Header.decode? f.header.encode = some (f.header, []) := by
      simpa using Header.decode?_encode_append f.header []
    rw [hhead, hdec]
    dsimp only
    have hshort : (collect f.header.len.toNat (collect Header.size [f.encode.take n]).2).1.length <
        f.header.len.toNat := by
      rw [body, List.length_take, show f.header.len.toNat = f.body.length from hf]
      omega
    have hpos : n ≠ 0 := by
      unfold Header.size at hsize
      omega
    unfold ending
    rw [if_pos hshort, if_neg hpos, if_neg hsize]

/-! ### The bytes of many frames -/

/-- What is on the stream after the frames have been written one after the other. -/
def written (fs : List Frame) : Bytes := (fs.map write).flatten

@[simp] theorem written_nil : written [] = [] := rfl

@[simp] theorem written_cons (f : Frame) (fs : List Frame) : written (f :: fs) = f.encode ++ written fs := rfl

theorem readAll_written {fs : List Frame} (hfs : ∀ f ∈ fs, f.WellSized) {bytes : Bytes} (h : bytes <+: written fs)
    {fuel : Nat} (hfuel : bytes.length / Header.size < fuel) :
    ∃ k ≤ fs.length, written (fs.take k) <+: bytes ∧ (k < fs.length → ¬ written (fs.take (k + 1)) <+: bytes) ∧
      readAll fuel [bytes] =
        (fs.take k).map .frame ++ [ending (bytes.length - (written (fs.take k)).length)] := by
  induction fs generalizing bytes fuel with
  | nil =>
    obtain rfl : bytes = [] := List.prefix_nil.mp h
    obtain ⟨fuel, rfl⟩ : ∃ m, fuel = m + 1 := Nat.exists_eq_add_one_of_ne_zero (Nat.ne_zero_of_lt hfuel)
    exact ⟨0, le_rfl, List.nil_prefix, by simp, rfl⟩
  | cons f fs ih =>
    have hf : f.WellSized := hfs f List.mem_cons_self
    obtain ⟨fuel, rfl⟩ : ∃ m, fuel = m + 1 := Nat.exists_eq_add_one_of_ne_zero (Nat.ne_zero_of_lt hfuel)
    rw [written_cons] at h
    by_cases hcut : bytes.length < f.encode.length
    · -- the cut is inside the first frame, or before it
      have hbytes : bytes = f.encode.take bytes.length := by
        have := List.prefix_iff_eq_take.mp h
        rwa [List.take_append_of_le_length (by omega)] at this
      have hread := read_take hf hcut
      rw [← hbytes] at hread
      refine ⟨0, by simp, List.nil_prefix, ?_, ?_⟩
      · intro _ hwhole
        have := hwhole.length_le
        simp at this
        omega
      · unfold readAll
        rcases hr : read [bytes] with ⟨outcome, rest⟩
        rw [hr] at hread
        obtain rfl : outcome = ending bytes.length := hread
        cases hend : ending bytes.length with
        | frame g =>
          unfold ending at hend
          split at hend
          · cases hend
          · split at hend <;> cases hend
        | ended => simp [hend]
        | failed error => simp [hend]
    · obtain ⟨rest, rfl⟩ : f.encode <+: bytes :=
        List.prefix_of_prefix_length_le (List.prefix_append _ _) h (by omega)
      have hrest : rest <+: written fs := (List.prefix_append_right_inj _).mp h
      have hless : rest.length / Header.size < fuel := by
        have : f.encode.length = Header.size + f.body.length := f.length_encode
        rw [List.length_append] at hfuel
        unfold Header.size at hfuel this ⊢
        omega
      obtain ⟨k, hk, hin, hout, hall⟩ := ih (fun g hg => hfs g (List.mem_cons_of_mem f hg)) hrest hless
      obtain ⟨hread, hleft⟩ := read_encode_append hf rest
      refine ⟨k + 1, by simpa using hk, ?_, ?_, ?_⟩
      · rw [List.take_succ_cons, written_cons]
        exact (List.prefix_append_right_inj _).mpr hin
      · intro hlt
        rw [List.take_succ_cons, written_cons, List.prefix_append_right_inj]
        exact hout (by simpa using hlt)
      · unfold readAll
        rw [hread]
        dsimp only
        rw [readAll_congr fuel (hleft.trans List.flatten_singleton.symm), hall, List.take_succ_cons, written_cons,
          List.length_append, List.length_append, Nat.add_sub_add_left]
        rfl

/-- Of all that was written, every frame is read, and then the end. -/
theorem outcomes_written {fs : List Frame} (hfs : ∀ f ∈ fs, f.WellSized) {chunks : List Bytes}
    (h : chunks.flatten = written fs) : outcomes chunks = fs.map .frame ++ [.ended] := by
  have hwhole : written fs <+: written fs := List.prefix_refl _
  obtain ⟨k, hk, -, hout, hall⟩ := readAll_written hfs hwhole (Nat.lt_succ_self _)
  have hend : k = fs.length := by
    by_contra hne
    have hlt : k < fs.length := by omega
    refine hout hlt ?_
    conv => rhs; rw [← List.take_append_drop (k + 1) fs]
    unfold written
    rw [List.map_append, List.flatten_append]
    exact List.prefix_append _ _
  have hfull : fs.take k = fs := by
    rw [hend]
    exact List.take_length
  rw [outcomes_congr (h.trans List.flatten_singleton.symm)]
  show readAll ([written fs].flatten.length / Header.size + 1) [written fs] = _
  rw [List.flatten_singleton, hall, hfull, Nat.sub_self]
  rfl

/-- **The frames in front of a cut.** However a stream arrives in chunks: if its bytes are the beginning of what was
written for `fs`, then the reads return the frames that are completely among them, and behind these the end of the
stream or an error, as `ending` says. The end is reported exactly if the cut is between two frames; of the whole of
what was written, every frame is read before the end. -/
theorem outcomes_cut (fs : List Frame) (chunks : List Bytes) (hfs : ∀ f ∈ fs, f.WellSized)
    (h : chunks.flatten <+: written fs) :
    (chunks.flatten = written fs → outcomes chunks = fs.map .frame ++ [.ended]) ∧
      ∃ k ≤ fs.length,
        written (fs.take k) <+: chunks.flatten ∧
        (k < fs.length → ¬ written (fs.take (k + 1)) <+: chunks.flatten) ∧
        outcomes chunks =
          (fs.take k).map .frame ++ [ending (chunks.flatten.length - (written (fs.take k)).length)] ∧
        (ending (chunks.flatten.length - (written (fs.take k)).length) = .ended ↔
          chunks.flatten = written (fs.take k)) := by
  obtain ⟨k, hk, hin, hout, hall⟩ := readAll_written hfs h (Nat.lt_succ_self _)
  rw [readAll_congr _ List.flatten_singleton] at hall
  have hle := hin.length_le
  refine ⟨?_, k, hk, hin, hout, hall, ?_⟩
  · exact outcomes_written hfs
  · rw [ending_eq_ended_iff]
    constructor
    · intro hzero
      exact (hin.eq_of_length (by omega)).symm
    · intro heq
      rw [heq]
      exact Nat.sub_self _

/-- A frame with one byte, one without a body, and one with two bytes. -/
def mixedFrames : List Frame := [.single 7, ⟨⟨1, 0, 0, 1, 2⟩, []⟩, ⟨⟨2, 0, 2, 3, 4⟩, [8, 9]⟩]

/-- The stream of `mixedFrames` without its last byte, in chunks that do not respect the frames. -/
def mixedChunks : List Bytes :=
  [(written mixedFrames).take 5, ((written mixedFrames).drop 5).take 25, ((written mixedFrames).drop 30).take 20]

theorem outcomes_cut_mixedChunks :
    (∀ f ∈ mixedFrames, f.WellSized) ∧ mixedChunks.flatten <+: written mixedFrames ∧
      outcomes mixedChunks = (mixedFrames.take 2).map .frame ++ [.failed .closedInBody] := by
  have sized : ∀ f ∈ mixedFrames, f.WellSized := by decide
  have cut : mixedChunks.flatten <+: written mixedFrames := ⟨[9], by decide⟩
  obtain ⟨-, k, hk, hin, hout, hall, -⟩ := outcomes_cut mixedFrames mixedChunks sized cut
  refine ⟨sized, cut, ?_⟩
  have hk : k = 2 := by
    have hk : k ≤ 3 := hk
    interval_cases k
    · exact absurd (by decide) (hout (by decide))
    · exact absurd (by decide) (hout (by decide))
    · rfl
    · exact absurd hin (by decide)
  subst hk
  exact hall

end Stream

end ReliableMulticast
