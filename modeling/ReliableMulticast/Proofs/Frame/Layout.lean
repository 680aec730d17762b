import ReliableMulticast.Proofs.Frame.Codec
import Mathlib.Data.List.GetD

/-!
# Where a frame ends

`announced` is the length that sixteen bytes or more announce for the body behind them, told by two of the bytes alone.
With it the three outcomes of reading a frame are conditions on the length of a byte string (`decode_cases`).

Main statement (`decode_inverts_encode`): reading and writing frames are inverse to each other, up to the bytes behind the
frame, which are ignored; and a byte string is refused exactly if it ends inside the header or inside the body.
-/

namespace ReliableMulticast

/-- The length of the body that a header announces, its lower byte first. -/
def announced (bytes : Bytes) : Nat := (bytes.getD 12 0).toNat + 256 * (bytes.getD 13 0).toNat

namespace Header

theorem take_drop_two {bytes : Bytes} (h : size ≤ bytes.length) :
    (bytes.drop 12).take 2 = [bytes.getD 12 0, bytes.getD 13 0] := by
  have hlong : 16 ≤ bytes.length := h
  rw [List.drop_eq_getElem_cons (by omega), List.drop_eq_getElem_cons (by omega), List.getD_eq_getElem _ _ (by omega),
    List.getD_eq_getElem _ _ (by omega)]
  rfl

/-- A header says what its bytes announce. -/
theorem exists_decode? {bytes : Bytes} (h : size ≤ bytes.length) :
    ∃ header, decode? bytes = some (header, bytes.drop size) ∧ header.len.toNat = announced bytes := by
  have hfield : fieldAt bytes 12 2 = announced bytes := by
    unfold fieldAt
    rw [take_drop_two h]
    simp [Bytes.toNat, announced]
  have hsmall : announced bytes < 2 ^ 16 := by
    have hlow := (bytes.getD 12 0).toNat_lt
    have hhigh := (bytes.getD 13 0).toNat_lt
    unfold announced
    omega
  have hdec : ∃ header, decode? bytes = some (header, bytes.drop size) ∧ header.len = .ofNat (fieldAt bytes 12 2) := by
    unfold decode?
    rw [if_neg (Nat.not_lt.2 h)]
    exact ⟨_, rfl, rfl⟩
  obtain ⟨header, hheader, hlen⟩ := hdec
  refine ⟨header, hheader, ?_⟩
  rw [hlen, hfield, UInt16.toNat_ofNat_of_lt' hsmall]

end Header

namespace Frame

/-- A byte string ends inside the header, or inside the body, or it starts with a frame. -/
theorem decode_cases (bytes : Bytes) :
    (bytes.length < Header.size ∧ decode bytes = .error (.truncatedHeader bytes.length)) ∨
      (Header.size ≤ bytes.length ∧ bytes.length - Header.size < announced bytes ∧
        decode bytes = .error (.truncatedBody (announced bytes) (bytes.length - Header.size))) ∨
      (Header.size + announced bytes ≤ bytes.length ∧ ∃ f, decode bytes = .ok f) := by
  by_cases hsize : bytes.length < Header.size
  · left
    refine ⟨hsize, ?_⟩
    unfold decode
    rw [(Header.decode?_eq_none_iff bytes).2 hsize]
  · right
    have hsize : Header.size ≤ bytes.length := Nat.le_of_not_lt hsize
    obtain ⟨header, hheader, hlen⟩ := Header.exists_decode? hsize
    unfold decode
    rw [hheader]
    dsimp only
    rw [hlen, List.length_drop]
    by_cases henough : bytes.length - Header.size < announced bytes
    · left
      rw [if_pos henough]
      exact ⟨hsize, henough, rfl⟩
    · right
      rw [if_neg henough]
      exact ⟨by omega, _, rfl⟩

theorem decode_eq_truncatedHeader_iff {bytes : Bytes} {available : Nat} :
    decode bytes = .error (.truncatedHeader available) ↔ bytes.length < Header.size ∧ available = bytes.length := by
  rcases decode_cases bytes with ⟨hshort, h⟩ | ⟨hlong, -, h⟩ | ⟨hlong, f, h⟩
  · rw [h]
    simp [hshort, eq_comm]
  · rw [h]
    simp [Nat.not_lt.2 hlong]
  · rw [h]
    simp
    omega

theorem decode_eq_truncatedBody_iff {bytes : Bytes} {declared available : Nat} :
    decode bytes = .error (.truncatedBody declared available) ↔ Header.size ≤ bytes.length ∧
      declared = announced bytes ∧ available = bytes.length - Header.size ∧ available < declared := by
  rcases decode_cases bytes with ⟨hshort, h⟩ | ⟨hlong, hless, h⟩ | ⟨hlong, f, h⟩
  · rw [h]
    simp
    omega
  · rw [h]
    constructor
    · rintro ⟨⟩
      exact ⟨hlong, rfl, rfl, hless⟩
    · rintro ⟨-, rfl, rfl, -⟩
      rfl
  · rw [h]
    simp
    omega

theorem announced_encode_append (f : Frame) (rest : Bytes) : announced (f.encode ++ rest) = f.header.len.toNat := by
  have hlong : Header.size ≤ (f.encode ++ rest).length := by
    rw [List.length_append, length_encode, encodedLength]
    omega
  obtain ⟨header, hheader, hlen⟩ := Header.exists_decode? hlong
  rw [encode, List.append_assoc, Header.decode?_encode_append] at hheader
  cases hheader
  exact hlen.symm

/-- **Frames are read as they are written.** A byte string is refused if it is shorter than a header, or than the body that
the header announces, and in no other case. What is read otherwise has a header that tells the length of its body; written
again it is the beginning of the byte string, and more bytes at the end make no difference. And what is written for a frame
that tells its length is read as this frame, whatever follows. -/
theorem decode_inverts_encode :
    (∀ bytes : Bytes,
      (∀ available, decode bytes = .error (.truncatedHeader available) ↔
        bytes.length < Header.size ∧ available = bytes.length) ∧
      (∀ declared available, decode bytes = .error (.truncatedBody declared available) ↔
        Header.size ≤ bytes.length ∧ declared = announced bytes ∧ available = bytes.length - Header.size ∧
          available < declared) ∧
      (Header.size + announced bytes ≤ bytes.length → ∃ f, decode bytes = .ok f) ∧
      ∀ f, decode bytes = .ok f →
        f.header.len.toNat = f.body.length ∧ f.header.len.toNat = announced bytes ∧
          f.encode = bytes.take (Header.size + f.header.len.toNat) ∧ ∀ rest, decode (bytes ++ rest) = .ok f) ∧
    ∀ f rest, f.WellSized → decode (f.encode ++ rest) = .ok f := by
  refine ⟨fun bytes => ⟨fun _ => decode_eq_truncatedHeader_iff, fun _ _ => decode_eq_truncatedBody_iff, ?_, ?_⟩, ?_⟩
  · intro hlong
    rcases decode_cases bytes with ⟨hshort, -⟩ | ⟨-, hless, -⟩ | ⟨-, hread⟩
    · omega
    · omega
    · exact hread
  · intro f h
    obtain ⟨hsized, rest, rfl⟩ := eq_encode_append_of_decode h
    have hlength : Header.size + f.header.len.toNat = f.encode.length := by
      rw [length_encode, encodedLength, show f.header.len.toNat = f.body.length from hsized]
    refine ⟨hsized, (announced_encode_append f rest).symm, ?_, fun more => ?_⟩
    · rw [hlength, List.take_left' rfl]
    · rw [List.append_assoc]
      exact decode_encode_append hsized (rest ++ more)
  · intro f rest hsized
    exact decode_encode_append hsized rest

/-- A frame of two bytes with a byte behind it, and cut off in its body and in its header. -/
theorem inverts_pair :
    let f : Frame := ⟨⟨258, 7, 2, 1, noShard⟩, [8, 9]⟩
    f.WellSized ∧ decode (f.encode ++ [10]) = .ok f ∧
      decode (f.encode.take 17) = .error (.truncatedBody 2 1) ∧
      decode (f.encode.take 15) = .error (.truncatedHeader 15) := by
  intro f
  obtain ⟨hread, hwritten⟩ := decode_inverts_encode
  have hsized : f.WellSized := by decide
  obtain ⟨-, hbody, -, -⟩ := hread (f.encode.take 17)
  obtain ⟨hheader, -, -, -⟩ := hread (f.encode.take 15)
  refine ⟨hsized, hwritten f [10] hsized, ?_, ?_⟩
  · exact (hbody 2 1).2 (by decide)
  · exact (hheader 15).2 (by decide)

end Frame

end ReliableMulticast
