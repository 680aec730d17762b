import ReliableMulticast.Bytes.Lemmas
import ReliableMulticast.Frame.Basic
import Mathlib.Data.List.Basic

/-!
# Frames as bytes

* `Frame.decode_encode_append`: a frame whose header tells the length of its body is read back from its bytes, whatever
  follows them. Both ways of building a frame give such frames (`IsData.wellSized`, `wellSized_control`);
* `Frame.eq_encode_append_of_decode`: nothing else is read from bytes;
* `Frame.message?_eq_resendRequest_iff`: what a frame that carries a request for repetition looks like;
* `Frame.endsAt_endOfSnapshot`: the end of a snapshot is read with the number it was written with.
-/

namespace ReliableMulticast

namespace Bytes

theorem toNat_ofNat_of_lt {width n : Nat} (h : n < 256 ^ width) : toNat (ofNat width n) = n := by
  rw [toNat_ofNat, Nat.mod_eq_of_lt h]

end Bytes

namespace ControlType

theorem ofCode?_eq_some_iff {code : UInt8} {t : ControlType} : ofCode? code = some t ↔ code = t.code := by
  constructor
  · intro h
    exact (code_of_ofCode? h).symm
  · rintro rfl
    exact ofCode?_code t

/-- The codes of control messages are consecutive. -/
theorem ofCode?_eq_none_iff {code : UInt8} : ofCode? code = none ↔ code < 22 ∨ 26 < code := by
  constructor
  · intro h
    by_contra hin
    rw [not_or, UInt8.not_lt, UInt8.not_lt, UInt8.le_iff_toNat_le, UInt8.le_iff_toNat_le] at hin
    have hlow : 22 ≤ code.toNat := hin.1
    have hhigh : code.toNat ≤ 26 := hin.2
    have hvalue : ∀ n, code.toNat = n → code = .ofNat n := by
      rintro n rfl
      exact UInt8.ofNat_toNat.symm
    have hcases : code.toNat = 22 ∨ code.toNat = 23 ∨ code.toNat = 24 ∨ code.toNat = 25 ∨ code.toNat = 26 := by omega
    rcases hcases with hc | hc | hc | hc | hc
    all_goals
      rw [hvalue _ hc] at h
      cases h
  · intro h
    cases ht : ofCode? code with
    | none => rfl
    | some t =>
      rw [← code_of_ofCode? ht] at h
      cases t
      all_goals exact absurd h (by decide)

end ControlType

namespace Header

/-- The number behind `before`, whatever follows it. -/
theorem fieldAt_append (before after : Bytes) (width n : Nat) (h : n < 256 ^ width) :
    fieldAt (before ++ Bytes.ofNat width n ++ after) before.length width = n := by
  unfold fieldAt
  rw [List.append_assoc, List.drop_left' rfl, List.take_left' (Bytes.length_ofNat width n)]
  exact Bytes.toNat_ofNat_of_lt h

theorem ofNat_one (b : UInt8) : Bytes.ofNat 1 b.toNat = [b] := by
  simp [Bytes.ofNat]

theorem decode?_encode_append (h : Header) (rest : Bytes) : decode? (h.encode ++ rest) = some (h, rest) := by
  have hlen : h.encode.length = size := length_encode h
  have seq : fieldAt (h.encode ++ rest) 0 8 = h.seq.toNat := by
    have := fieldAt_append [] (Bytes.ofNat 4 h.nanos.toNat ++ Bytes.ofNat 2 h.len.toNat ++ [h.type, h.shard] ++ rest)
      8 h.seq.toNat h.seq.toNat_lt
    simpa [encode] using this
  have nanos : fieldAt (h.encode ++ rest) 8 4 = h.nanos.toNat := by
    have := fieldAt_append (Bytes.ofNat 8 h.seq.toNat) (Bytes.ofNat 2 h.len.toNat ++ [h.type, h.shard] ++ rest)
      4 h.nanos.toNat h.nanos.toNat_lt
    simpa [encode, Bytes.length_ofNat] using this
  have len : fieldAt (h.encode ++ rest) 12 2 = h.len.toNat := by
    have := fieldAt_append (Bytes.ofNat 8 h.seq.toNat ++ Bytes.ofNat 4 h.nanos.toNat) ([h.type, h.shard] ++ rest)
      2 h.len.toNat h.len.toNat_lt
    simpa [encode, Bytes.length_ofNat] using this
  have type : fieldAt (h.encode ++ rest) 14 1 = h.type.toNat := by
    have := fieldAt_append (Bytes.ofNat 8 h.seq.toNat ++ Bytes.ofNat 4 h.nanos.toNat ++ Bytes.ofNat 2 h.len.toNat)
      ([h.shard] ++ rest) 1 h.type.toNat h.type.toNat_lt
    simpa [encode, Bytes.length_ofNat, ofNat_one] using this
  have shard : fieldAt (h.encode ++ rest) 15 1 = h.shard.toNat := by
    have := fieldAt_append
      (Bytes.ofNat 8 h.seq.toNat ++ Bytes.ofNat 4 h.nanos.toNat ++ Bytes.ofNat 2 h.len.toNat ++ [h.type])
      rest 1 h.shard.toNat h.shard.toNat_lt
    simpa [encode, Bytes.length_ofNat, ofNat_one] using this
  have long : ¬ (h.encode ++ rest).length < size := by simp [hlen]
  unfold decode?
  rw [if_neg long, seq, nanos, len, type, shard, List.drop_left' hlen]
  simp

/-- The bytes of a field are those of the number that it holds. -/
theorem ofNat_fieldAt (bytes : Bytes) (start width : Nat) (h : start + width ≤ bytes.length) :
    Bytes.ofNat width (fieldAt bytes start width) = (bytes.drop start).take width ∧
      fieldAt bytes start width < 256 ^ width := by
  have hlength : ((bytes.drop start).take width).length = width := by
    rw [List.length_take, List.length_drop]
    omega
  have hbytes := Bytes.ofNat_toNat ((bytes.drop start).take width)
  have hlt := Bytes.toNat_lt ((bytes.drop start).take width)
  rw [hlength] at hbytes hlt
  exact ⟨hbytes, hlt⟩

theorem take_append_drop_add (bytes : Bytes) (start width : Nat) :
    (bytes.drop start).take width ++ bytes.drop (start + width) = bytes.drop start := by
  rw [← List.drop_drop, List.take_append_drop]

/-- A header is read from its own bytes. -/
theorem eq_encode_append_of_decode? {bytes rest : Bytes} {h : Header} (hd : decode? bytes = some (h, rest)) :
    bytes = h.encode ++ rest := by
  unfold decode? size at hd
  split at hd
  · cases hd
  · next hlong =>
    cases hd
    obtain ⟨seq, hseq⟩ := ofNat_fieldAt bytes 0 8 (by omega)
    obtain ⟨nanos, hnanos⟩ := ofNat_fieldAt bytes 8 4 (by omega)
    obtain ⟨len, hlen⟩ := ofNat_fieldAt bytes 12 2 (by omega)
    obtain ⟨type, htype⟩ := ofNat_fieldAt bytes 14 1 (by omega)
    obtain ⟨shard, hshard⟩ := ofNat_fieldAt bytes 15 1 (by omega)
    have hseq : (UInt64.ofNat (fieldAt bytes 0 8)).toNat = fieldAt bytes 0 8 := UInt64.toNat_ofNat_of_lt hseq
    have hnanos : (UInt32.ofNat (fieldAt bytes 8 4)).toNat = fieldAt bytes 8 4 := UInt32.toNat_ofNat_of_lt hnanos
    have hlen : (UInt16.ofNat (fieldAt bytes 12 2)).toNat = fieldAt bytes 12 2 := UInt16.toNat_ofNat_of_lt hlen
    have htype : (UInt8.ofNat (fieldAt bytes 14 1)).toNat = fieldAt bytes 14 1 := UInt8.toNat_ofNat_of_lt htype
    have hshard : (UInt8.ofNat (fieldAt bytes 15 1)).toNat = fieldAt bytes 15 1 := UInt8.toNat_ofNat_of_lt hshard
    have hlast : ∀ a b : UInt8, [a, b] = Bytes.ofNat 1 a.toNat ++ Bytes.ofNat 1 b.toNat := by
      intro a b
      rw [ofNat_one, ofNat_one]
      rfl
    unfold encode
    dsimp only
    rw [hlast, hseq, hnanos, hlen, htype, hshard, seq, nanos, len, type, shard]
    simp only [List.append_assoc]
    rw [take_append_drop_add bytes 15 1, take_append_drop_add bytes 14 1, take_append_drop_add bytes 12 2,
      take_append_drop_add bytes 8 4, take_append_drop_add bytes 0 8, List.drop_zero]

end Header

namespace Message

/-- A request is read from the bytes that it is written as, and from no others. -/
theorem decode_resendRequest_iff {body : Bytes} (hlength : body.length = ControlType.resendRequest.bodyLength)
    {m : Message} : decode .resendRequest body = .ok m ↔ ∃ seq count, m = .resendRequest seq count ∧ body = m.encode := by
  have hlength : body.length = 12 := hlength
  constructor
  · intro h
    obtain ⟨seq, hseq⟩ := Header.ofNat_fieldAt body 0 8 (by omega)
    obtain ⟨count, hcount⟩ := Header.ofNat_fieldAt body 8 4 (by omega)
    rw [Header.fieldAt, List.drop_zero] at seq hseq
    rw [Header.fieldAt] at count hcount
    obtain rfl : m = _ := (Except.ok.inj h).symm
    refine ⟨_, _, rfl, ?_⟩
    have hseq : (UInt64.ofNat (Bytes.toNat (body.take 8))).toNat = _ := UInt64.toNat_ofNat_of_lt hseq
    have hcount : (UInt32.ofNat (Bytes.toNat ((body.drop 8).take 4))).toNat = _ := UInt32.toNat_ofNat_of_lt hcount
    unfold encode
    dsimp only
    rw [hseq, hcount, seq, count]
    have hall : (body.drop 8).take 4 = body.drop 8 := List.take_of_length_le (by rw [List.length_drop]; omega)
    rw [hall, List.take_append_drop]
  · rintro ⟨seq, count, rfl, rfl⟩
    have hseq := Bytes.length_ofNat 8 seq.toNat
    have hcount := Bytes.length_ofNat 4 count.toNat
    unfold decode encode
    dsimp only
    rw [List.take_left' hseq, List.drop_left' hseq, List.take_of_length_le (Nat.le_of_eq hcount),
      Bytes.toNat_ofNat_of_lt seq.toNat_lt, Bytes.toNat_ofNat_of_lt count.toNat_lt]
    simp

end Message

namespace Frame

theorem decode_encode_append {f : Frame} (h : f.WellSized) (rest : Bytes) : decode (f.encode ++ rest) = .ok f := by
  have enough : ¬ (f.body ++ rest).length < f.header.len.toNat := by
    rw [show f.header.len.toNat = f.body.length from h]
    simp
  unfold decode encode
  rw [List.append_assoc, Header.decode?_encode_append]
  dsimp only
  rw [if_neg enough, show f.header.len.toNat = f.body.length from h, List.take_left' rfl]

theorem decode_encode {f : Frame} (h : f.WellSized) : decode f.encode = .ok f := by
  simpa using decode_encode_append h []

/-- What is read from bytes are the first of them, and the header tells the length of the body. -/
theorem eq_encode_append_of_decode {bytes : Bytes} {f : Frame} (h : decode bytes = .ok f) :
    f.WellSized ∧ ∃ rest, bytes = f.encode ++ rest := by
  unfold decode at h
  split at h
  · cases h
  · next header rest hheader =>
    dsimp only at h
    split at h
    · cases h
    · next henough =>
      cases h
      refine ⟨?_, rest.drop header.len.toNat, ?_⟩
      · show header.len.toNat = (rest.take header.len.toNat).length
        rw [List.length_take]
        omega
      · rw [Header.eq_encode_append_of_decode? hheader, encode, List.append_assoc, List.take_append_drop]

/-! ### Building frames -/

/-- The frames that an application can publish. -/
def IsData (f : Frame) : Prop := ∃ type shard body, data type shard body = .ok f

theorem IsData.wellSized {f : Frame} (h : f.IsData) : f.WellSized := by
  obtain ⟨type, shard, body, h⟩ := h
  unfold data at h
  split at h
  · cases h
  split at h
  · cases h
  · next hlen =>
    cases h
    unfold maxBodyLength at hlen
    show (UInt16.ofNat body.length).toNat = body.length
    rw [UInt16.toNat_ofNat']
    omega

theorem IsData.isControl {f : Frame} (h : f.IsData) : f.isControl = false := by
  obtain ⟨type, shard, body, h⟩ := h
  unfold data at h
  split at h
  · cases h
  · next ht =>
    split at h
    · cases h
    · cases h
      simpa [Frame.isControl] using ht

/-- An application frame of one byte. -/
def single (b : UInt8) : Frame := ⟨⟨0, 0, 1, 1, noShard⟩, [b]⟩

theorem isData_single (b : UInt8) : (single b).IsData := ⟨1, noShard, [b], rfl⟩

theorem length_bodyLength_lt (t : ControlType) : t.bodyLength < 2 ^ 16 := by
  cases t <;> decide

theorem wellSized_control (m : Message) (seq : UInt64) : (control m seq).WellSized := by
  show (UInt16.ofNat m.encode.length).toNat = m.encode.length
  rw [Message.length_encode, UInt16.toNat_ofNat']
  exact Nat.mod_eq_of_lt (length_bodyLength_lt m.type)

theorem isControl_control (m : Message) (seq : UInt64) : (control m seq).isControl = true := by
  show (ControlType.ofCode? m.type.code).isSome = true
  rw [ControlType.ofCode?_code]
  rfl

/-- What is read from the bytes of a frame has its header. -/
theorem header_of_decode {f g : Frame} (h : decode f.encode = .ok g) : g.header = f.header := by
  unfold decode encode at h
  rw [Header.decode?_encode_append] at h
  dsimp only at h
  split at h
  · cases h
  · cases h
    rfl

/-! ### Control messages -/

theorem message?_eq_none_iff (f : Frame) : f.message? = .ok none ↔ f.isControl = false := by
  unfold message? isControl
  cases h : ControlType.ofCode? f.header.type with
  | none => simp
  | some t =>
    cases t <;> simp
    all_goals
      split
      · simp
      · cases Message.decode _ f.body <;> simp [Except.map]

theorem takeField_ok {field : ControlField} {width : Nat} {body rest : Bytes} {text : String}
    (h : Message.takeField field width body = .ok (text, rest)) : rest = body.drop width := by
  unfold Message.takeField at h
  split at h
  · cases h
    rfl
  · cases h

theorem type_of_decode {t : ControlType} {body : Bytes} {m : Message} (h : Message.decode t body = .ok m) :
    m.type = t := by
  unfold Message.decode at h
  split at h
  · dsimp only at h
    split at h
    · cases h
    · cases h
      rfl
  · cases h
  · cases hid : Message.takeField .channelId ControlType.idWidth body with
    | error e => simp [hid, bind, Except.bind] at h
    | ok p =>
      simp only [hid, bind, Except.bind] at h
      cases h
      rfl
  · cases hname : Message.takeField .username ControlType.credentialWidth body with
    | error e => simp [hname, bind, Except.bind] at h
    | ok p =>
      cases hword : Message.takeField .password ControlType.credentialWidth p.2 with
      | error e => simp [hname, hword, bind, Except.bind] at h
      | ok q =>
        simp only [hname, hword, bind, Except.bind] at h
        cases h
        rfl
  · cases h
    rfl

/-- A frame carries a message of the type in its header. -/
theorem type_of_message? {f : Frame} {m : Message} (h : f.message? = .ok (some m)) :
    ControlType.ofCode? f.header.type = some m.type := by
  unfold message? at h
  split at h
  · cases h
  · cases h
  · next t hwake ht =>
    split at h
    · cases h
    · cases hdec : Message.decode t f.body with
      | error e => simp [hdec, Except.map] at h
      | ok m' =>
        simp only [hdec, Except.map, Except.ok.injEq, Option.some.injEq] at h
        rw [ht, ← h, type_of_decode hdec]

/-- A frame that tells its length carries a request exactly if its type and its body are those of one. -/
theorem message?_eq_resendRequest_iff {f : Frame} (hf : f.WellSized) {seq : UInt64} {count : UInt32} :
    f.message? = .ok (some (.resendRequest seq count)) ↔
      f.type = ControlType.resendRequest.code ∧ f.body = (Message.resendRequest seq count).encode := by
  have hf : f.header.len.toNat = f.body.length := hf
  constructor
  · intro h
    have htype := type_of_message? h
    refine ⟨ControlType.ofCode?_eq_some_iff.1 htype, ?_⟩
    have htype : ControlType.ofCode? f.header.type = some .resendRequest := htype
    unfold message? at h
    rw [htype] at h
    dsimp only at h
    split at h
    · cases h
    · next hlength =>
      rw [not_or, not_not, not_not] at hlength
      cases hdec : Message.decode .resendRequest f.body with
      | error e => simp [hdec, Except.map] at h
      | ok m =>
        obtain rfl : m = .resendRequest seq count := by simpa [hdec, Except.map] using h
        obtain ⟨-, -, -, hbody⟩ := (Message.decode_resendRequest_iff hlength.2).1 hdec
        exact hbody
  · rintro ⟨htype, hbody⟩
    have hlength : f.body.length = ControlType.resendRequest.bodyLength := by rw [hbody, Message.length_encode]; rfl
    have hdec := (Message.decode_resendRequest_iff hlength).2 ⟨seq, count, rfl, hbody⟩
    have htype : ControlType.ofCode? f.header.type = some .resendRequest := ControlType.ofCode?_eq_some_iff.2 htype
    unfold message?
    rw [htype]
    dsimp only
    rw [if_neg (by rw [hf, hlength]; simp), hdec]
    rfl

theorem message?_resendRequest (seq : UInt64) (count : UInt32) (n : UInt64) :
    (control (.resendRequest seq count) n).message? = .ok (some (.resendRequest seq count)) :=
  (message?_eq_resendRequest_iff (wellSized_control _ _)).2 ⟨rfl, rfl⟩

theorem seq_of_endOfSnapshot {id id' : ChannelId} {seq seq' n : UInt64} {ok ok' : Bool}
    (h : (control (.endOfSnapshot id seq ok) n).message? = .ok (some (.endOfSnapshot id' seq' ok'))) : seq' = seq := by
  have hdec : Message.decode .endOfSnapshot (Message.endOfSnapshot id seq ok).encode =
      .ok (.endOfSnapshot id' seq' ok') := by
    unfold message? at h
    rw [show ControlType.ofCode? (control (.endOfSnapshot id seq ok) n).header.type = some .endOfSnapshot from rfl] at h
    dsimp only at h
    split at h
    · cases h
    · cases hd : Message.decode .endOfSnapshot (Message.endOfSnapshot id seq ok).encode with
      | error e => simp [control, hd, Except.map] at h
      | ok m => simpa [control, hd, Except.map] using h
  unfold Message.decode at hdec
  dsimp only at hdec
  cases hid : Message.takeField .channelId ControlType.idWidth (Message.endOfSnapshot id seq ok).encode with
  | error e => simp [hid, bind, Except.bind] at hdec
  | ok p =>
    simp only [hid, bind, Except.bind] at hdec
    have hrest : p.2 = Bytes.ofNat 8 seq.toNat ++ [if ok then 1 else 0] := by
      rw [takeField_ok hid]
      simp [Message.encode, List.append_assoc, List.drop_left' (Bytes.length_ofField _ _)]
    rw [hrest, List.take_left' (Bytes.length_ofNat _ _), Bytes.toNat_ofNat_of_lt seq.toNat_lt] at hdec
    cases hdec
    simp

/-- The frame says that a snapshot ends at `seq`, be it complete or not. -/
def EndsAt (f : Frame) (seq : Nat) : Prop :=
  ∃ id n ok, f.message? = .ok (some (.endOfSnapshot id n ok)) ∧ n.toNat = seq

theorem type_of_endsAt {f : Frame} {seq : Nat} (h : f.EndsAt seq) :
    ControlType.ofCode? f.header.type = some .endOfSnapshot := by
  obtain ⟨id, n, ok, hm, -⟩ := h
  exact type_of_message? hm

theorem endsAt_endOfSnapshot {id : ChannelId} {seq n : UInt64} {ok : Bool} {k : Nat}
    (h : (control (.endOfSnapshot id seq ok) n).EndsAt k) : k = seq.toNat := by
  obtain ⟨id', seq', ok', hm, hk⟩ := h
  rw [← hk, seq_of_endOfSnapshot hm]

end Frame

end ReliableMulticast
