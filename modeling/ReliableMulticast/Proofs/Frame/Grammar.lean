import ReliableMulticast.Proofs.Frame.Control

/-!
# What comes of reading a message

A body is refused for its first field that is spoilt (`Message.Spoils`), and for nothing else. Where none is, a message is
read from it that is written in full and restores the body (`Message.Restores`): written again, it has the same bytes but
for those that say nothing (`Message.Idle`), behind the zero that ends a text and in the value of a flag that is not zero.

* `Frame.tells_message?`: header and body of a frame tell what comes of reading a message from it;
* `Frame.read?_eq`: this is what comes of it as well where no field may go past the end of the body.

Main statement (`Frame.message?_follows_grammar`): the five outcomes, each with the frames that have it.
-/

namespace ReliableMulticast

/-- The texts in a body of this type: where their fields start, and how wide they are. -/
def ControlType.texts : ControlType → List (Nat × Nat)
  | endOfSnapshot => [(0, idWidth)]
  | login => [(0, credentialWidth), (credentialWidth, credentialWidth)]
  | _ => []

namespace Message

open Bytes (beforeZero Utf8)

/-! ### Bodies that are refused -/

/-- A field in which a body of this type holds nothing that can be read, the first one of them. -/
inductive Spoils : ControlType → Bytes → ControlField → Prop
  | stamp {body : Bytes} (h : seconds body < 0 ∨ 1000000000 ≤ nanos body) : Spoils .heartbeat body .stamp
  | channelId {body : Bytes} (h : ¬ Utf8 (beforeZero (body.take ControlType.idWidth))) :
    Spoils .endOfSnapshot body .channelId
  | username {body : Bytes} (h : ¬ Utf8 (beforeZero (body.take ControlType.credentialWidth))) :
    Spoils .login body .username
  | password {body : Bytes} (h : Utf8 (beforeZero (body.take ControlType.credentialWidth)))
    (h' : ¬ Utf8 (beforeZero ((body.drop ControlType.credentialWidth).take ControlType.credentialWidth))) :
    Spoils .login body .password

theorem decode_of_spoils {t : ControlType} {body : Bytes} {field : ControlField} (h : Spoils t body field) :
    decode t body = .error (.invalidField field) := by
  cases h with
  | stamp hbad => rw [decode_heartbeat_eq, if_pos hbad]
  | channelId hbad => rw [decode_endOfSnapshot_eq, Bytes.toField?_eq_none_iff.2 hbad]
  | username hbad => rw [decode_login_eq, Bytes.toField?_eq_none_iff.2 hbad]
  | password hgood hbad =>
    obtain ⟨username, hname⟩ := Bytes.exists_toField? hgood
    rw [decode_login_eq, hname, Bytes.toField?_eq_none_iff.2 hbad]

theorem spoils_or_decode {t : ControlType} (ht : t ≠ .wake) (body : Bytes) :
    (∃ field, Spoils t body field) ∨ ∃ m, decode t body = .ok m := by
  cases t with
  | heartbeat =>
    by_cases hbad : seconds body < 0 ∨ 1000000000 ≤ nanos body
    · left
      exact ⟨.stamp, .stamp hbad⟩
    · right
      rw [decode_heartbeat_eq, if_neg hbad]
      exact ⟨_, rfl⟩
  | wake => exact absurd rfl ht
  | endOfSnapshot =>
    by_cases hgood : Utf8 (beforeZero (body.take ControlType.idWidth))
    · right
      obtain ⟨id, hid⟩ := Bytes.exists_toField? hgood
      rw [decode_endOfSnapshot_eq, hid]
      exact ⟨_, rfl⟩
    · left
      exact ⟨.channelId, .channelId hgood⟩
  | login =>
    by_cases hfirst : Utf8 (beforeZero (body.take ControlType.credentialWidth))
    · by_cases hsecond :
          Utf8 (beforeZero ((body.drop ControlType.credentialWidth).take ControlType.credentialWidth))
      · right
        obtain ⟨username, hname⟩ := Bytes.exists_toField? hfirst
        obtain ⟨password, hword⟩ := Bytes.exists_toField? hsecond
        rw [decode_login_eq, hname, hword]
        exact ⟨_, rfl⟩
      · left
        exact ⟨.password, .password hfirst hsecond⟩
    · left
      exact ⟨.username, .username hfirst⟩
  | resendRequest =>
    right
    exact ⟨_, rfl⟩

/-- **A body is refused for its first field that is spoilt**, and for nothing else. -/
theorem decode_eq_error_iff {t : ControlType} (ht : t ≠ .wake) {body : Bytes} {e : DecodeError} :
    decode t body = .error e ↔ ∃ field, e = .invalidField field ∧ Spoils t body field := by
  constructor
  · intro h
    rcases spoils_or_decode ht body with ⟨field, hspoils⟩ | ⟨m, hread⟩
    · rw [decode_of_spoils hspoils] at h
      cases h
      exact ⟨field, rfl, hspoils⟩
    · rw [hread] at h
      cases h
  · rintro ⟨field, rfl, hspoils⟩
    exact decode_of_spoils hspoils

/-! ### What is read, written again -/

/-- The bytes at one place behind first parts of one length. -/
theorem getElem?_append_congr {a a' b b' : Bytes} (hlength : a'.length = a.length) {i : Nat}
    (hleft : i < a.length → a'[i]? = a[i]?) (hright : a.length ≤ i → b'[i - a.length]? = b[i - a.length]?) :
    (a' ++ b')[i]? = (a ++ b)[i]? := by
  by_cases hi : i < a.length
  · rw [List.getElem?_append_left hi, List.getElem?_append_left (by omega), hleft hi]
  · have hi : a.length ≤ i := Nat.le_of_not_lt hi
    rw [List.getElem?_append_right hi, List.getElem?_append_right (by omega), hlength, hright hi]

/-- The byte at this place of a body says nothing by its value: it is behind a zero in the field of a text, or it is a flag
that is not zero. -/
def Idle (t : ControlType) (body : Bytes) (i : Nat) : Prop :=
  (∃ text ∈ t.texts, ∃ j, text.1 ≤ j ∧ j < i ∧ i < text.1 + text.2 ∧ body[j]? = some 0) ∨
    (t = .endOfSnapshot ∧ i = ControlType.idWidth + 8 ∧ body[i]? ≠ some 0)

/-- A text that was read from its field, written again, at a place where the bytes tell something. -/
theorem getElem?_ofField {t : ControlType} {start width : Nat} (hmem : (start, width) ∈ t.texts) {body : Bytes}
    (hlong : start + width ≤ body.length) {text : String}
    (htext : Bytes.toField? ((body.drop start).take width) = some text) {i : Nat} (hi : i < width)
    (hidle : ¬ Idle t body (start + i)) : (Bytes.ofField width text)[i]? = ((body.drop start).take width)[i]? := by
  have hwide : ((body.drop start).take width).length = width := by
    rw [List.length_take, List.length_drop]
    omega
  have hsame : ∀ j < i, ((body.drop start).take width)[j]? ≠ some 0 := by
    intro j hj hzero
    rw [List.getElem?_take_of_lt (by omega), List.getElem?_drop] at hzero
    apply hidle
    left
    exact ⟨(start, width), hmem, start + j, by omega, by omega, by omega, hzero⟩
  have hwritten := Bytes.getElem?_ofField_of_toField? htext hsame
  rwa [hwide] at hwritten

theorem fits_of_toField? {start width : Nat} {body : Bytes} (hlong : start + width ≤ body.length) {text : String}
    (htext : Bytes.toField? ((body.drop start).take width) = some text) : Bytes.Fits width text := by
  have hfits := Bytes.fits_of_toField? htext
  rwa [List.length_take, List.length_drop, Nat.min_eq_left (by omega)] at hfits

/-- The message is written in full, and its body tells what the one that it was read from tells. -/
structure Restores (t : ControlType) (body : Bytes) (m : Message) : Prop where
  fits : m.Fits
  type : m.type = t
  getElem? : ∀ i, ¬ Idle t body i → m.encode[i]? = body[i]?

theorem restores_heartbeat {body : Bytes} (hlength : body.length = ControlType.heartbeat.bodyLength) {m : Message}
    (h : decode .heartbeat body = .ok m) : Restores .heartbeat body m := by
  have hlength : body.length = 12 := hlength
  rw [decode_heartbeat_eq] at h
  split at h
  · cases h
  · next hgood =>
    cases h
    have hlt : Bytes.toNat (body.take 8) < 2 ^ 64 := Bytes.toNat_take_lt 8 body
    rw [seconds, Bytes.int64_ofNat_neg_iff hlt, not_or] at hgood
    obtain ⟨hseconds, hnanos⟩ := hgood
    have hwhole : (⟨Bytes.toNat (body.take 8) * 1000000000 + nanos body⟩ : Duration).seconds =
        Bytes.toNat (body.take 8) := by
      unfold Duration.seconds
      dsimp only
      omega
    have hrest : (⟨Bytes.toNat (body.take 8) * 1000000000 + nanos body⟩ : Duration).subsecond = nanos body := by
      unfold Duration.subsecond
      dsimp only
      omega
    refine ⟨?_, rfl, fun i _ => ?_⟩
    · show Duration.seconds _ ≤ maxSeconds
      omega
    · obtain ⟨hfirst, -⟩ := Header.ofNat_fieldAt body 0 8 (by omega)
      obtain ⟨hsecond, -⟩ := Header.ofNat_fieldAt body 8 4 (by omega)
      have hend : (body.drop 8).take 4 = body.drop 8 := List.take_of_length_le (by rw [List.length_drop]; omega)
      have hbytes : encode (heartbeat ⟨Bytes.toNat (body.take 8) * 1000000000 + nanos body⟩) = body := by
        unfold encode
        dsimp only
        rw [hwhole, hrest, Nat.min_eq_left (by omega)]
        show Bytes.ofNat 8 (Header.fieldAt body 0 8) ++ Bytes.ofNat 4 (Header.fieldAt body 8 4) = body
        rw [hfirst, hsecond, hend, List.drop_zero, List.take_append_drop]
      rw [hbytes]

/-- The three parts of the body of an end of a snapshot. -/
theorem exists_flag {body : Bytes} (hlength : body.length = ControlType.endOfSnapshot.bodyLength) :
    ∃ flag, body[ControlType.idWidth + 8]? = some flag ∧ body.drop 16 = [flag] ∧
      body.take ControlType.idWidth ++ (Bytes.ofNat 8 (Header.fieldAt body 8 8) ++ [flag]) = body := by
  have hlength : body.length = 17 := hlength
  obtain ⟨flag, hflag⟩ : ∃ flag, body.drop 16 = [flag] := List.length_eq_one_iff.1 (by simp [hlength])
  obtain ⟨hseq, -⟩ := Header.ofNat_fieldAt body 8 8 (by omega)
  have hplace : (body.drop 16)[0]? = some flag := by
    rw [hflag]
    rfl
  rw [List.getElem?_drop] at hplace
  refine ⟨flag, hplace, hflag, ?_⟩
  rw [hseq, ← hflag, Header.take_append_drop_add body 8 8]
  exact List.take_append_drop 8 body

theorem restores_endOfSnapshot {body : Bytes} (hlength : body.length = ControlType.endOfSnapshot.bodyLength) {m : Message}
    (h : decode .endOfSnapshot body = .ok m) : Restores .endOfSnapshot body m := by
  obtain ⟨flag, hplace, hflag, hbody⟩ := exists_flag hlength
  have hlong : 0 + ControlType.idWidth ≤ body.length := by
    rw [hlength]
    decide
  have hwide : (body.take ControlType.idWidth).length = ControlType.idWidth := List.length_take_of_le hlong
  have hlt := (Header.ofNat_fieldAt body 8 8 (by rw [hlength]; decide)).2
  have hnumber : (UInt64.ofNat (Bytes.toNat ((body.drop 8).take 8))).toNat = Header.fieldAt body 8 8 :=
    UInt64.toNat_ofNat_of_lt hlt
  rw [decode_endOfSnapshot_eq] at h
  cases hid : Bytes.toField? (body.take ControlType.idWidth) with
  | none =>
    rw [hid] at h
    cases h
  | some id =>
    rw [hid] at h
    cases h
    refine ⟨fits_of_toField? hlong hid, rfl, fun i hidle => ?_⟩
    have hsame : (Bytes.ofField ControlType.idWidth id ++
        (Bytes.ofNat 8 (Header.fieldAt body 8 8) ++ [if [flag] != [0] then 1 else 0]))[i]? =
          (body.take ControlType.idWidth ++ (Bytes.ofNat 8 (Header.fieldAt body 8 8) ++ [flag]))[i]? := by
      apply getElem?_append_congr
      · rw [Bytes.length_ofField, hwide]
      · intro hi
        rw [hwide] at hi
        exact getElem?_ofField (List.mem_singleton.2 rfl) hlong hid hi (by simpa using hidle)
      · intro hi
        rw [hwide] at hi ⊢
        apply getElem?_append_congr rfl (fun _ => rfl)
        intro hi'
        rw [Bytes.length_ofNat] at hi' ⊢
        by_cases hlast : i = ControlType.idWidth + 8
        · -- a flag is written as it was read, unless its value says nothing
          subst hlast
          have hzero : flag = 0 := by
            by_contra hne
            apply hidle
            right
            refine ⟨rfl, rfl, ?_⟩
            rw [hplace]
            simpa using hne
          simp [hzero]
        · rw [List.getElem?_eq_none (by simp; omega), List.getElem?_eq_none (by simp; omega)]
    rw [hbody] at hsame
    unfold encode
    dsimp only
    rw [hnumber, hflag, List.append_assoc]
    exact hsame

theorem restores_login {body : Bytes} (hlength : body.length = ControlType.login.bodyLength) {m : Message}
    (h : decode .login body = .ok m) : Restores .login body m := by
  have hlength : body.length = 64 := hlength
  rw [decode_login_eq] at h
  cases hname : Bytes.toField? (body.take ControlType.credentialWidth) with
  | none =>
    rw [hname] at h
    cases h
  | some username =>
    cases hword : Bytes.toField? ((body.drop ControlType.credentialWidth).take ControlType.credentialWidth) with
    | none =>
      rw [hname, hword] at h
      cases h
    | some password =>
      rw [hname, hword] at h
      cases h
      have hfirst : 0 + ControlType.credentialWidth ≤ body.length := by
        rw [hlength]
        decide
      have hsecond : ControlType.credentialWidth + ControlType.credentialWidth ≤ body.length := by
        rw [hlength]
        decide
      have hwide : (body.take ControlType.credentialWidth).length = ControlType.credentialWidth :=
        List.length_take_of_le hfirst
      have hrest : (body.drop ControlType.credentialWidth).take ControlType.credentialWidth =
          body.drop ControlType.credentialWidth := by
        apply List.take_of_length_le
        rw [List.length_drop, hlength]
        decide
      refine ⟨⟨fits_of_toField? hfirst hname, fits_of_toField? hsecond hword⟩, rfl, fun i hidle => ?_⟩
      have hsame : (Bytes.ofField ControlType.credentialWidth username ++
          Bytes.ofField ControlType.credentialWidth password)[i]? =
            (body.take ControlType.credentialWidth ++ body.drop ControlType.credentialWidth)[i]? := by
        apply getElem?_append_congr
        · rw [Bytes.length_ofField, hwide]
        · intro hi
          rw [hwide] at hi
          exact getElem?_ofField (List.mem_cons_self) hfirst hname hi (by simpa using hidle)
        · intro hi
          rw [hwide] at hi ⊢
          by_cases hin : i - ControlType.credentialWidth < ControlType.credentialWidth
          · have hplace : ControlType.credentialWidth + (i - ControlType.credentialWidth) = i := by omega
            have hmem : (ControlType.credentialWidth, ControlType.credentialWidth) ∈ ControlType.texts .login :=
              List.mem_cons_of_mem _ List.mem_cons_self
            rw [getElem?_ofField hmem hsecond hword hin (by rwa [hplace]), hrest]
          · rw [List.getElem?_eq_none (by rw [Bytes.length_ofField]; omega),
              List.getElem?_eq_none (by rw [← hrest]; exact Nat.le_trans (List.length_take_le _ _) (by omega))]
      rw [List.take_append_drop] at hsame
      exact hsame

theorem restores_of_decode {t : ControlType} {body : Bytes} (hlength : body.length = t.bodyLength) {m : Message}
    (h : decode t body = .ok m) : Restores t body m := by
  cases t with
  | heartbeat => exact restores_heartbeat hlength h
  | wake => cases h
  | endOfSnapshot => exact restores_endOfSnapshot hlength h
  | login => exact restores_login hlength h
  | resendRequest =>
    obtain ⟨seq, count, rfl, rfl⟩ := (decode_resendRequest_iff hlength).1 h
    exact ⟨trivial, rfl, fun i _ => rfl⟩

end Message

namespace Frame

/-! ### What comes of reading a message -/

/-- The frame has the length of a message of this type, and says so. -/
def Measured (f : Frame) (t : ControlType) : Prop := f.header.len.toNat = t.bodyLength ∧ f.body.length = t.bodyLength

instance (f : Frame) (t : ControlType) : Decidable (f.Measured t) := inferInstanceAs (Decidable (_ ∧ _))

theorem message?_of_code {f : Frame} {t : ControlType} (h : f.type = t.code) (ht : t ≠ .wake) : f.message? =
    if f.Measured t then (Message.decode t f.body).map some
    else .error (.bodyLength t t.bodyLength f.header.len.toNat) := by
  have htype : ControlType.ofCode? f.header.type = some t := ControlType.ofCode?_eq_some_iff.2 h
  have hmessage : f.message? =
      if f.header.len.toNat ≠ t.bodyLength ∨ f.body.length ≠ t.bodyLength then
        .error (.bodyLength t t.bodyLength f.header.len.toNat)
      else (Message.decode t f.body).map some := by
    unfold message?
    rw [htype]
    cases t with
    | wake => exact absurd rfl ht
    | _ => rfl
  rw [hmessage]
  by_cases hmeasured : f.Measured t
  · obtain ⟨hlen, hlength⟩ := hmeasured
    rw [if_neg (by simp [hlen, hlength]), if_pos ⟨hlen, hlength⟩]
  · rw [if_neg hmeasured, if_pos (by rwa [Measured, not_and_or] at hmeasured)]

theorem message?_of_wake {f : Frame} (h : f.type = ControlType.wake.code) : f.message? = .error (.notOnWire .wake) := by
  have htype : ControlType.ofCode? f.header.type = some .wake := ControlType.ofCode?_eq_some_iff.2 h
  unfold message?
  rw [htype]

theorem message?_of_data {f : Frame} (h : f.type < 22 ∨ 26 < f.type) : f.message? = .ok none := by
  have htype : ControlType.ofCode? f.header.type = none := ControlType.ofCode?_eq_none_iff.2 h
  unfold message?
  rw [htype]

/-- What the header and the body of a frame tell of the message in it. -/
inductive Tells (f : Frame) : Except DecodeError (Option Message) → Prop
  | data (h : f.type < 22 ∨ 26 < f.type) : Tells f (.ok none)
  | wake (h : f.type = 23) : Tells f (.error (.notOnWire .wake))
  | length {t : ControlType} (h : f.type = t.code) (ht : t ≠ .wake) (hlength : ¬ f.Measured t) :
    Tells f (.error (.bodyLength t t.bodyLength f.header.len.toNat))
  | field {t : ControlType} {field : ControlField} (h : f.type = t.code) (ht : t ≠ .wake) (hlength : f.Measured t)
    (hfield : Message.Spoils t f.body field) : Tells f (.error (.invalidField field))
  | message {t : ControlType} {m : Message} (h : f.type = t.code) (ht : t ≠ .wake) (hlength : f.Measured t)
    (hbody : Message.Restores t f.body m) : Tells f (.ok (some m))

theorem tells_message? (f : Frame) : f.Tells f.message? := by
  cases htype : ControlType.ofCode? f.header.type with
  | none =>
    have hdata : f.type < 22 ∨ 26 < f.type := ControlType.ofCode?_eq_none_iff.1 htype
    rw [message?_of_data hdata]
    exact .data hdata
  | some t =>
    have hcode : f.type = t.code := ControlType.ofCode?_eq_some_iff.1 htype
    by_cases hwake : t = .wake
    · subst hwake
      rw [message?_of_wake hcode]
      exact .wake hcode
    · rw [message?_of_code hcode hwake]
      by_cases hmeasured : f.Measured t
      · rw [if_pos hmeasured]
        cases hdec : Message.decode t f.body with
        | error e =>
          obtain ⟨field, rfl, hspoils⟩ := (Message.decode_eq_error_iff hwake).1 hdec
          exact .field hcode hwake hmeasured hspoils
        | ok m => exact .message hcode hwake hmeasured (Message.restores_of_decode hmeasured.2 hdec)
      · rw [if_neg hmeasured]
        exact .length hcode hwake hmeasured

theorem message?_eq_invalidField_iff {f : Frame} {field : ControlField} :
    f.message? = .error (.invalidField field) ↔
      ∃ t, f.type = t.code ∧ t ≠ .wake ∧ f.Measured t ∧ Message.Spoils t f.body field := by
  constructor
  · intro h
    have htells := f.tells_message?
    rw [h] at htells
    cases htells with
    | field hcode hwake hmeasured hspoils => exact ⟨_, hcode, hwake, hmeasured, hspoils⟩
  · rintro ⟨t, hcode, hwake, hmeasured, hspoils⟩
    rw [message?_of_code hcode hwake, if_pos hmeasured, (Message.decode_eq_error_iff hwake).2 ⟨field, rfl, hspoils⟩]
    rfl

/-- A frame without a fault carries a message. -/
theorem exists_message {f : Frame} {t : ControlType} (hcode : f.type = t.code) (hwake : t ≠ .wake)
    (hmeasured : f.Measured t) (hsound : ∀ field, ¬ Message.Spoils t f.body field) :
    ∃ m, f.message? = .ok (some m) ∧ Message.Restores t f.body m := by
  rw [message?_of_code hcode hwake, if_pos hmeasured]
  cases hdec : Message.decode t f.body with
  | error e =>
    obtain ⟨field, -, hspoils⟩ := (Message.decode_eq_error_iff hwake).1 hdec
    exact absurd hspoils (hsound field)
  | ok m => exact ⟨m, rfl, Message.restores_of_decode hmeasured.2 hdec⟩

end Frame

/-! ### Reading within the body -/

/-- The first bytes and what is behind them. There is no answer where there are not as many. -/
def Bytes.split? (width : Nat) (bytes : Bytes) : Option (Bytes × Bytes) :=
  if width ≤ bytes.length then some (bytes.take width, bytes.drop width) else none

theorem Bytes.split?_bind {α : Type} {width : Nat} {bytes : Bytes} (h : width ≤ bytes.length)
    (k : Bytes × Bytes → Option α) : (split? width bytes >>= k) = k (bytes.take width, bytes.drop width) := by
  unfold split?
  rw [if_pos h]
  rfl

/-- Reads a body like `decode`, one field after the other, and comes to nothing where a field goes past the end. -/
def Message.read? (t : ControlType) (body : Bytes) : Option (Except DecodeError Message) :=
  match t with
  | .heartbeat => do
    let (seconds, rest) ← Bytes.split? 8 body
    let (nanos, _) ← Bytes.split? 4 rest
    if Int64.ofNat (Bytes.toNat seconds) < 0 ∨ 1000000000 ≤ Bytes.toNat nanos then
      some (.error (.invalidField .stamp))
    else some (.ok (.heartbeat ⟨Bytes.toNat seconds * 1000000000 + Bytes.toNat nanos⟩))
  | .wake => some (.error (.notOnWire .wake))
  | .endOfSnapshot => do
    let (id, rest) ← Bytes.split? ControlType.idWidth body
    match Bytes.toField? id with
    | none => some (.error (.invalidField .channelId))
    | some id =>
      let (seq, rest) ← Bytes.split? 8 rest
      let (flag, _) ← Bytes.split? 1 rest
      some (.ok (.endOfSnapshot id (.ofNat (Bytes.toNat seq)) (flag != [0])))
  | .login => do
    let (username, rest) ← Bytes.split? ControlType.credentialWidth body
    match Bytes.toField? username with
    | none => some (.error (.invalidField .username))
    | some username =>
      let (password, _) ← Bytes.split? ControlType.credentialWidth rest
      match Bytes.toField? password with
      | none => some (.error (.invalidField .password))
      | some password => some (.ok (.login username password))
  | .resendRequest => do
    let (seq, rest) ← Bytes.split? 8 body
    let (count, _) ← Bytes.split? 4 rest
    some (.ok (.resendRequest (.ofNat (Bytes.toNat seq)) (.ofNat (Bytes.toNat count))))

namespace Message

/-- A body of the right length is read without going past its end. -/
theorem read?_eq {t : ControlType} {body : Bytes} (hlength : body.length = t.bodyLength) :
    read? t body = some (decode t body) := by
  cases t with
  | heartbeat =>
    have hlength : body.length = 12 := hlength
    rw [decode_heartbeat_eq]
    unfold read?
    dsimp only
    rw [Bytes.split?_bind (by omega)]
    dsimp only
    rw [Bytes.split?_bind (by rw [List.length_drop]; omega)]
    dsimp only
    unfold seconds nanos
    split
    · rfl
    · rfl
  | wake => rfl
  | endOfSnapshot =>
    have hlength : body.length = 17 := hlength
    have hrest : (body.drop 8).length = 9 := by
      rw [List.length_drop, hlength]
    have hlast : (body.drop 16).length = 1 := by
      rw [List.length_drop, hlength]
    rw [decode_endOfSnapshot_eq]
    unfold read?
    dsimp only
    rw [Bytes.split?_bind (by rw [hlength]; decide)]
    dsimp only
    cases Bytes.toField? (body.take ControlType.idWidth) with
    | none => rfl
    | some id =>
      dsimp only
      rw [show ControlType.idWidth = 8 from rfl, Bytes.split?_bind (by omega)]
      dsimp only
      rw [List.drop_drop, Bytes.split?_bind (Nat.le_of_eq hlast.symm)]
      dsimp only
      rw [List.take_of_length_le (Nat.le_of_eq hlast)]
  | login =>
    have hlength : body.length = 64 := hlength
    have hrest : (body.drop ControlType.credentialWidth).length = ControlType.credentialWidth := by
      rw [List.length_drop, hlength]
      rfl
    rw [decode_login_eq]
    unfold read?
    dsimp only
    rw [Bytes.split?_bind (by rw [hlength]; decide)]
    dsimp only
    cases Bytes.toField? (body.take ControlType.credentialWidth) with
    | none => rfl
    | some username =>
      dsimp only
      rw [Bytes.split?_bind (Nat.le_of_eq hrest.symm)]
      dsimp only
      cases Bytes.toField? ((body.drop ControlType.credentialWidth).take ControlType.credentialWidth) with
      | none => rfl
      | some password => rfl
  | resendRequest =>
    have hlength : body.length = 12 := hlength
    unfold read? decode
    dsimp only
    rw [Bytes.split?_bind (by omega)]
    dsimp only
    rw [Bytes.split?_bind (by rw [List.length_drop]; omega)]

end Message

namespace Frame

/-- Reads the message like `message?`, and comes to nothing where a field goes past the end of the body. -/
def read? (f : Frame) : Option (Except DecodeError (Option Message)) :=
  match ControlType.ofCode? f.header.type with
  | none => some (.ok none)
  | some .wake => some (.error (.notOnWire .wake))
  | some t =>
    if f.Measured t then (Message.read? t f.body).map (·.map some)
    else some (.error (.bodyLength t t.bodyLength f.header.len.toNat))

theorem read?_eq (f : Frame) : f.read? = some f.message? := by
  cases htype : ControlType.ofCode? f.header.type with
  | none =>
    rw [message?_of_data (ControlType.ofCode?_eq_none_iff.1 htype)]
    unfold read?
    rw [htype]
  | some t =>
    have hcode : f.type = t.code := ControlType.ofCode?_eq_some_iff.1 htype
    by_cases hwake : t = .wake
    · subst hwake
      rw [message?_of_wake hcode]
      unfold read?
      rw [htype]
    · have hread : f.read? =
          if f.Measured t then (Message.read? t f.body).map (·.map some)
          else some (.error (.bodyLength t t.bodyLength f.header.len.toNat)) := by
        unfold read?
        rw [htype]
        cases t with
        | wake => exact absurd rfl hwake
        | _ => rfl
      rw [hread, message?_of_code hcode hwake]
      by_cases hmeasured : f.Measured t
      · rw [if_pos hmeasured, if_pos hmeasured, Message.read?_eq hmeasured.2]
        rfl
      · rw [if_neg hmeasured, if_neg hmeasured]

/-- **What comes of reading a message from a frame**, whatever its header and its body are. There is none exactly if the type
is not that of a control message; it is not for the wire exactly if the type is 23; the length is wrong exactly if the
header or the body does not have the length of the type; and a field is invalid exactly if the lengths are right and the
body is spoilt in this field. In all other cases there is a message. It comes back from its own frame under any number,
and that frame has the bytes of the body, but for those behind the zero in the field of a text and for a flag that is not
zero. And nothing is read past the end of the body. -/
theorem message?_follows_grammar (f : Frame) :
    (f.message? = .ok none ↔ f.type < 22 ∨ 26 < f.type) ∧
    (∀ t, f.message? = .error (.notOnWire t) ↔ f.type = 23 ∧ t = .wake) ∧
    (∀ t expected declared, f.message? = .error (.bodyLength t expected declared) ↔
      f.type = t.code ∧ t ≠ .wake ∧ (f.header.len.toNat ≠ t.bodyLength ∨ f.body.length ≠ t.bodyLength) ∧
        expected = t.bodyLength ∧ declared = f.header.len.toNat) ∧
    (∀ field, f.message? = .error (.invalidField field) ↔
      ∃ t, f.type = t.code ∧ t ≠ .wake ∧ f.Measured t ∧ Message.Spoils t f.body field) ∧
    (∀ t, f.type = t.code → t ≠ .wake → f.Measured t → (∀ field, ¬ Message.Spoils t f.body field) →
      ∃ m, f.message? = .ok (some m) ∧ ∀ seq : UInt64,
        (control m seq).message? = .ok (some m) ∧ (control m seq).type = f.type ∧
          (control m seq).body.length = f.body.length ∧
            ∀ i, ¬ Message.Idle t f.body i → (control m seq).body[i]? = f.body[i]?) ∧
    f.read? = some f.message? := by
  have htells := f.tells_message?
  refine ⟨⟨?_, message?_of_data⟩, fun t => ⟨?_, ?_⟩, fun t expected declared => ⟨?_, ?_⟩,
    fun field => message?_eq_invalidField_iff, fun t hcode hwake hmeasured hsound => ?_, f.read?_eq⟩
  · intro h
    rw [h] at htells
    cases htells with
    | data hdata => exact hdata
  · intro h
    rw [h] at htells
    cases htells with
    | wake hcode => exact ⟨hcode, rfl⟩
  · rintro ⟨hcode, rfl⟩
    exact message?_of_wake hcode
  · intro h
    rw [h] at htells
    cases htells with
    | length hcode hwake hlength =>
      rw [Measured, not_and_or] at hlength
      exact ⟨hcode, hwake, hlength, rfl, rfl⟩
  · rintro ⟨hcode, hwake, hlength, rfl, rfl⟩
    rw [message?_of_code hcode hwake, if_neg]
    rwa [Measured, not_and_or]
  · obtain ⟨m, hread, hrestores⟩ := exists_message hcode hwake hmeasured hsound
    refine ⟨m, hread, fun seq => ⟨(message?_control_eq_iff m seq).2 hrestores.fits, ?_, ?_, hrestores.getElem?⟩⟩
    · rw [hcode, ← hrestores.type]
      rfl
    · rw [hmeasured.2, ← hrestores.type]
      exact m.length_encode

/-- The end of a snapshot whose id has bytes behind its zero that are no text, and whose flag is seven. -/
def padded : Frame := ⟨⟨3, 0, 17, 24, noShard⟩, [109, 100, 49, 0, 255, 254, 1, 2, 5, 0, 0, 0, 0, 0, 0, 0, 7]⟩

theorem follows_grammar_padded :
    padded.Measured .endOfSnapshot ∧ (∀ field, ¬ Message.Spoils .endOfSnapshot padded.body field) ∧
      ∃ m, padded.message? = .ok (some m) ∧ (control m 9).message? = .ok (some m) ∧
        (control m 9).body.length = 17 ∧ (control m 9).body[2]? = some 49 := by
  have hmeasured : padded.Measured .endOfSnapshot := ⟨rfl, rfl⟩
  have hsound : ∀ field, ¬ Message.Spoils .endOfSnapshot padded.body field := by
    intro field hspoils
    cases hspoils with
    | channelId hbad => exact hbad ⟨['m', 'd', '1'], by decide⟩
  have hplace : ¬ Message.Idle .endOfSnapshot padded.body 2 := by
    rintro (⟨text, hmem, j, hlow, hj, -, hzero⟩ | ⟨-, hflag, -⟩)
    · have hcases : j = 0 ∨ j = 1 := by omega
      rcases hcases with rfl | rfl
      · exact absurd hzero (by decide)
      · exact absurd hzero (by decide)
    · exact absurd hflag (by decide)
  obtain ⟨-, -, -, -, hmessage, -⟩ := message?_follows_grammar padded
  obtain ⟨m, hread, hagain⟩ := hmessage .endOfSnapshot rfl (by decide) hmeasured hsound
  obtain ⟨hback, -, hlength, hsame⟩ := hagain 9
  exact ⟨hmeasured, hsound, m, hread, hback, hlength, hsame 2 hplace⟩

end Frame

end ReliableMulticast
