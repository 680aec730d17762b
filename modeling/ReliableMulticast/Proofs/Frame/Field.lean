import ReliableMulticast.Bytes
import Mathlib.Data.List.TakeWhile

/-!
# Texts in fields

A text in a field of fixed width ends before its first zero byte, and only one character has a zero among its bytes.

* `toField?_ofField`: what is read back from a field that is wide enough is the text up to that character, and nothing is
  read back from a field as it was written there unless it fits (`toField?_ofField_iff`);
* `toField?_eq_none_iff`: a field has no text exactly if its bytes in front of the first zero are not UTF-8;
* `getElem?_ofField_of_toField?`: the text of a field, written again, gives the same bytes up to and with the first zero.
-/

namespace ReliableMulticast

namespace Bytes

/-! ### Texts in fields -/

theorem ofText_eq_flatMap (text : String) : ofText text = text.toList.flatMap String.utf8EncodeChar := by
  unfold ofText
  rw [String.toUTF8_eq_toByteArray, ← String.utf8Encode_toList]
  simp [List.utf8Encode]

theorem length_ofText (text : String) : (ofText text).length = text.utf8ByteSize := by
  simp [ofText]

theorem toText?_ofText (text : String) : toText? (ofText text) = some text := by
  unfold toText? ofText String.fromUTF8?
  rw [dif_pos (by simpa using text.isValidUTF8)]
  rfl

/-- The character that ends a text in a field. -/
def nul : Char := '\x00'

theorem utf8EncodeChar_nul : String.utf8EncodeChar nul = [0] := rfl

theorem ne_zero_of_mem_utf8EncodeChar {c : Char} (h : c ≠ nul) {b : UInt8} (hb : b ∈ String.utf8EncodeChar c) :
    b ≠ 0 := by
  have hpos : c.toNat ≠ 0 := by
    intro hzero
    exact h (Char.ext (UInt32.toNat_inj.1 hzero))
  have hval : c.toNat = c.val.toNat := rfl
  rintro rfl
  unfold String.utf8EncodeChar at hb
  dsimp only at hb
  -- one byte is the code itself, and the bytes of the longer forms are at least 128
  repeat' split at hb
  all_goals
    simp only [List.mem_cons, List.not_mem_nil, or_false, ← UInt8.toNat_inj, UInt8.toNat_ofNat', UInt8.toNat_zero] at hb
    omega

/-- A text up to the first `nul` in it. -/
def beforeNul (text : String) : String := String.ofList (text.toList.takeWhile (· != nul))

def NulFree (text : String) : Prop := nul ∉ text.toList

instance (text : String) : Decidable (NulFree text) := inferInstanceAs (Decidable (_ ∉ _))

theorem beforeNul_eq_self_iff (text : String) : beforeNul text = text ↔ NulFree text := by
  have hlist : beforeNul text = text ↔ text.toList.takeWhile (· != nul) = text.toList := by
    rw [← String.toList_inj, beforeNul, String.toList_ofList]
  rw [hlist, List.takeWhile_eq_self_iff]
  constructor
  · intro hall hmem
    have := hall nul hmem
    simp at this
  · intro hfree c hc
    have hne : c ≠ nul := by
      rintro rfl
      exact hfree hc
    simpa using hne

/-- A character other than `nul` keeps all of its bytes in front of the zeros. -/
theorem takeWhile_flatMap (cs : List Char) (n : Nat) :
    (cs.flatMap String.utf8EncodeChar ++ List.replicate n 0).takeWhile (· != 0) =
      (cs.takeWhile (· != nul)).flatMap String.utf8EncodeChar := by
  induction cs with
  | nil =>
    cases n with
    | zero => rfl
    | succ n => rfl
  | cons c cs ih =>
    by_cases hc : c = nul
    · subst hc
      rw [List.flatMap_cons, utf8EncodeChar_nul, List.takeWhile_cons, if_neg (by simp)]
      rfl
    · have whole : ∀ b ∈ String.utf8EncodeChar c, (b != 0) = true := by
        intro b hb
        simpa using ne_zero_of_mem_utf8EncodeChar hc hb
      rw [List.flatMap_cons, List.append_assoc, List.takeWhile_append_of_pos whole, ih, List.takeWhile_cons,
        if_pos (by simpa using hc), List.flatMap_cons]

/-- **A text comes back from a field up to the first `nul` in it**, if the field is wide enough. -/
theorem toField?_ofField {width : Nat} {text : String} (h : text.utf8ByteSize ≤ width) :
    toField? (ofField width text) = some (beforeNul text) := by
  have hfit : (ofText text).take width = ofText text := by
    apply List.take_of_length_le
    rw [length_ofText]
    exact h
  have hkept : (ofField width text).takeWhile (· != 0) = ofText (beforeNul text) := by
    unfold ofField
    dsimp only
    rw [hfit, ofText_eq_flatMap, takeWhile_flatMap, ofText_eq_flatMap, beforeNul, String.toList_ofList]
  unfold toField?
  rw [hkept, toText?_ofText]

/-! ### What is read from fields -/

theorem toText?_eq_some_iff {bytes : Bytes} {text : String} : toText? bytes = some text ↔ bytes = ofText text := by
  constructor
  · intro h
    unfold toText? String.fromUTF8? at h
    split at h
    · cases h
      rfl
    · cases h
  · rintro rfl
    exact toText?_ofText text

/-- The bytes are characters in UTF-8, one after the other. -/
def Utf8 (bytes : Bytes) : Prop := ∃ cs : List Char, bytes = cs.flatMap String.utf8EncodeChar

theorem toText?_eq_none_iff {bytes : Bytes} : toText? bytes = none ↔ ¬ Utf8 bytes := by
  constructor
  · rintro hnone ⟨cs, hcs⟩
    have hsome : toText? bytes = some (String.ofList cs) := by
      rw [toText?_eq_some_iff, ofText_eq_flatMap, String.toList_ofList, hcs]
    rw [hnone] at hsome
    cases hsome
  · intro hnot
    cases h : toText? bytes with
    | none => rfl
    | some text =>
      refine absurd ⟨text.toList, ?_⟩ hnot
      rw [toText?_eq_some_iff.1 h, ofText_eq_flatMap]

/-- The bytes of a field in front of the first zero in it. -/
def beforeZero (field : Bytes) : Bytes := field.takeWhile (· != 0)

theorem toField?_eq_none_iff {field : Bytes} : toField? field = none ↔ ¬ Utf8 (beforeZero field) := toText?_eq_none_iff

theorem toField?_eq_some_iff {field : Bytes} {text : String} : toField? field = some text ↔ beforeZero field = ofText text :=
  toText?_eq_some_iff

theorem exists_toField? {field : Bytes} (h : Utf8 (beforeZero field)) : ∃ text, toField? field = some text := by
  cases hread : toField? field with
  | none => exact absurd h (toField?_eq_none_iff.1 hread)
  | some text => exact ⟨text, rfl⟩

theorem nulFree_of_zero_notMem {text : String} (h : 0 ∉ ofText text) : NulFree text := by
  intro hmem
  apply h
  rw [ofText_eq_flatMap, List.mem_flatMap]
  exact ⟨nul, hmem, by simp [utf8EncodeChar_nul]⟩

/-- The text comes back from a field of this width. -/
def Fits (width : Nat) (text : String) : Prop := NulFree text ∧ text.utf8ByteSize ≤ width

instance (width : Nat) (text : String) : Decidable (Fits width text) := inferInstanceAs (Decidable (_ ∧ _))

/-- What is read from a field fits into one of this width. -/
theorem fits_of_toField? {field : Bytes} {text : String} (h : toField? field = some text) : Fits field.length text := by
  have hkept : beforeZero field = ofText text := toField?_eq_some_iff.1 h
  constructor
  · apply nulFree_of_zero_notMem
    rw [← hkept]
    intro hzero
    simpa using List.mem_takeWhile_imp hzero
  · rw [← length_ofText, ← hkept]
    exact (List.takeWhile_prefix _).length_le

/-- **A text comes back from a field exactly if it fits.** -/
theorem toField?_ofField_iff {width : Nat} {text : String} : toField? (ofField width text) = some text ↔ Fits width text := by
  constructor
  · intro h
    have hfits := fits_of_toField? h
    rwa [length_ofField] at hfits
  · rintro ⟨hfree, hsize⟩
    rw [toField?_ofField hsize, (beforeNul_eq_self_iff text).2 hfree]

/-- A field holds no zero, or its text ends at the first one. -/
theorem beforeZero_cases (field : Bytes) : beforeZero field = field ∨ ∃ behind, field = beforeZero field ++ 0 :: behind := by
  have hall : beforeZero field ++ field.dropWhile (· != 0) = field := List.takeWhile_append_dropWhile
  have hfirst := List.head?_dropWhile_not (· != 0) field
  cases hdropped : field.dropWhile (· != 0) with
  | nil =>
    left
    rw [hdropped, List.append_nil] at hall
    exact hall
  | cons b behind =>
    right
    rw [hdropped] at hall hfirst
    have hzero : b = 0 := by simpa using hfirst
    refine ⟨behind, ?_⟩
    rw [← hzero, hall]

/-- Written again, a text gives the bytes of its field up to the first zero, and this zero. -/
theorem getElem?_ofField_of_toField? {field : Bytes} {text : String} (h : toField? field = some text) {i : Nat}
    (hi : ∀ j < i, field[j]? ≠ some 0) : (ofField field.length text)[i]? = field[i]? := by
  have hkept : ofText text = beforeZero field := (toField?_eq_some_iff.1 h).symm
  have hle : (beforeZero field).length ≤ field.length := (List.takeWhile_prefix _).length_le
  have hwritten : ofField field.length text =
      beforeZero field ++ List.replicate (field.length - (beforeZero field).length) 0 := by
    unfold ofField
    dsimp only
    rw [hkept, List.take_of_length_le hle]
  rw [hwritten]
  rcases beforeZero_cases field with hwhole | ⟨behind, hbehind⟩
  · rw [hwhole, Nat.sub_self, List.replicate_zero, List.append_nil]
  · -- the place is in the text, or it is that of the zero that ends it
    generalize beforeZero field = kept at hbehind ⊢
    subst hbehind
    have hplace : i ≤ kept.length := by
      by_contra hbeyond
      apply hi kept.length (Nat.lt_of_not_le hbeyond)
      simp
    rcases Nat.lt_or_eq_of_le hplace with hin | rfl
    · rw [List.getElem?_append_left hin, List.getElem?_append_left hin]
    · simp

end Bytes

end ReliableMulticast
