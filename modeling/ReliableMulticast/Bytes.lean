/-!
Byte strings: numbers written least significant byte first in a fixed number of bytes, and texts
written as UTF-8 into a field of a fixed width that zeros fill up.
-/

namespace ReliableMulticast

abbrev Bytes := List UInt8

namespace Bytes

/-! ### Numbers -/

/-- The `width` lowest bytes of `n`, least significant first. -/
def ofNat : Nat → Nat → Bytes
  | 0, _ => []
  | width + 1, n => UInt8.ofNat n :: ofNat width (n / 256)

/-- The number that a byte string spells, least significant byte first. -/
def toNat : Bytes → Nat
  | [] => 0
  | b :: bs => b.toNat + 256 * toNat bs

theorem length_ofNat (width n : Nat) : (ofNat width n).length = width := by
  induction width generalizing n with
  | zero => rfl
  | succ width ih => simp [ofNat, ih]

theorem ofNat_toNat (bs : Bytes) : ofNat bs.length (toNat bs) = bs := by
  induction bs with
  | nil => rfl
  | cons b bs ih =>
    have hb := b.toNat_lt
    simp only [toNat, List.length_cons, ofNat]
    have h1 : (b.toNat + 256 * toNat bs) / 256 = toNat bs := by omega
    have h2 : UInt8.ofNat (b.toNat + 256 * toNat bs) = b := by
      apply UInt8.toNat_inj.1
      rw [UInt8.toNat_ofNat']
      omega
    rw [h1, h2, ih]

/-! ### Texts -/

def ofText (text : String) : Bytes := text.toUTF8.data.toList

/-- The text that a byte string is the UTF-8 form of, if it is one. -/
def toText? (bytes : Bytes) : Option String := String.fromUTF8? ⟨bytes.toArray⟩

/-- A text in a field: what does not fit is cut off by bytes, and zeros fill the rest. -/
def ofField (width : Nat) (text : String) : Bytes :=
  let bytes := (ofText text).take width
  bytes ++ List.replicate (width - bytes.length) 0

/-- The text of a field ends before its first zero. -/
def toField? (bytes : Bytes) : Option String := toText? (bytes.takeWhile (· != 0))

theorem length_ofField (width : Nat) (text : String) : (ofField width text).length = width := by
  simp only [ofField, List.length_append, List.length_take, List.length_replicate]
  omega

end Bytes

end ReliableMulticast
