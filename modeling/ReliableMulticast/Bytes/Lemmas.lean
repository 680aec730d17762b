import Mathlib.Algebra.Group.Nat.Even
import ReliableMulticast.Bytes

/-!
What the numbers of byte strings are: a field keeps a number modulo the power of 256 that its width
names, and every string spells a number below that power.
-/

namespace ReliableMulticast.Bytes

theorem toNat_ofNat (width n : Nat) : toNat (ofNat width n) = n % 256 ^ width := by
  induction width generalizing n with
  | zero => simp [ofNat, toNat, Nat.mod_one]
  | succ width ih =>
    show (UInt8.ofNat n).toNat + 256 * toNat (ofNat width (n / 256)) = _
    have hp : 256 ^ (width + 1) = 256 * 256 ^ width := Nat.pow_succ'
    rw [ih, UInt8.toNat_ofNat', hp, Nat.mod_mul]

theorem toNat_lt (bs : Bytes) : toNat bs < 256 ^ bs.length := by
  induction bs with
  | nil => simp [toNat]
  | cons b bs ih =>
    have := b.toNat_lt
    simp only [toNat, List.length_cons, Nat.pow_succ]
    omega

end ReliableMulticast.Bytes
