import ReliableMulticast.Bytes

/-!
Byte strings for reading by people: as hexadecimal digits, and as a digest that tells long ones
apart.
-/

namespace ReliableMulticast.Bytes

/-- The value of a hexadecimal digit. -/
def digitValue (c : Char) : Nat :=
  if c.isDigit then c.toNat - '0'.toNat
  else if 'a' ≤ c ∧ c ≤ 'f' then c.toNat - 'a'.toNat + 10
  else if 'A' ≤ c ∧ c ≤ 'F' then c.toNat - 'A'.toNat + 10
  else 0

/-- The byte string that pairs of hexadecimal digits spell. -/
def ofDigits : List Char → Bytes
  | high :: low :: rest => .ofNat (16 * digitValue high + digitValue low) :: ofDigits rest
  | _ => []

def ofHex (text : String) : Bytes := ofDigits text.toList

def digit (n : Nat) : Char := Char.ofNat (if n < 10 then '0'.toNat + n else 'a'.toNat + n - 10)

/-- Two lower-case hexadecimal digits for each byte. -/
def hex (bs : Bytes) : String :=
  String.ofList (bs.flatMap fun b => [digit (b.toNat / 16), digit (b.toNat % 16)])

/-- The FNV-1a digest of 64 bits. -/
def fnv1a (bs : Bytes) : UInt64 :=
  bs.foldl (fun h b => (h ^^^ b.toUInt64) * 0x100000001b3) 0xcbf29ce484222325

/-- The digest as sixteen digits, the most significant first. -/
def digest (bs : Bytes) : String := hex (ofNat 8 (fnv1a bs).toNat).reverse

end ReliableMulticast.Bytes
