/-!
Lengths of time to the nanosecond, and their short text: the largest unit of which there is at
least one, with as many decimal places as are needed.
-/

namespace ReliableMulticast

structure Duration where
  nanos : Nat
deriving DecidableEq, Repr, Inhabited

/-- A point in time, in nanoseconds since the clock was started. -/
abbrev Instant := Nat

namespace Duration

def ofSeconds (n : Nat) : Duration := ⟨n * 1000000000⟩

def ofMillis (n : Nat) : Duration := ⟨n * 1000000⟩

/-- The whole seconds of a length of time. -/
def seconds (d : Duration) : Nat := d.nanos / 1000000000

/-- The nanoseconds after the last whole second. -/
def subsecond (d : Duration) : Nat := d.nanos % 1000000000

/-- The whole milliseconds of a length of time. -/
def millis (d : Duration) : Nat := d.nanos / 1000000

def isZero (d : Duration) : Bool := d.nanos == 0

/-- A number in decimal with leading zeros up to `width` digits. -/
def paddedDigits (width n : Nat) : List Char :=
  let digits := Nat.toDigits 10 n
  List.replicate (width - digits.length) '0' ++ digits

/-- The decimal places that `rest` out of `10 ^ places` amounts to, without trailing zeros. -/
def fraction (places rest : Nat) : String :=
  if rest = 0 then ""
  else
    let digits := (paddedDigits places rest).reverse.dropWhile (· == '0')
    "." ++ String.ofList digits.reverse

/-- The short text of a length of time, such as `1.5s`, `370ms`, `2µs` and `0ns`. -/
def text (d : Duration) : String :=
  let n := d.nanos
  if 1000000000 ≤ n then toString (n / 1000000000) ++ fraction 9 (n % 1000000000) ++ "s"
  else if 1000000 ≤ n then toString (n / 1000000) ++ fraction 6 (n % 1000000) ++ "ms"
  else if 1000 ≤ n then toString (n / 1000) ++ fraction 3 (n % 1000) ++ "µs"
  else toString n ++ "ns"

end Duration

end ReliableMulticast
