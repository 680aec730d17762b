import ReliableMulticast.Toml.Text
import ReliableMulticast.Toml.Value

/-!
The numbers of TOML documents: whole numbers, in base ten with a sign or in bases two, eight and
sixteen without one, and numbers with a fraction or an exponent.

Whether a word is a number is said by its first digits. What the number is, is found out
afterwards, and it may turn out that there is none.
-/

namespace ReliableMulticast.Toml

/-! ### Digits -/

/-- Underscores stand between two digits only. The flag says whether one may come first. -/
def grouped (isDigit : Char → Bool) : Bool → Chars → Bool
  | _, [] => true
  | afterDigit, '_' :: c :: rest => afterDigit && isDigit c && grouped isDigit true rest
  | _, ['_'] => false
  | _, c :: rest => grouped isDigit (isDigit c) rest

def isHexDigit (c : Char) : Bool := (hexValue? c).isSome

def isDigitOf (base : Nat) (c : Char) : Bool := (hexValue? c).any (· < base)

def withoutUnderscores (cs : Chars) : Chars := cs.filter (· != '_')

/-- The number that digits of a base spell. -/
def numberIn (base : Nat) (digits : Chars) : Nat :=
  (digits.filterMap hexValue?).foldl (fun n d => base * n + d) 0

/-- The number that digits spell, if there are any and all are of the base. -/
def digits? (base : Nat) (cs : Chars) : Option Nat :=
  let digits := withoutUnderscores cs
  if digits.isEmpty || !digits.all (isDigitOf base) then none else some (numberIn base digits)

/-- A sign, and what comes after it. -/
def splitSign : Chars → Option Char × Chars
  | '-' :: rest => (some '-', rest)
  | '+' :: rest => (some '+', rest)
  | cs => (none, cs)

def hasLeadingZero (cs : Chars) : Bool := cs.head? == some '0' && 1 < cs.length

/-! ### Whole numbers -/

def ofDigits (sign : Option Char) (digits : Option Nat) : Value :=
  match digits with
  | none => .unusable
  | some n => .ofInteger (if sign = some '-' then -(n : Int) else n)

/-- A whole number after the mark of its base. -/
def based? (base : Nat) (cs : Chars) : Option Value :=
  if cs.all (fun c => c == '_' || isDigitOf base c) && grouped isHexDigit false cs then
    some (ofDigits none (digits? base cs))
  else none

/-- A whole number in base ten. Only what is next to an underscore has to be a digit here. -/
def decimal? (sign : Option Char) (cs : Chars) : Option Value :=
  if !hasLeadingZero cs && grouped isHexDigit sign.isSome cs then
    some (ofDigits sign (digits? 10 cs))
  else none

/-! ### Numbers with a fraction -/

def isExponentMark (c : Char) : Bool := c == 'e' || c == 'E'

/-- The digits at the start, with underscores among them. There has to be a digit. -/
def digitRun? (cs : Chars) : Option (Chars × Chars) :=
  let isPart := fun (c : Char) => c.isDigit || c == '_'
  let run := cs.takeWhile isPart
  if run.any Char.isDigit then some (withoutUnderscores run, cs.dropWhile isPart) else none

/-- A number with a fraction, an exponent or both, taken apart. -/
structure FloatParts where
  whole : Chars
  fraction : Chars
  negative : Bool
  exponent : Chars
deriving DecidableEq, Repr, Inhabited

def fraction? : Chars → Option (Chars × Chars)
  | '.' :: rest => digitRun? rest
  | rest => some ([], rest)

def exponent? : Chars → Option (Bool × Chars × Chars)
  | [] => some (false, [], [])
  | c :: rest =>
    if isExponentMark c then
      let (sign, rest) := splitSign rest
      (digitRun? rest).map fun (digits, rest) => (sign == some '-', digits, rest)
    else none

def floatParts? (cs : Chars) : Option FloatParts := do
  let (whole, rest) ← digitRun? cs
  if cs.head? == some '0' && 1 < whole.length then none
  else
    let (fraction, rest) ← fraction? rest
    let (negative, exponent, rest) ← exponent? rest
    if rest.isEmpty then some ⟨whole, fraction, negative, exponent⟩ else none

namespace FloatParts

/-- All digits before the exponent, as one whole number. -/
def digits (p : FloatParts) : Nat := numberIn 10 (p.whole ++ p.fraction)

/-- The power of ten that goes with the digits. -/
def scale (p : FloatParts) : Int :=
  let exponent := (numberIn 10 p.exponent : Int)
  (if p.negative then -exponent else exponent) - p.fraction.length

/-- The first number that is nearer to infinity than to any number of 53 bits with an exponent of
11 bits: the middle between the largest of those and the next power of two. -/
def overflowLimit : Nat := Nat.pow 2 1024 - Nat.pow 2 970

/-- More digits than this before the point are always too many. -/
def maxPlaces : Int := 309

/-- A number that is too large. Whether it is, mostly shows from the number of its places. -/
def overflows (p : FloatParts) : Bool :=
  let places := ((Nat.toDigits 10 p.digits).length : Int) + p.scale
  if p.digits = 0 ∨ places < maxPlaces then false
  else if maxPlaces < places then true
  else if p.scale < 0 then overflowLimit * Nat.pow 10 (-p.scale).toNat ≤ p.digits
  else overflowLimit ≤ p.digits * Nat.pow 10 p.scale.toNat

end FloatParts

/-- A number with a fraction or an exponent; `signed` says that a sign stands before it. -/
def float? (signed : Bool) (cs : Chars) : Option Value :=
  match floatParts? cs with
  | none => none
  | some p =>
    if grouped Char.isDigit signed cs then
      some (if p.overflows then .unusable else .float (String.ofList cs))
    else none

/-! ### All numbers -/

/-- The two words for what is no number of digits. -/
def isNotFinite (cs : Chars) : Bool := cs == ['i', 'n', 'f'] || cs == ['n', 'a', 'n']

/-- A number without a mark of its base. -/
def unmarked? (sign : Option Char) (cs : Chars) : Option Value :=
  match cs.dropWhile Char.isDigit with
  | [] => if cs.isEmpty then none else decimal? sign cs
  | c :: rest =>
    if (c :: rest).any fun c => c == '.' || isExponentMark c then float? sign.isSome cs
    else if c == '_' then decimal? sign cs
    else none

def number? (cs : Chars) : Option Value :=
  let (sign, digits) := splitSign cs
  if isNotFinite digits then some (.float (String.ofList cs))
  else
    match sign, digits with
    | none, '0' :: 'x' :: rest => based? 16 rest
    | none, '0' :: 'o' :: rest => based? 8 rest
    | none, '0' :: 'b' :: rest => based? 2 rest
    | _, digits => unmarked? sign digits

end ReliableMulticast.Toml
