import ReliableMulticast.Toml.Number

/-!
The values of TOML documents that are written without quotes or brackets: numbers, truth values
and points in time. Each is one word, apart from a date and a time of day with a space between
them.
-/

namespace ReliableMulticast.Toml

/-- The characters that no value without quotes contains. -/
def endsWord (c : Char) : Bool :=
  ['=', ',', '[', ']', '\x7b', '\x7d', '#', ' ', '\t', '\r', '\n'].contains c

def isWordChar (c : Char) : Bool := !endsWord c

/-! ### Points in time -/

/-- A number of exactly `width` digits. -/
def fixed? (width : Nat) (cs : Chars) : Option (Nat × Chars) :=
  let digits := cs.take width
  if digits.length = width ∧ digits.all Char.isDigit then some (numberIn 10 digits, cs.drop width)
  else none

def expect? (c : Char) : Chars → Option Chars
  | d :: rest => if d = c then some rest else none
  | [] => none

def isLeap (year : Nat) : Bool := year % 4 == 0 && (year % 100 != 0 || year % 400 == 0)

def daysIn (year month : Nat) : Nat :=
  if month = 2 then (if isLeap year then 29 else 28)
  else if month = 4 ∨ month = 6 ∨ month = 9 ∨ month = 11 then 30
  else 31

/-- Skips a date. -/
def date? (cs : Chars) : Option Chars := do
  let (year, cs) ← fixed? 4 cs
  let (month, cs) ← fixed? 2 (← expect? '-' cs)
  let (day, cs) ← fixed? 2 (← expect? '-' cs)
  if 1 ≤ month ∧ month ≤ 12 ∧ 1 ≤ day ∧ day ≤ daysIn year month then some cs else none

/-- Skips the seconds of a time of day, which may be left out, and their fraction. -/
def seconds? (cs : Chars) : Option Chars :=
  match expect? ':' cs with
  | none => some cs
  | some cs => do
    let (second, cs) ← fixed? 2 cs
    if 60 < second then none
    else
      match expect? '.' cs with
      | none => some cs
      | some cs => if (cs.head?.any Char.isDigit) then some (cs.dropWhile Char.isDigit) else none

/-- Skips a time of day. -/
def time? (cs : Chars) : Option Chars := do
  let (hour, cs) ← fixed? 2 cs
  let (minute, cs) ← fixed? 2 (← expect? ':' cs)
  if hour ≤ 23 ∧ minute ≤ 59 then seconds? cs else none

/-- Skips the distance from universal time. -/
def offset? : Chars → Option Chars
  | 'Z' :: rest => some rest
  | 'z' :: rest => some rest
  | '+' :: rest => distance rest
  | '-' :: rest => distance rest
  | cs => some cs
where
  distance (cs : Chars) : Option Chars := do
    let (hour, cs) ← fixed? 2 cs
    let (minute, cs) ← fixed? 2 (← expect? ':' cs)
    if hour ≤ 23 ∧ minute ≤ 59 then some cs else none

/-- A date, a time of day, or both with an optional distance from universal time. -/
def isDateTime (cs : Chars) : Bool :=
  match date? cs with
  | some [] => true
  | some (c :: rest) =>
    (c == 'T' || c == 't' || c == ' ') && (time? rest >>= offset?) == some []
  | none => time? cs == some []

/-! ### Words -/

def ofWord? (cs : Chars) : Option Value :=
  if cs == ['t', 'r', 'u', 'e'] then some (.boolean true)
  else if cs == ['f', 'a', 'l', 's', 'e'] then some (.boolean false)
  else
    match number? cs with
    | some v => some v
    | none => if isDateTime cs then some (.dateTime (String.ofList cs)) else none

/-- The word at the start, with the time of day that follows a date after a space. -/
def word (cs : Chars) : Chars × Chars :=
  let first := cs.takeWhile isWordChar
  match cs.dropWhile isWordChar with
  | ' ' :: rest =>
    if date? first == some [] && rest.head?.any Char.isDigit then
      (first ++ ' ' :: rest.takeWhile isWordChar, rest.dropWhile isWordChar)
    else (first, ' ' :: rest)
  | rest => (first, rest)

def scalar (cs : Chars) : Option (Value × Chars) :=
  let (w, rest) := word cs
  (ofWord? w).map fun v => (v, rest)

end ReliableMulticast.Toml
