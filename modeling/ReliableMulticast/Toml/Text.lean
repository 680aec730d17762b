/-!
The texts of TOML documents: blanks and comments, keys, and the four kinds of strings. Each
reader answers with what it read and the characters after it, or with nothing if the document is
not well formed.
-/

namespace ReliableMulticast.Toml

abbrev Chars := List Char

/-! ### Blanks and comments -/

def isBlank (c : Char) : Bool := c == ' ' || c == '\t'

def skipBlanks (cs : Chars) : Chars := cs.dropWhile isBlank

/-- Characters that may stand in comments and strings: no control characters but the tab. -/
def isPlain (c : Char) : Bool := c == '\t' || (0x20 ≤ c.toNat && c.toNat != 0x7f)

/-- Skips blanks, line ends and comments; `inComment` says where the characters start. -/
def skipTrivia : Bool → Chars → Option Chars
  | _, [] => some []
  | _, '\n' :: rest => skipTrivia false rest
  | _, '\r' :: '\n' :: rest => skipTrivia false rest
  | true, c :: rest => if isPlain c then skipTrivia true rest else none
  | false, '#' :: rest => skipTrivia true rest
  | false, c :: rest => if isBlank c then skipTrivia false rest else some (c :: rest)

/-- What is left of a line may only be blanks and a comment. -/
def skipLine : Bool → Chars → Option Chars
  | _, [] => some []
  | _, '\n' :: rest => some rest
  | _, '\r' :: '\n' :: rest => some rest
  | true, c :: rest => if isPlain c then skipLine true rest else none
  | false, '#' :: rest => skipLine true rest
  | false, c :: rest => if isBlank c then skipLine false rest else none

/-! ### Escapes -/

def hexValue? (c : Char) : Option Nat :=
  if c.isDigit then some (c.toNat - '0'.toNat)
  else if 'a' ≤ c ∧ c ≤ 'f' then some (c.toNat - 'a'.toNat + 10)
  else if 'A' ≤ c ∧ c ≤ 'F' then some (c.toNat - 'A'.toNat + 10)
  else none

/-- The character with this code in hexadecimal digits, if there is one. -/
def scalar? (digits : Chars) : Option Char := do
  let n ← digits.foldlM (fun n c => (hexValue? c).map (16 * n + ·)) 0
  if n < 0xd800 ∨ 0xdfff < n ∧ n < 0x110000 then some (.ofNat n) else none

/-- The character that an escape stands for, after its backslash. -/
def escape? : Chars → Option (Char × Chars)
  | 'b' :: rest => some ('\x08', rest)
  | 't' :: rest => some ('\t', rest)
  | 'n' :: rest => some ('\n', rest)
  | 'f' :: rest => some ('\x0c', rest)
  | 'r' :: rest => some ('\r', rest)
  | 'e' :: rest => some ('\x1b', rest)
  | '"' :: rest => some ('"', rest)
  | '\\' :: rest => some ('\\', rest)
  | 'x' :: rest => code 2 rest
  | 'u' :: rest => code 4 rest
  | 'U' :: rest => code 8 rest
  | _ => none
where
  code (width : Nat) (rest : Chars) : Option (Char × Chars) :=
    if rest.length < width then none
    else (scalar? (rest.take width)).map fun c => (c, rest.drop width)

/-! ### Strings -/

/-- The rest of a string in double quotes. The fuel is at least the number of characters. -/
def basic : Nat → Chars → Option (Chars × Chars)
  | _, '"' :: rest => some ([], rest)
  | fuel + 1, '\\' :: rest => do
    let (c, rest) ← escape? rest
    let (cs, rest) ← basic fuel rest
    return (c :: cs, rest)
  | fuel + 1, c :: rest =>
    if isPlain c then (basic fuel rest).map fun (cs, rest) => (c :: cs, rest) else none
  | _, _ => none

/-- The rest of a string in single quotes. -/
def literal : Chars → Option (Chars × Chars)
  | '\'' :: rest => some ([], rest)
  | c :: rest =>
    if isPlain c then (literal rest).map fun (cs, rest) => (c :: cs, rest) else none
  | [] => none

/-- A backslash at the end of a line takes in the line end and all blanks and line ends after
it; `ended` says whether the line end was met. -/
def skipFold : Bool → Chars → Option Chars
  | _, '\n' :: rest => skipFold true rest
  | _, '\r' :: '\n' :: rest => skipFold true rest
  | ended, c :: rest =>
    if isBlank c then skipFold ended rest else if ended then some (c :: rest) else none
  | ended, [] => if ended then some [] else none

/-- The rest of a string in three double quotes; up to two quotes may stand before the last
three. -/
def multilineBasic : Nat → Chars → Option (Chars × Chars)
  | _, '"' :: '"' :: '"' :: '"' :: '"' :: rest => some (['"', '"'], rest)
  | _, '"' :: '"' :: '"' :: '"' :: rest => some (['"'], rest)
  | _, '"' :: '"' :: '"' :: rest => some ([], rest)
  | fuel + 1, '\\' :: rest =>
    match escape? rest with
    | some (c, rest) => (multilineBasic fuel rest).map fun (cs, rest) => (c :: cs, rest)
    | none => skipFold false rest >>= multilineBasic fuel
  | fuel + 1, '\r' :: '\n' :: rest =>
    (multilineBasic fuel rest).map fun (cs, rest) => ('\r' :: '\n' :: cs, rest)
  | fuel + 1, c :: rest =>
    if isPlain c || c == '\n' then
      (multilineBasic fuel rest).map fun (cs, rest) => (c :: cs, rest)
    else none
  | _, _ => none

/-- The rest of a string in three single quotes. -/
def multilineLiteral : Chars → Option (Chars × Chars)
  | '\'' :: '\'' :: '\'' :: '\'' :: '\'' :: rest => some (['\'', '\''], rest)
  | '\'' :: '\'' :: '\'' :: '\'' :: rest => some (['\''], rest)
  | '\'' :: '\'' :: '\'' :: rest => some ([], rest)
  | '\r' :: '\n' :: rest =>
    (multilineLiteral rest).map fun (cs, rest) => ('\r' :: '\n' :: cs, rest)
  | c :: rest =>
    if isPlain c || c == '\n' then
      (multilineLiteral rest).map fun (cs, rest) => (c :: cs, rest)
    else none
  | [] => none

/-- A line end right after three quotes is not part of the string. -/
def skipFirstLine : Chars → Chars
  | '\n' :: rest => rest
  | '\r' :: '\n' :: rest => rest
  | cs => cs

def toText (read : Option (Chars × Chars)) : Option (String × Chars) :=
  read.map fun (cs, rest) => (String.ofList cs, rest)

/-- A string of any kind, if one starts here. -/
def string? : Chars → Option (Option (String × Chars))
  | '"' :: '"' :: '"' :: rest => some (toText (multilineBasic rest.length (skipFirstLine rest)))
  | '\'' :: '\'' :: '\'' :: rest => some (toText (multilineLiteral (skipFirstLine rest)))
  | '"' :: rest => some (toText (basic rest.length rest))
  | '\'' :: rest => some (toText (literal rest))
  | _ => none

/-! ### Keys -/

def isBare (c : Char) : Bool := c.isAlphanum || c == '_' || c == '-'

/-- One part of a key: bare, or a string of one line. -/
def keyPart : Chars → Option (String × Chars)
  | '"' :: rest => toText (basic rest.length rest)
  | '\'' :: rest => toText (literal rest)
  | cs =>
    let bare := cs.takeWhile isBare
    if bare.isEmpty then none else some (String.ofList bare, cs.dropWhile isBare)

/-- The parts of a key, with dots between them. The fuel is at least the number of characters. -/
def keyParts : Nat → Chars → Option (List String × Chars)
  | 0, _ => none
  | fuel + 1, cs => do
    let (part, rest) ← keyPart (skipBlanks cs)
    match skipBlanks rest with
    | '.' :: rest => (keyParts fuel rest).map fun (parts, rest) => (part :: parts, rest)
    | rest => return ([part], rest)

/-- The most parts of a key. -/
def maxParts : Nat := 80

/-- A key, which has not too many parts. -/
def key (fuel : Nat) (cs : Chars) : Option (List String × Chars) :=
  (keyParts fuel cs).filter (·.1.length ≤ maxParts)

end ReliableMulticast.Toml
