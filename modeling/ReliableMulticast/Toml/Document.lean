import ReliableMulticast.Toml.Scalar

/-!
TOML documents: keys with values, headers that open tables, and the rules by which they make one
table. No table is defined twice, and what is written out as one value is closed.
-/

namespace ReliableMulticast.Toml

/-! ### Building tables -/

namespace Entries

/-- Puts a value under a key, in the place of an earlier value. -/
def put (key : String) (v : Value) : Entries → Entries
  | [] => [(key, v)]
  | e :: rest => if e.1 == key then (key, v) :: rest else e :: put key v rest

/-- Adds a value under a dotted key, if the table at hand takes values. The tables on the way are
made by dotted keys, or are implied by headers and closed to headers from then on. The way may
lead through the last table of an array of tables, but does not end there. -/
def define (v : Value) (takes : Bool) : List String → Entries → Option Entries
  | [], _ => none
  | [key], es => if takes && !(es.lookup key).isSome then some (es ++ [(key, v)]) else none
  | key :: path, es =>
    match es.lookup key with
    | none => (define v true path []).map fun sub => es ++ [(key, .table .dotted sub)]
    | some (.table origin sub) =>
      if origin = .dotted ∨ origin = .implied then
        (define v true path sub).map fun sub => put key (.table .dotted sub) es
      else none
    | some (.array true items) =>
      match items.getLast? with
      | some (.table origin sub) =>
        (define v false path sub).map fun sub =>
          put key (.array true (items.dropLast ++ [.table origin sub])) es
      | _ => none
    | some _ => none

/-- Changes the table at the end of a path of headers, making the tables on the way. Of an array
of tables the last one is meant. -/
def within (change : Entries → Option Entries) : List String → Entries → Option Entries
  | [], es => change es
  | key :: path, es =>
    match es.lookup key with
    | none => (within change path []).map fun sub => es ++ [(key, .table .implied sub)]
    | some (.table origin sub) =>
      if origin = .inline then none
      else (within change path sub).map fun sub => put key (.table origin sub) es
    | some (.array true items) =>
      match items.getLast? with
      | some (.table origin sub) =>
        (within change path sub).map fun sub =>
          put key (.array true (items.dropLast ++ [.table origin sub])) es
      | _ => none
    | some _ => none

/-- Opens the table of a header. -/
def openTable (key : String) (es : Entries) : Option Entries :=
  match es.lookup key with
  | none => some (es ++ [(key, .table .header [])])
  | some (.table .implied sub) => some (put key (.table .header sub) es)
  | some _ => none

/-- Adds a table to the array of a header in double brackets. -/
def openItem (key : String) (es : Entries) : Option Entries :=
  match es.lookup key with
  | none => some (es ++ [(key, .array true [.table .header []])])
  | some (.array true items) => some (put key (.array true (items ++ [.table .header []])) es)
  | some _ => none

end Entries

/-! ### Values -/

/-- Brackets and braces within each other, at most. -/
def maxDepth : Nat := 80

mutual

/-- A value that may have brackets of its own `room` levels deep. The fuel is more than the number
of characters. -/
def value : Nat → Nat → Chars → Option (Value × Chars)
  | 0, _, _ => none
  | fuel + 1, room, cs =>
    match string? cs with
    | some read => read.map fun (s, rest) => (.text s, rest)
    | none =>
      match room, cs with
      | room + 1, '[' :: rest =>
        (arrayItems fuel room rest).map fun (items, rest) => (.array false items, rest)
      | room + 1, '\x7b' :: rest =>
        (tableEntries fuel room [] rest).map fun (entries, rest) => (.table .inline entries, rest)
      | _, cs => scalar cs

/-- The items of an array up to its closing bracket; a comma may follow the last one. -/
def arrayItems : Nat → Nat → Chars → Option (List Value × Chars)
  | 0, _, _ => none
  | fuel + 1, room, cs => do
    match ← skipTrivia false cs with
    | ']' :: rest => return ([], rest)
    | cs =>
      let (v, rest) ← value fuel room cs
      match ← skipTrivia false rest with
      | ',' :: rest => (arrayItems fuel room rest).map fun (vs, rest) => (v :: vs, rest)
      | ']' :: rest => return ([v], rest)
      | _ => none

/-- The entries of a table that is written as one value. -/
def tableEntries : Nat → Nat → Entries → Chars → Option (Entries × Chars)
  | 0, _, _, _ => none
  | fuel + 1, room, es, cs => do
    match ← skipTrivia false cs with
    | '\x7d' :: rest => return (es, rest)
    | cs =>
      let (path, rest) ← key fuel cs
      let rest ← expect? '=' rest
      let (v, rest) ← value fuel room (skipBlanks rest)
      let es ← es.define v true path
      match ← skipTrivia false rest with
      | ',' :: rest => tableEntries fuel room es rest
      | '\x7d' :: rest => return (es, rest)
      | _ => none

end

/-! ### Documents -/

/-- One line of a document. -/
inductive Line
  | entry (path : List String) (v : Value)
  | header (path : List String)
  | itemHeader (path : List String)
deriving Repr, Inhabited

/-- The line that starts here, up to its end. -/
def line (fuel : Nat) (cs : Chars) : Option (Line × Chars) :=
  match cs with
  | '[' :: '[' :: rest => do
    let (path, rest) ← key fuel rest
    let rest ← expect? ']' rest >>= expect? ']' >>= skipLine false
    return (.itemHeader path, rest)
  | '[' :: rest => do
    let (path, rest) ← key fuel rest
    let rest ← expect? ']' rest >>= skipLine false
    return (.header path, rest)
  | _ => do
    let (path, rest) ← key fuel cs
    let rest ← expect? '=' rest
    let (v, rest) ← value fuel maxDepth (skipBlanks rest)
    let rest ← skipLine false rest
    return (.entry path v, rest)

/-- All lines of a document. -/
def lines : Nat → Chars → Option (List Line)
  | 0, _ => none
  | fuel + 1, cs => do
    match ← skipTrivia false cs with
    | [] => return []
    | cs =>
      let (l, rest) ← line (cs.length + 1) cs
      return l :: (← lines fuel rest)

/-- A document being read: the whole, and the table that entries go to. -/
structure Draft where
  entries : Entries
  current : List String
deriving Repr, Inhabited

def Draft.add (d : Draft) : Line → Option Draft
  | .entry path v => do
    return { d with entries := ← d.entries.within (·.define v true path) d.current }
  | .header path => do
    let last ← path.getLast?
    return ⟨← d.entries.within (·.openTable last) path.dropLast, path⟩
  | .itemHeader path => do
    let last ← path.getLast?
    return ⟨← d.entries.within (·.openItem last) path.dropLast, path⟩

/-- A mark at the very start that only tells how the text is encoded is skipped. -/
def skipMark : Chars → Chars
  | '\ufeff' :: rest => rest
  | cs => cs

/-- The table that a text spells, if it is a well-formed document. -/
def parse? (text : String) : Option Value := do
  let cs := skipMark text.toList
  let d ← (← lines (cs.length + 1) cs).foldlM Draft.add ⟨[], []⟩
  return .table .header d.entries

end ReliableMulticast.Toml
