/-!
Values of TOML documents. Numbers with a fraction and points in time are kept in their written
form, since no setting has such a type.

A number can be well formed and still stand for nothing, because it is out of every range or
because its digits are none of its base. Such a number does no harm as long as nobody looks at it.
-/

namespace ReliableMulticast.Toml

/-- How a table came to be, which decides what may be added to it later. -/
inductive Origin
  /-- Written out as one value. -/
  | inline
  /-- Opened by its own header. -/
  | header
  /-- On the way to a table that has a header. -/
  | implied
  /-- Made by a dotted key. -/
  | dotted
deriving DecidableEq, Repr, Inhabited

inductive Value
  | text (s : String)
  | integer (n : Int)
  | float (written : String)
  /-- A number that can not be had. -/
  | unusable
  | boolean (b : Bool)
  | dateTime (written : String)
  /-- An array is open when it is made of tables with headers. -/
  | array (isOpen : Bool) (items : List Value)
  | table (origin : Origin) (entries : List (String × Value))
deriving Repr, Inhabited

abbrev Entries := List (String × Value)

namespace Value

def text? : Value → Option String
  | text s => some s
  | _ => none

def boolean? : Value → Option Bool
  | boolean b => some b
  | _ => none

/-- A whole number from 0 up to but not including `limit`. -/
def natBelow? (limit : Nat) : Value → Option Nat
  | integer n => if 0 ≤ n ∧ n < limit then some n.toNat else none
  | _ => none

/-- The least whole number that can be had. -/
def minInteger : Int := -0x80000000000000000000000000000000

/-- The first whole number that is too large. -/
def integerLimit : Int := 0x100000000000000000000000000000000

def ofInteger (n : Int) : Value :=
  if minInteger ≤ n ∧ n < integerLimit then integer n else unusable

mutual

/-- All numbers in a value can be had. -/
def isUsable : Value → Bool
  | unusable => false
  | array _ items => allUsable items
  | table _ entries => entriesUsable entries
  | _ => true

def allUsable : List Value → Bool
  | [] => true
  | v :: rest => v.isUsable && allUsable rest

def entriesUsable : List (String × Value) → Bool
  | [] => true
  | (_, v) :: rest => v.isUsable && entriesUsable rest

end

def items? : Value → Option (List Value)
  | array _ items => some items
  | _ => none

/-- A record can be written as a table with its fields' names as keys, or as an array of its
fields in order. A point in time has no fields. -/
inductive Record
  | keyed (entries : Entries)
  | listed (items : List Value)
deriving Repr, Inhabited

def record? : Value → Option Record
  | table _ entries => some (.keyed entries)
  | array _ items => some (.listed items)
  | dateTime _ => some (.keyed [])
  | _ => none

/-- What stands under other names than those of the fields has no meaning, but has to be usable.
Items beyond the fields are not looked at. -/
def Record.restIsUsable (r : Record) (names : List String) : Bool :=
  match r with
  | .keyed entries => entries.all fun e => names.contains e.1 || e.2.isUsable
  | .listed _ => true

/-- A field by its name and its place among the fields. -/
def Record.field? (r : Record) (place : Nat) (name : String) : Option Value :=
  match r with
  | .keyed entries => entries.lookup name
  | .listed items => items[place]?

end Value

end ReliableMulticast.Toml
