import ReliableMulticast.Bytes
import ReliableMulticast.Frame.Control

/-!
The order in which the links of an engine are visited. Every channel id stands in a slot of a
table, and visits go through the slots. The slot of an id is chosen by a digest of its bytes; if it
is taken, the next free one is used, around the end of the table. A table that is full enough is
replaced by one of twice the size.
-/

namespace ReliableMulticast.Link

/-! ### The digest -/

namespace Digest

/-- The two halves of the product of two words, put together. -/
def mix (x y : UInt64) : UInt64 :=
  let product := x.toNat * y.toNat
  .ofNat product ^^^ .ofNat (product / 0x10000000000000000)

def word (bytes : Bytes) : UInt64 := .ofNat bytes.toNat

/-- Takes in blocks of sixteen bytes while more than one block is left. -/
def blocks (a b : UInt64) (bytes : Bytes) : UInt64 × UInt64 :=
  if 16 < bytes.length then
    blocks b (mix (a ^^^ word (bytes.take 8)) (0xa4093822299f31d0 ^^^ word ((bytes.drop 8).take 8)))
      (bytes.drop 16)
  else (a, b)
termination_by bytes.length
decreasing_by simp only [List.length_drop]; omega

/-- The words that the end of a byte string adds: its first and last bytes, which overlap where
it is short. -/
def ends (bytes : Bytes) : UInt64 × UInt64 :=
  let n := bytes.length
  if 16 ≤ n then (word ((bytes.drop (n - 16)).take 8), word (bytes.drop (n - 8)))
  else if 8 ≤ n then (word (bytes.take 8), word (bytes.drop (n - 8)))
  else if 4 ≤ n then (word (bytes.take 4), word (bytes.drop (n - 4)))
  else (word (bytes.take 1), word ((bytes.drop (n / 2)).take 1 ++ bytes.drop (n - 1)))

def ofBytes (bytes : Bytes) : UInt64 :=
  let (a, b) := blocks 0x243f6a8885a308d3 0x13198a2e03707344 bytes
  let (first, last) := ends bytes
  mix (a ^^^ first) (b ^^^ last) ^^^ .ofNat bytes.length

def rotate (x : UInt64) (n : UInt64) : UInt64 := (x <<< n) ||| (x >>> (64 - n))

/-- The digest of an id, which ends with a byte that no text contains. -/
def ofId (id : ChannelId) : UInt64 :=
  let factor := 0xf1357aea2e62a9c5
  rotate ((ofBytes (.ofText id) * factor + 0xff) * factor) 26

end Digest

/-! ### The table -/

structure Slots where
  table : List (Option ChannelId)
deriving DecidableEq, Repr, Inhabited

namespace Slots

/-- The size of the smallest table. -/
def initialSize : Nat := 4

def empty : Slots := ⟨List.replicate initialSize none⟩

/-- The ids in the order of their slots. -/
def ids (s : Slots) : List ChannelId := s.table.filterMap id

/-- The first free slot for an id, from the one that its digest chooses. -/
def freeSlot? (table : List (Option ChannelId)) (id : ChannelId) : Option Nat :=
  let start := (Digest.ofId id).toNat
  let around := (List.range table.length).map fun k => (start + k) % table.length
  around.find? fun i => table[i]? == some none

def put (table : List (Option ChannelId)) (id : ChannelId) : List (Option ChannelId) :=
  match freeSlot? table id with
  | some i => table.set i (some id)
  | none => table

/-- How many ids a table of this size takes: all slots but one, and at most seven of eight. -/
def room (size : Nat) : Nat := if size ≤ 8 then size - 1 else size / 8 * 7

/-- The ids in a table of twice the size. -/
def grow (s : Slots) : Slots := ⟨s.ids.foldl put (List.replicate (2 * s.table.length) none)⟩

/-- Gives a new id a slot. -/
def insert (s : Slots) (id : ChannelId) : Slots :=
  let s := if s.ids.length < room s.table.length then s else s.grow
  ⟨put s.table id⟩

end Slots

end ReliableMulticast.Link
