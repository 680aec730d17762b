/-!
Gaps: ranges of consecutive sequence numbers that are missing.

Sequence numbers are words of 64 bits. They stand here as natural numbers, and a sum that may leave
the words is reduced to its `word`.
-/

namespace ReliableMulticast

/-- What 64 bits hold of a number. -/
def word (n : Nat) : Nat := n % UInt64.size

theorem word_of_lt {n : Nat} (h : n < UInt64.size) : word n = n := Nat.mod_eq_of_lt h

/-- The numbers from `start` on, `count` of them. -/
structure Gap where
  start : Nat
  count : Nat
deriving DecidableEq, Repr, Inhabited

namespace Gap

/-- No number is missing. -/
def none : Gap := ⟨0, 0⟩

/-- The largest count that a gap has. -/
def maxCount : Nat := 0xffffffff

/-- The gap from `start` up to but not including `stop`, cut at the largest count. -/
def between (start stop : Nat) : Gap :=
  if stop ≤ start then none else ⟨start, min (stop - start) maxCount⟩

def isEmpty (g : Gap) : Bool := g.count == 0

/-- The first number after the gap. -/
def stop (g : Gap) : Nat := word (g.start + g.count)

def contains (g : Gap) (seq : Nat) : Bool := g.start ≤ seq && seq < g.stop

def text (g : Gap) : String :=
  if g.isEmpty then "-" else toString g.start ++ "+" ++ toString g.count

theorem isEmpty_between (start stop : Nat) :
    (between start stop).isEmpty = decide (stop ≤ start) := by
  unfold between
  split
  · next h => simp [isEmpty, none, h]
  · next h =>
    have : min (stop - start) maxCount ≠ 0 := by unfold maxCount; omega
    rw [decide_eq_false h]
    exact beq_false_of_ne this

end Gap

/-- What an arrival did to the first missing range. -/
structure GapChange where
  before : Gap
  now : Gap
deriving DecidableEq, Repr, Inhabited

/-- Equal gaps are no change. -/
def GapChange.of (before now : Gap) : Option GapChange :=
  if before = now then none else some ⟨before, now⟩

end ReliableMulticast
