import ReliableMulticast.Frame.Basic

/-!
The frames that a publisher has sent and still keeps for repetition: a window over the history of
everything it numbered, ending at the newest frame.
-/

namespace ReliableMulticast

structure Retained where
  /-- The number that the next frame gets. -/
  head : Nat
  /-- The kept frames, newest first. -/
  newest : List Frame
deriving DecidableEq, Repr, Inhabited

namespace Retained

def startingAt (first : Nat) : Retained := ⟨first, []⟩

/-- The kept frames, oldest first. -/
def frames (r : Retained) : List Frame := r.newest.reverse

def length (r : Retained) : Nat := r.newest.length

def isEmpty (r : Retained) : Bool := r.newest.isEmpty

/-- The number of the oldest kept frame. -/
def tail (r : Retained) : Nat := r.head - r.length

/-- The frame under the next number. -/
def stamp (r : Retained) (f : Frame) : Frame :=
  { f with header := { f.header with seq := .ofNat r.head } }

def push (r : Retained) (f : Frame) : Retained := ⟨r.head + 1, r.stamp f :: r.newest⟩

/-- Keeps the newest `max` frames. -/
def trim (r : Retained) (max : Nat) : Retained := { r with newest := r.newest.take max }

/-- How many frames `trim` lets go. -/
def excess (r : Retained) (max : Nat) : Nat := r.length - max

/-- The kept frames among the `count` numbers from `seq` on, oldest first. -/
def range (r : Retained) (seq count : Nat) : List Frame :=
  let start := max seq r.tail
  let stop := min (seq + count) r.head
  (r.frames.drop (start - r.tail)).take (stop - start)

/-- Forgets everything and goes on at `first`. -/
def reset (_ : Retained) (first : Nat) : Retained := startingAt first

theorem frames_push (r : Retained) (f : Frame) : (r.push f).frames = r.frames ++ [r.stamp f] := by
  simp [frames, push]

theorem length_push (r : Retained) (f : Frame) : (r.push f).length = r.length + 1 := by
  simp [length, push]

end Retained

end ReliableMulticast
