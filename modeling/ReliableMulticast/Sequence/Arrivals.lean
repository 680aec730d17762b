import ReliableMulticast.Frame.Basic
import ReliableMulticast.Sequence.Gap

/-!
The receiving end of a numbered stream. Frames that arrive too early are held until the ones
before them have come, and the first missing range is known at any time.

Until the end of a snapshot the window is queuing: it holds whatever arrives, delivers nothing
and knows of no gap, since only the end of the snapshot says where delivery starts.

The largest number, `maxSeq`, has none after it. The bound stops there, so of this number a window
knows only while it holds it. Head and bound are words as long as it is not handed over. Once it
is, the head stands behind all numbers, where a word would begin again at zero.
-/

namespace ReliableMulticast

structure Arrivals where
  /-- The next number to deliver; without meaning while queuing. -/
  head : Nat
  /-- Every number known to exist is below this one. -/
  bound : Nat
  /-- The frames held back, by increasing number. -/
  pending : List Frame
  queuing : Bool
deriving DecidableEq, Repr, Inhabited

namespace Arrivals

/-- What came of a frame. -/
structure Inserted where
  /-- The frames that can be delivered now, in order. -/
  delivered : List Frame
  gapChange : Option GapChange
deriving DecidableEq, Repr, Inhabited

def Inserted.nothing : Inserted := ⟨[], none⟩

def empty : Arrivals := ⟨0, 0, [], true⟩

/-! ### Views -/

/-- The number of frames held back. -/
def count (a : Arrivals) : Nat := a.pending.length

/-- The span of numbers between the ends of the window. While queuing it is counted in one word,
which is too short for the span of all numbers. -/
def length (a : Arrivals) : Nat :=
  if a.queuing then
    match a.pending.head?, a.pending.getLast? with
    | some first, some last => word (last.seq - first.seq + 1)
    | _, _ => 0
  else a.bound - a.head

/-- The first missing range. -/
def gap (a : Arrivals) : Gap :=
  if a.queuing then Gap.none
  else
    match a.pending with
    | first :: _ => Gap.between a.head first.seq
    | [] => Gap.between a.head a.bound

def holds (a : Arrivals) (seq : Nat) : Bool := a.pending.any (·.seq == seq)

/-! ### Operations -/

/-- Adds a frame in its place; of two frames with one number the first stays. -/
def place (f : Frame) : List Frame → List Frame
  | [] => [f]
  | g :: rest =>
    if f.seq < g.seq then f :: g :: rest
    else if f.seq = g.seq then g :: rest
    else g :: place f rest

/-- The frames at the front that continue from `head` without a gap, and the others. -/
def run : Nat → List Frame → List Frame × List Frame
  | _, [] => ([], [])
  | head, f :: rest =>
    if f.seq = head then
      let (more, held) := run (head + 1) rest
      (f :: more, held)
    else ([], f :: rest)

/-- Moves the head over all frames that are complete. -/
def deliver (a : Arrivals) : List Frame × Arrivals :=
  let (delivered, held) := run a.head a.pending
  (delivered, { a with head := a.head + delivered.length, pending := held })

/-- The largest sequence number. -/
def maxSeq : Nat := 0xffffffffffffffff

/-- The bound that a frame with this number asks for. -/
def boundAfter (seq : Nat) : Nat := min (seq + 1) maxSeq

/-- Forgets everything and waits for the end of a new snapshot. -/
def startQueuing (_ : Arrivals) : Arrivals := empty

/-- The end of a snapshot that covers everything below `seq`. -/
def stopQueuing (a : Arrivals) (seq : Nat) : Inserted × Arrivals :=
  let (delivered, a) := deliver
    { head := seq
      bound := max a.bound seq
      pending := a.pending.filter (seq ≤ ·.seq)
      queuing := false }
  (⟨delivered, GapChange.of Gap.none a.gap⟩, a)

def insert (a : Arrivals) (f : Frame) : Inserted × Arrivals :=
  let raised := { a with bound := max a.bound (boundAfter f.seq), pending := place f a.pending }
  if a.queuing then (.nothing, raised)
  else if f.seq < a.head || a.holds f.seq then (.nothing, a)
  else
    let (delivered, after) := deliver raised
    (⟨delivered, GapChange.of a.gap after.gap⟩, after)

/-- Takes note that all numbers below `bound` exist, without having the frames. -/
def raiseBound (a : Arrivals) (bound : Nat) : Option GapChange × Arrivals :=
  if a.queuing then (none, a)
  else
    let raised := { a with bound := max a.bound bound }
    (GapChange.of a.gap raised.gap, raised)

end Arrivals

end ReliableMulticast
