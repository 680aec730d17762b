import ReliableMulticast.Frame.Basic

/-!
Frames on a stream of bytes that arrives in chunks. A read takes bytes from one chunk at a time;
where the chunks are cut makes no difference to the frames.
-/

namespace ReliableMulticast

/-- How a stream can end inside a frame. -/
inductive StreamError
  | closedInHeader (read : Nat)
  | closedInBody
deriving DecidableEq, Repr, Inhabited

def StreamError.message : StreamError → String
  | closedInHeader read =>
    "connection closed after " ++ toString read ++ " bytes of a frame header"
  | closedInBody => "early eof"

namespace Stream

inductive Outcome
  | frame (f : Frame)
  /-- The stream ended between two frames. -/
  | ended
  | failed (error : StreamError)
deriving DecidableEq, Repr, Inhabited

/-- The next `n` bytes, or all that are left, and the chunks after them. -/
def collect : Nat → List Bytes → Bytes × List Bytes
  | _, [] => ([], [])
  | n, c :: cs =>
    if n = 0 then ([], c :: cs)
    else if c.length ≤ n then
      let (bytes, rest) := collect (n - c.length) cs
      (c ++ bytes, rest)
    else (c.take n, c.drop n :: cs)

/-- Reads one frame from a stream that ends after the given chunks. -/
def read (chunks : List Bytes) : Outcome × List Bytes :=
  let (start, rest) := collect Header.size chunks
  match Header.decode? start with
  | none => (if start = [] then .ended else .failed (.closedInHeader start.length), rest)
  | some (header, _) =>
    let (body, rest) := collect header.len.toNat rest
    if body.length < header.len.toNat then (.failed .closedInBody, rest)
    else (.frame ⟨header, body⟩, rest)

/-- Reads one frame from what has arrived of a stream: without an answer as long as the frame
is incomplete and the stream may go on. -/
def poll (chunks : List Bytes) (ended : Bool) : Option (Outcome × List Bytes) :=
  match read chunks with
  | (.frame f, rest) => some (.frame f, rest)
  | (outcome, rest) => if ended then some (outcome, rest) else none

/-- Reads at most `fuel` frames of a stream that goes on. -/
def framesWithin : Nat → List Bytes → List Frame × List Bytes
  | 0, chunks => ([], chunks)
  | fuel + 1, chunks =>
    match read chunks with
    | (.frame f, rest) =>
      let (frames, rest) := framesWithin fuel rest
      (f :: frames, rest)
    | _ => ([], chunks)

/-- The frames that have completely arrived, and what is behind them. -/
def frames (chunks : List Bytes) : List Frame × List Bytes :=
  framesWithin (chunks.flatten.length / Header.size + 1) chunks

/-- All frames up to the end of a stream, with the outcome that ended it. -/
def readAll : Nat → List Bytes → List Outcome
  | 0, _ => []
  | fuel + 1, chunks =>
    match read chunks with
    | (.frame f, rest) => .frame f :: readAll fuel rest
    | (outcome, _) => [outcome]

/-- What successive reads return, up to the first that is not a frame. -/
def outcomes (chunks : List Bytes) : List Outcome :=
  readAll (chunks.flatten.length / Header.size + 1) chunks

def write (f : Frame) : Bytes := f.encode

end Stream

end ReliableMulticast
