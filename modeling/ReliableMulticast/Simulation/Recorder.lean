import ReliableMulticast.Fault
import ReliableMulticast.Mailbox

/-!
A role that records numbers, for watching a mailbox at work. Callers post numbers, ask for the sum
of all that was recorded before their question, ask questions that nobody answers, and wait until
everything posted before is dealt with. A caller with an open question holds a handle of its own.
-/

namespace ReliableMulticast.Simulation

inductive RecorderTask
  | record (value : Nat)
  | sum
  /-- A question that is dropped. -/
  | ignore
deriving DecidableEq, Repr, Inhabited

structure Recorder where
  box : Mailbox RecorderTask Nat
  /-- The number of calls so far. -/
  calls : Nat
  /-- The callers with an open question. -/
  asking : List Nat
  recorded : List Nat
deriving Inhabited

namespace Recorder

def role : String := "test"

def new : Recorder := ⟨.new, 0, [], []⟩

inductive Step
  | run (value : Nat)
  | clone
  | dropHandle
  /-- The role ends. -/
  | close
  | isClosed
  | drain
  | ask
  | askInVain
  /-- The role asks for its next task. -/
  | next
deriving DecidableEq, Repr, Inhabited

inductive Answer
  | nothing
  | flag (b : Bool)
  | number (n : Nat)
  | recorded (value : Nat)
  | summed (total : Nat)
  | ignored
  | pending
  | ended
  /-- There is no role any more. -/
  | gone
deriving DecidableEq, Repr, Inhabited

/-- How a call ends. -/
inductive CallEnd
  | drained
  | sum (total : Nat)
  | failed (error : CallError)
deriving DecidableEq, Repr, Inhabited

/-- What a step comes to: its answer, the calls that ended, and the recorder after it. -/
abbrev Result := Answer × List (Nat × CallEnd) × Recorder

def just (r : Recorder) (answer : Answer) : Result := (answer, [], r)

/-- The handles that are not held by callers. -/
def handles (r : Recorder) : Nat := r.box.handles - r.asking.length

/-- A caller that is done drops its handle. -/
def finish (r : Recorder) (caller : Nat) : Recorder :=
  if r.asking.contains caller then
    { r with asking := r.asking.erase caller, box := r.box.dropHandle }
  else r

/-- Starts a call: it posts an envelope, and ends at once where that already says how. -/
def call (r : Recorder) (e : Envelope RecorderTask Nat) (posted refused : Option CallEnd)
    (holding : Bool) : Result :=
  let number := r.calls
  let (ok, box) := r.box.post e
  let ended := if ok then posted else refused
  let after : Recorder :=
    if ok && holding then { r with box := box.clone, asking := r.asking ++ [number] }
    else { r with box := box }
  (.number number, (ended.map fun e => (number, e)).toList, { after with calls := number + 1 })

/-- How the callers of lost envelopes end. -/
def lostEnds (lost : List (Envelope RecorderTask Nat)) : List (Nat × CallEnd) :=
  lost.filterMap fun e =>
    match e with
    | .task _ => none
    | .request _ caller => some (caller, .failed .unanswered)
    | .barrier caller => some (caller, .drained)

def close (r : Recorder) : Result :=
  let (lost, box) := r.box.close
  let ends := lostEnds lost
  (.nothing, ends, ends.foldl (fun r e => r.finish e.1) { r with box := box })

def next (r : Recorder) : Result :=
  let (drained, next, box) := r.box.next
  let r := { r with box := box }
  let passed := drained.map fun caller => (caller, CallEnd.drained)
  let total := r.recorded.foldl (· + ·) 0
  match next with
  | .task (.record value) => (.recorded value, passed, { r with recorded := r.recorded ++ [value] })
  | .request _ caller => (.summed total, passed ++ [(caller, .sum total)], r.finish caller)
  | .task .sum => (.summed total, passed, r)
  | .task .ignore => (.ignored, passed, r)
  | .pending => (.pending, passed, r)
  | .ended => (.ended, passed, r)

/-- A step that takes a handle; without one it comes to nothing. -/
def withHandle (r : Recorder) (missing : Answer) (result : Result) : Result :=
  if r.handles = 0 then r.just missing else result

def run (r : Recorder) (value : Nat) : Result :=
  let (ok, box) := r.box.run (.record value)
  { r with box := box }.just (.flag ok)

def changeHandles (r : Recorder) (box : Mailbox RecorderTask Nat) : Result :=
  let r := { r with box := box }
  r.just (.number r.handles)

def step (r : Recorder) : Step → Result
  | .run value => r.withHandle .nothing (r.run value)
  | .clone => r.withHandle (.number 0) (r.changeHandles r.box.clone)
  | .dropHandle => r.withHandle (.number 0) (r.changeHandles r.box.dropHandle)
  | .close => r.close
  | .isClosed => r.withHandle .nothing (r.just (.flag r.box.closed))
  | .drain =>
    r.withHandle .nothing (r.call (.barrier r.calls) none (some .drained) false)
  | .ask =>
    r.withHandle .nothing
      (r.call (.request .sum r.calls) none (some (.failed (.queueClosed role))) true)
  | .askInVain =>
    r.withHandle .nothing
      (r.call (.task .ignore) (some (.failed .unanswered)) (some (.failed (.queueClosed role)))
        false)
  | .next => if r.box.closed then r.just .gone else r.next

end Recorder

end ReliableMulticast.Simulation
