import ReliableMulticast.Frame.Basic

/-!
Snapshots: the state of a channel that is replayed to everyone who logs in. A source writes frames
for as long as the session takes them. What a source does is said by a script, and a run of the
script can be held up on the way.
-/

namespace ReliableMulticast

/-- Why a frame is not taken. -/
inductive SnapshotError
  | controlMessage (type : UInt8)
  | sessionClosed
deriving DecidableEq, Repr, Inhabited

def SnapshotError.message : SnapshotError → String
  | controlMessage type => "control message type " ++ toString type.toNat ++ " in snapshot"
  | sessionClosed => "snapshot session closed"

/-- How a source comes to its end. -/
inductive SnapshotEnd
  | complete
  | failed (reason : String)
  | crashed
deriving DecidableEq, Repr, Inhabited

inductive SnapshotItem
  /-- The same frame a number of times. -/
  | write (f : Frame) (times : Nat)
  /-- Wait until somebody lets the snapshot go on. -/
  | hold
deriving DecidableEq, Repr, Inhabited

structure SnapshotScript where
  items : List SnapshotItem
  /-- Go on after a frame that was not taken. -/
  ignoreErrors : Bool
  ending : SnapshotEnd
deriving DecidableEq, Repr, Inhabited

/-- The source of publishers that have no state: every snapshot is empty. -/
def SnapshotScript.empty : SnapshotScript := ⟨[], false, .complete⟩

/-- A source on its way through its script. -/
structure SnapshotRun where
  items : List SnapshotItem
  ignoreErrors : Bool
  ending : SnapshotEnd
  /-- The frames that were taken. -/
  written : Nat
  /-- The frames that were not, each with the reason. -/
  errors : List SnapshotError
deriving DecidableEq, Repr, Inhabited

namespace SnapshotRun

def new (s : SnapshotScript) : SnapshotRun := ⟨s.items, s.ignoreErrors, s.ending, 0, []⟩

/-- What stands against writing a frame, given whether the session is gone. -/
def refusal? (gone : Bool) (f : Frame) : Option SnapshotError :=
  if f.isControl then some (.controlMessage f.type)
  else if gone then some .sessionClosed
  else none

/-- The frames that a source writes up to the next hold, what is left of it, and how it ended if
it did. -/
def proceed (gone ignoreErrors : Bool) (ending : SnapshotEnd) :
    List SnapshotItem → Nat → List SnapshotError → List Frame × SnapshotRun × Option SnapshotEnd
  | [], written, errors => ([], ⟨[], ignoreErrors, ending, written, errors⟩, some ending)
  | .hold :: rest, written, errors => ([], ⟨rest, ignoreErrors, ending, written, errors⟩, none)
  | .write f times :: rest, written, errors =>
    if times = 0 then proceed gone ignoreErrors ending rest written errors
    else
      match refusal? gone f with
      | none =>
        let (frames, run, ended) :=
          proceed gone ignoreErrors ending rest (written + times) errors
        (List.replicate times f ++ frames, run, ended)
      | some e =>
        if ignoreErrors then proceed gone ignoreErrors ending rest written (errors ++ [e])
        else
          ([], ⟨rest, ignoreErrors, ending, written, errors ++ [e]⟩, some (.failed e.message))

/-- Goes on with a run. -/
def resume (r : SnapshotRun) (gone : Bool) : List Frame × SnapshotRun × Option SnapshotEnd :=
  proceed gone r.ignoreErrors r.ending r.items r.written r.errors

end SnapshotRun

end ReliableMulticast
