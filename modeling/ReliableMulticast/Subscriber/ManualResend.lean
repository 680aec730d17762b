import ReliableMulticast.Frame.Basic
import ReliableMulticast.Sequence.Gap

/-!
Repetitions that an operator asks for. There is room for one request at a time; the first
repeated frame in its range is handed to the caller that waits for it and to nobody else.
-/

namespace ReliableMulticast

/-- What a caller can learn about its request. -/
inductive Reply
  | waiting
  | received (f : Frame)
  /-- No frame will come any more. -/
  | closed
  /-- The caller does not wait any longer. -/
  | givenUp
deriving DecidableEq, Repr, Inhabited

/-- The requests so far, known by their numbers, and the one that frames are offered to. -/
structure ManualResend where
  slot : Option (Nat × Gap)
  replies : List Reply
deriving DecidableEq, Repr, Inhabited

namespace ManualResend

def new : ManualResend := ⟨none, []⟩

def reply (m : ManualResend) (ticket : Nat) : Reply := m.replies.getD ticket .closed

def setReply (m : ManualResend) (ticket : Nat) (r : Reply) : ManualResend :=
  { m with replies := m.replies.set ticket r }

/-- A request that leaves the slot unanswered ends for a caller that still waits. -/
def release (m : ManualResend) (ticket : Nat) : ManualResend :=
  if m.reply ticket = .waiting then m.setReply ticket .closed else m

/-- The range that stands in the way of a new request. -/
def outstanding? (m : ManualResend) : Option Gap :=
  match m.slot with
  | some (ticket, gap) => if m.reply ticket = .givenUp then none else some gap
  | none => none

def add (m : ManualResend) (gap : Gap) : Nat × ManualResend :=
  (m.replies.length, ⟨some (m.replies.length, gap), m.replies ++ [.waiting]⟩)

/-- Takes the slot, unless a request is outstanding whose caller still waits. -/
def install (m : ManualResend) (gap : Gap) : Except Gap (Nat × ManualResend) :=
  match m.outstanding? with
  | some other => .error other
  | none => .ok (m.add gap)

/-- Hands a frame to the request that it is in the range of, if there is one. -/
def offer (m : ManualResend) (f : Frame) : Bool × ManualResend :=
  match m.slot with
  | some (ticket, gap) =>
    if gap.contains f.seq then
      let emptied := { m with slot := none }
      (true,
        if m.reply ticket = .waiting then emptied.setReply ticket (.received f) else emptied)
    else (false, m)
  | none => (false, m)

/-- Frees the slot, whoever holds it. -/
def clear (m : ManualResend) : ManualResend :=
  match m.slot with
  | some (ticket, _) => { m.release ticket with slot := none }
  | none => m

/-- Frees the slot if this request holds it. -/
def withdraw (m : ManualResend) (ticket : Nat) : ManualResend :=
  match m.slot with
  | some (holder, _) => if holder = ticket then m.clear else m
  | none => m

/-- The caller stops waiting; the slot stays as it is. -/
def giveUp (m : ManualResend) (ticket : Nat) : ManualResend := m.setReply ticket .givenUp

/-- What the caller learns; a frame is taken by the first look at it. -/
def poll (m : ManualResend) (ticket : Nat) : Reply × ManualResend :=
  match m.reply ticket with
  | .received f => (.received f, m.setReply ticket .closed)
  | r => (r, m)

def outstandingMessage (gap : Gap) : String :=
  "a manual resend for " ++ gap.text ++ " is already outstanding"

end ManualResend

end ReliableMulticast
