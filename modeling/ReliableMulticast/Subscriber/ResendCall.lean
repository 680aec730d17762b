import ReliableMulticast.Subscriber.Link
import ReliableMulticast.Subscriber.ManualResend

/-!
An operator's request for a range of frames, from its start to its answer. The request takes the
slot for manual requests, has the link ask the publisher, and waits for the first frame of the
range that comes. However it ends, it does not leave itself in the slot.
-/

namespace ReliableMulticast

inductive ResendStage
  /-- The link has not yet said whether it asked the publisher. -/
  | asking
  | waiting (deadline : Instant)
deriving DecidableEq, Repr, Inhabited

structure ResendCall where
  gap : Gap
  ticket : Nat
  patience : Duration
  stage : ResendStage
deriving DecidableEq, Repr, Inhabited

namespace ResendCall

/-- Checks the range and takes the slot. -/
def start (settings : Settings) (m : ManualResend) (seq count : Nat) :
    Except ResendFailure (ResendCall × ManualResend) :=
  if count = 0 ∨ settings.maxGap < count then .error (.invalidCount settings.maxGap count)
  else
    match m.install ⟨seq, count⟩ with
    | .error other => .error (.outstanding other)
    | .ok (ticket, m) => .ok (⟨⟨seq, count⟩, ticket, settings.requestInterval, .asking⟩, m)

/-- An end without a frame frees the slot. -/
def fail (c : ResendCall) (m : ManualResend) (failure : ResendFailure) :
    Except ResendFailure Frame × ManualResend :=
  (.error failure, m.withdraw c.ticket)

/-- The link's answer: the wait begins, or the request is over. -/
def onAsked (c : ResendCall) (m : ManualResend) (now : Instant) :
    Option ResendFailure → ResendCall ⊕ (Except ResendFailure Frame × ManualResend)
  | none => .inl { c with stage := .waiting (now + c.patience.nanos) }
  | some e => .inr (c.fail m e)

/-- Looks whether the wait is over. A frame that has come counts even at the last moment. -/
def poll (c : ResendCall) (m : ManualResend) (now : Instant) :
    Option (Except ResendFailure Frame × ManualResend) :=
  match c.stage with
  | .asking => none
  | .waiting deadline =>
    match m.poll c.ticket with
    | (.received f, m) => some (.ok f, m)
    | (.waiting, m) =>
      if deadline ≤ now then some (c.fail m (.timedOut c.gap c.patience)) else none
    | (_, m) => some (c.fail m (.disconnected c.gap))

end ResendCall

end ReliableMulticast
