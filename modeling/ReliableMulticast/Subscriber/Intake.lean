import ReliableMulticast.Channel.Basic
import ReliableMulticast.Subscriber.ManualResend

/-!
What becomes of a datagram on a subscriber's data socket. Frames of other shards stop here, and so
do repeated frames that answer a manual request; all other frames go to the link.
-/

namespace ReliableMulticast

inductive Intake
  | undecodable (error : DecodeError)
  /-- A frame of another shard. -/
  | foreign
  /-- The answer to a manual request, which goes no further. -/
  | taken (m : ManualResend)
  | pass (f : Frame)
deriving DecidableEq, Repr, Inhabited

namespace Intake

/-- Only frames from one of the channel's resend ips answer a manual request. -/
def ofData (c : Channel) (m : ManualResend) (sender : Endpoint) (f : Frame) : Intake :=
  if !c.acceptsShard f.shard then foreign
  else if c.isResendIp (.v4 sender.ip) then
    match m.offer f with
    | (true, m) => taken m
    | (false, _) => pass f
  else pass f

def ofDatagram (c : Channel) (m : ManualResend) (sender : Endpoint) (bytes : Bytes) : Intake :=
  match Frame.decode bytes with
  | .error e => undecodable e
  | .ok f => if f.isControl then pass f else ofData c m sender f

end Intake

end ReliableMulticast
