import ReliableMulticast.Publisher.Link

/-!
The activities of a simulation. Each runs on its own and only when it has something to do. What
belongs to one connection of a link bears the connection's number.
-/

namespace ReliableMulticast.Simulation

inductive Actor
  | publisherControl (id : ChannelId)
  /-- The transmitter of a publisher's link with its timers. -/
  | sendLoop (id : ChannelId)
  /-- Waits for the transmitter of a publisher's link to have dealt with what it was given. -/
  | drain (id : ChannelId)
  /-- Accepts logins. -/
  | acceptLoop (id : ChannelId) (generation : Nat)
  /-- Reads requests for repetition. -/
  | requestLoop (id : ChannelId) (generation : Nat)
  | session (id : ChannelId) (session : SessionId)
  | subscriberControl (id : ChannelId)
  /-- The TCP side of a subscriber's link. -/
  | tcpLoop (id : ChannelId) (generation : Nat)
  /-- Reads the data socket of a subscriber's link. -/
  | udpLoop (id : ChannelId) (generation : Nat)
  | resendCall (number : Nat)
  | stateWait (number : Nat)
  | ingest
  /-- A listener that the script opened. -/
  | listener (name : String)
deriving DecidableEq, Repr, Inhabited

/-- Who is told of arrivals. -/
inductive Reader
  | actor (a : Actor)
  /-- What arrives is kept for the script. -/
  | script
  /-- What arrives is lost. -/
  | nobody
deriving DecidableEq, Repr, Inhabited

def Reader.actor? : Reader → Option Actor
  | actor a => some a
  | _ => none

end ReliableMulticast.Simulation
