import ReliableMulticast.Fault
import ReliableMulticast.Settings
import ReliableMulticast.Simulation.Actor

/-!
The simulated network. Delivery is immediate, in order and without limits; datagrams are lost and
connections fail only where the script says so. Operations that put something where an activity
reads it answer with the activities to wake.
-/

namespace ReliableMulticast.Simulation

/-! ### What the network holds -/

structure Listener where
  id : Nat
  addr : Endpoint
  owner : Actor
  /-- Connections that are not accepted yet, oldest first. -/
  waiting : List ConnId
  /-- The next attempt to accept a connection fails. -/
  failing : Bool
deriving Inhabited

structure UdpSocket where
  id : SocketId
  addr : Endpoint
  reuse : Bool
  groups : List Ipv4
  reader : Reader
  /-- The activities that hold the socket; it is closed when the last one lets it go. -/
  holders : List Actor
  /-- What has arrived, with its sender, oldest first. -/
  inbox : List (Endpoint × Bytes)
deriving Inhabited

/-- The socket without an activity that held it. -/
def UdpSocket.without (s : UdpSocket) (a : Actor) : UdpSocket :=
  let s := { s with holders := s.holders.erase a }
  if s.reader = .actor a then { s with reader := .nobody, inbox := [] } else s

/-- One end of a connection. -/
structure ConnEnd where
  reader : Reader
  inbox : List Bytes
  /-- Nothing more arrives. -/
  ended : Bool
  /-- Nobody has this end any more. -/
  dropped : Bool
deriving Inhabited

def ConnEnd.new (reader : Reader) : ConnEnd := ⟨reader, [], false, false⟩

/-- The two ends: the one that connected and the one that accepted. -/
inductive Which
  | caller
  | callee
deriving DecidableEq, Repr, Inhabited

def Which.other : Which → Which
  | caller => callee
  | callee => caller

structure Conn where
  id : ConnId
  callerAddr : Endpoint
  caller : ConnEnd
  callee : ConnEnd
deriving Inhabited

def Conn.side (c : Conn) : Which → ConnEnd
  | .caller => c.caller
  | .callee => c.callee

def Conn.modify (c : Conn) (w : Which) (change : ConnEnd → ConnEnd) : Conn :=
  match w with
  | .caller => { c with caller := change c.caller }
  | .callee => { c with callee := change c.callee }

/-- The datagrams sent to an address since some of them are lost. -/
structure Losses where
  addr : Endpoint
  sent : Nat
  lost : List Nat
deriving Inhabited

structure Network where
  nextPort : Nat
  nextId : Nat
  listeners : List Listener
  /-- In the order in which they were bound. -/
  sockets : List UdpSocket
  conns : List Conn
  /-- Where connections are never established. -/
  blackholes : List Endpoint
  losses : List Losses
  /-- Where so many datagrams can not be sent. -/
  sendErrors : List (Endpoint × Nat)
  /-- What was asked of the network, oldest first. -/
  log : List String
deriving Inhabited

namespace Network

/-- The first port that is given out. -/
def firstPort : Nat := 49152

def new : Network :=
  { nextPort := firstPort
    nextId := 0
    listeners := []
    sockets := []
    conns := []
    blackholes := []
    losses := []
    sendErrors := []
    log := [] }

def note (n : Network) (line : String) : Network := { n with log := n.log ++ [line] }

/-- Port 0 stands for the next port that is given out. -/
def resolve (n : Network) (addr : Endpoint) : Endpoint × Network :=
  if addr.port = 0 then
    ({ addr with port := .ofNat n.nextPort }, { n with nextPort := n.nextPort + 1 })
  else (addr, n)

/-- Two addresses exclude each other if the ports agree and the ips do or one is unspecified. -/
def clash (a b : Endpoint) : Bool :=
  a.port == b.port && (a.ip == b.ip || a.ip.isUnspecified || b.ip.isUnspecified)

/-! ### Listeners -/

def findListener? (n : Network) (id : Nat) : Option Listener := n.listeners.find? (·.id == id)

def listenerOf? (n : Network) (owner : Actor) : Option Listener :=
  n.listeners.find? (·.owner == owner)

def modifyListener (n : Network) (id : Nat) (change : Listener → Listener) : Network :=
  { n with listeners := n.listeners.map fun l => if l.id = id then change l else l }

/-- Binds an address and listens. -/
def listen (n : Network) (addr : Endpoint) (backlog : Nat) (owner : Actor) :
    Except IoError Nat × Network :=
  let n := n.note ("tcp bind " ++ addr.text)
  if n.listeners.any (clash addr ·.addr) then (.error .addressInUse, n)
  else
    let n := n.note ("tcp listen " ++ addr.text ++ " backlog " ++ toString backlog)
    (.ok n.nextId,
      { n with
        nextId := n.nextId + 1
        listeners := n.listeners ++ [⟨n.nextId, addr, owner, [], false⟩] })

/-! ### Connections -/

def findConn? (n : Network) (id : ConnId) : Option Conn := n.conns.find? (·.id == id)

def modifyConn (n : Network) (id : ConnId) (change : Conn → Conn) : Network :=
  { n with conns := n.conns.map fun c => if c.id = id then change c else c }

def modifyEnd (n : Network) (id : ConnId) (w : Which) (change : ConnEnd → ConnEnd) : Network :=
  n.modifyConn id (Conn.modify · w change)

def connEnd? (n : Network) (id : ConnId) (w : Which) : Option ConnEnd :=
  (n.findConn? id).map (Conn.side · w)

def setReader (n : Network) (id : ConnId) (w : Which) (reader : Reader) : Network :=
  n.modifyEnd id w ({ · with reader := reader })

/-- What is left for a reader after it has taken something. -/
def setInbox (n : Network) (id : ConnId) (w : Which) (inbox : List Bytes) : Network :=
  n.modifyEnd id w ({ · with inbox := inbox })

/-- The activity that reads an end of a connection. -/
def readerOf (n : Network) (id : ConnId) (w : Which) : List Actor :=
  match n.connEnd? id w with
  | some e => e.reader.actor?.toList
  | none => []

/-- A listener takes a connection to its address. -/
def listensAt (addr : Endpoint) (l : Listener) : Bool :=
  l.addr.port == addr.port && (l.addr.ip == addr.ip || l.addr.ip.isUnspecified)

def addConn (n : Network) (callerAddr : Endpoint) (reader : Reader) : ConnId × Network :=
  (n.nextId,
    { n with
      nextId := n.nextId + 1
      conns := n.conns ++ [⟨n.nextId, callerAddr, .new reader, .new .nobody⟩] })

/-- Connects to a listener, if there is one. The caller's own address is made only then. -/
def connect (n : Network) (own : Network → Endpoint × Network) (dest : Endpoint) (reader : Reader) :
    Except IoError ConnId × Network × List Actor :=
  match n.listeners.find? (listensAt dest) with
  | none => (.error .connectionRefused, n, [])
  | some l =>
    let (callerAddr, n) := own n
    let (id, n) := n.addConn callerAddr reader
    (.ok id, n.modifyListener l.id fun l => { l with waiting := l.waiting ++ [id] }, [l.owner])

/-- The address of a caller that has none of its own: the ip that it connects to and a new
port. -/
def ephemeral (dest : Endpoint) (n : Network) : Endpoint × Network :=
  n.resolve { dest with port := 0 }

def setBlackhole (n : Network) (addr : Endpoint) (on : Bool) : Network :=
  let others := n.blackholes.filter (· != addr)
  { n with blackholes := if on then addr :: others else others }

/-- The other end of this connection is gone. -/
def isBroken (n : Network) (id : ConnId) (w : Which) : Bool :=
  match n.connEnd? id w.other with
  | some e => e.dropped
  | none => true

/-- Writes to a connection whose other end is there. -/
def write (n : Network) (id : ConnId) (w : Which) (bytes : Bytes) : Network × List Actor :=
  (n.modifyEnd id w.other fun e => { e with inbox := e.inbox ++ [bytes] }, n.readerOf id w.other)

/-- Nothing more is written from this end. -/
def shutdown (n : Network) (id : ConnId) (w : Which) : Network × List Actor :=
  (n.modifyEnd id w.other ({ · with ended := true }), n.readerOf id w.other)

/-- Gives up an end of a connection; the connection is forgotten with its second end. -/
def dropEnd (n : Network) (id : ConnId) (w : Which) : Network × List Actor :=
  if n.isBroken id w then ({ n with conns := n.conns.filter (·.id != id) }, [])
  else
    let (n, woken) := n.shutdown id w
    (n.modifyEnd id w fun e => { e with dropped := true, inbox := [] }, woken)

def dropAll (w : Which) : List ConnId → Network → Network × List Actor
  | [], n => (n, [])
  | id :: rest, n =>
    let (n, woken) := n.dropEnd id w
    let (n, more) := dropAll w rest n
    (n, woken ++ more)

/-- Closes a listener; connections that it has not accepted are dropped. -/
def closeListener (n : Network) (id : Nat) : Network × List Actor :=
  match n.findListener? id with
  | none => (n, [])
  | some l => dropAll .callee l.waiting { n with listeners := n.listeners.filter (·.id != id) }

/-- What an attempt to accept a connection comes to. -/
inductive Accepted
  | conn (id : ConnId) (peer : Endpoint)
  | failed (error : IoError)
  /-- There is no connection yet. -/
  | pending
deriving Inhabited

def accept (n : Network) (id : Nat) (reader : Reader) : Accepted × Network :=
  match n.findListener? id with
  | none => (.pending, n)
  | some l =>
    if l.failing then
      (.failed .tooManyOpenFiles, n.modifyListener id ({ · with failing := false }))
    else
      match l.waiting with
      | [] => (.pending, n)
      | conn :: rest =>
        match n.findConn? conn with
        | none => (.pending, n.modifyListener id ({ · with waiting := rest }))
        | some c =>
          (.conn conn c.callerAddr,
            (n.modifyListener id ({ · with waiting := rest })).setReader conn .callee reader)

/-- Makes the listener at an address fail once. -/
def failAccept (n : Network) (addr : Endpoint) : Bool × Network × List Actor :=
  match n.listeners.find? (·.addr == addr) with
  | none => (false, n, [])
  | some l => (true, n.modifyListener l.id ({ · with failing := true }), [l.owner])

/-! ### Datagrams -/

def findSocket? (n : Network) (id : SocketId) : Option UdpSocket := n.sockets.find? (·.id == id)

def modifySocket (n : Network) (id : SocketId) (change : UdpSocket → UdpSocket) : Network :=
  { n with sockets := n.sockets.map fun s => if s.id = id then change s else s }

def closeSocket (n : Network) (id : SocketId) : Network :=
  { n with sockets := n.sockets.filter (·.id != id) }

def socketOf? (n : Network) (reader : Actor) : Option UdpSocket :=
  n.sockets.find? (·.reader == .actor reader)

/-- An activity lets a socket go. -/
def letGo (n : Network) (a : Actor) (id : SocketId) : Network :=
  let n := n.modifySocket id (·.without a)
  { n with sockets := n.sockets.filter fun s => s.id != id || !s.holders.isEmpty }

/-- An activity lets all its sockets go. -/
def letGoAll (n : Network) (a : Actor) : Network :=
  ((n.sockets.filter (·.holders.contains a)).map (·.id)).foldl (letGo · a) n

/-- Binds a socket. Sockets may share an address if all of them agree to; port 0 is never in
use. -/
def bind (n : Network) (addr : Endpoint) (reuse : Bool) (reader : Reader) (holders : List Actor) :
    Except IoError SocketId × Network :=
  let n := n.note ("udp bind " ++ addr.text ++ (if reuse then " reuse" else ""))
  let inUse := n.sockets.any fun s => clash addr s.addr && !(reuse && s.reuse)
  if addr.port != 0 && inUse then (.error .addressInUse, n)
  else
    let (addr, n) := n.resolve addr
    (.ok n.nextId,
      { n with
        nextId := n.nextId + 1
        sockets := n.sockets ++ [⟨n.nextId, addr, reuse, [], reader, holders, []⟩] })

def join (n : Network) (id : SocketId) (group interface : Ipv4) : Network :=
  (n.note ("udp join " ++ group.text ++ " on " ++ interface.text)).modifySocket id
    fun s => { s with groups := s.groups ++ [group] }

/-- The sockets that get a datagram: those that joined a group, or the newest one at an
address. -/
def receivers (n : Network) (dest : Endpoint) : List UdpSocket :=
  if dest.ip.isMulticast then
    n.sockets.filter fun s =>
      s.addr.ip.isUnspecified && s.addr.port == dest.port && s.groups.contains dest.ip
  else
    let matching := n.sockets.filter fun s =>
      s.addr.port == dest.port && (s.addr.ip == dest.ip || s.addr.ip.isUnspecified)
    matching.getLast?.toList

def deliver (n : Network) (sender : Endpoint) (bytes : Bytes) (s : UdpSocket) :
    Network × List Actor :=
  if s.reader = .nobody then (n, [])
  else
    (n.modifySocket s.id fun s => { s with inbox := s.inbox ++ [(sender, bytes)] },
      s.reader.actor?.toList)

def deliverAll (sender : Endpoint) (bytes : Bytes) : List UdpSocket → Network → Network × List Actor
  | [], n => (n, [])
  | s :: rest, n =>
    let (n, woken) := n.deliver sender bytes s
    let (n, more) := deliverAll sender bytes rest n
    (n, woken ++ more)

/-- Counts a datagram to an address where some are lost; the answer is whether this one is. -/
def countLoss (n : Network) (dest : Endpoint) : Bool × Network :=
  match n.losses.find? (·.addr == dest) with
  | none => (false, n)
  | some l =>
    (l.lost.contains (l.sent + 1),
      { n with losses := n.losses.map fun l =>
          if l.addr = dest then { l with sent := l.sent + 1 } else l })

/-- Loses the datagrams with these numbers among those sent to an address from now on. -/
def setLosses (n : Network) (addr : Endpoint) (numbers : List Nat) : Network :=
  { n with losses := ⟨addr, 0, numbers⟩ :: n.losses.filter (·.addr != addr) }

/-- Sends a datagram; the answer starts with the number of sockets that got it. -/
def sendFrom (n : Network) (sender dest : Endpoint) (bytes : Bytes) : Nat × Network × List Actor :=
  let (lost, n) := n.countLoss dest
  if lost then (0, n, [])
  else
    let sockets := n.receivers dest
    let (n, woken) := deliverAll sender bytes sockets n
    (sockets.length, n, woken)

/-- A sender without an ip of its own sends from the address that it sends to. -/
def sourceOf (s : UdpSocket) (dest : Endpoint) : Endpoint :=
  if s.addr.ip.isUnspecified then
    { s.addr with ip := if dest.ip.isMulticast then .localhost else dest.ip }
  else s.addr

def setSendErrors (n : Network) (addr : Endpoint) (count : Nat) : Network :=
  { n with sendErrors := (addr, count) :: n.sendErrors.filter (·.1 != addr) }

/-- Uses up one of the errors that are due for an address. -/
def takeSendError (n : Network) (dest : Endpoint) : Bool × Network :=
  match n.sendErrors.find? (·.1 == dest) with
  | none => (false, n)
  | some (_, count) =>
    if count = 0 then (false, n)
    else
      (true, { n with sendErrors := n.sendErrors.map fun e =>
          if e.1 = dest then (e.1, count - 1) else e })

/-- Sends a datagram from a socket. -/
def send (n : Network) (socket : SocketId) (dest : Endpoint) (bytes : Bytes) :
    Except IoError Unit × Network × List Actor :=
  let (failing, n) := n.takeSendError dest
  if failing then (.error .networkUnreachable, n, [])
  else
    match n.findSocket? socket with
    | none => (.ok (), n, [])
    | some s =>
      let (_, n, woken) := n.sendFrom (sourceOf s dest) dest bytes
      (.ok (), n, woken)

/-- The most bytes that a link reads of a datagram. -/
def bufferSize : Nat := 65536

/-- Takes the oldest datagram from a socket. -/
def receive (n : Network) (id : SocketId) : Option (Endpoint × Bytes) × Network :=
  match (n.findSocket? id).map (·.inbox) with
  | some ((sender, bytes) :: rest) =>
    (some (sender, bytes.take bufferSize), n.modifySocket id ({ · with inbox := rest }))
  | _ => (none, n)

/-! ### What links open -/

/-- The socket that a publisher sends data from. -/
def openSender (n : Network) (settings : Settings) (dest : Endpoint) (id : ChannelId) :
    Except IoError SocketId × Network :=
  match n.bind ⟨settings.interface, 0⟩ false .nobody [.sendLoop id] with
  | (.error e, n) => (.error e, n)
  | (.ok id, n) =>
    if dest.ip.isMulticast then
      let n := n.note ("udp ttl " ++ toString settings.ttl)
      let n := n.note ("udp loop " ++ toString settings.loopback)
      let n :=
        if settings.interface.isUnspecified then n
        else n.note ("udp if " ++ settings.interface.text)
      (.ok id, n)
    else (.ok id, n)

/-- The sockets of a publisher's connection, for data and repetitions. -/
structure Opened where
  data : SocketId
  resend : SocketId
deriving Inhabited

/-- Opens all that a publisher's link needs, or nothing. -/
def openPublisher (n : Network) (settings : Settings) (endpoints : Endpoints) (id : ChannelId)
    (generation : Nat) : Except IoError Opened × Network :=
  match n.listen endpoints.tcp settings.backlog (.acceptLoop id generation) with
  | (.error e, n) => (.error e, n)
  | (.ok listener, n) =>
    match n.openSender settings endpoints.udp id with
    | (.error e, n) => (.error e, (n.closeListener listener).1)
    | (.ok data, n) =>
      let reader := Actor.requestLoop id generation
      match n.bind endpoints.resend false (.actor reader) [.sendLoop id, reader] with
      | (.error e, n) => (.error e, ((n.closeListener listener).1).closeSocket data)
      | (.ok resend, n) => (.ok ⟨data, resend⟩, n)

/-- The socket that a subscriber receives data on. -/
def openReceiver (n : Network) (interface : Ipv4) (addr : Endpoint) (id : ChannelId)
    (generation : Nat) : Except IoError SocketId × Network :=
  let reader := Actor.udpLoop id generation
  let holders := [.subscriberControl id, reader]
  if addr.ip.isMulticast then
    match n.bind { addr with ip := .unspecified } true (.actor reader) holders with
    | (.error e, n) => (.error e, n)
    | (.ok socket, n) => (.ok socket, n.join socket addr.ip interface)
  else n.bind addr true (.actor reader) holders

end Network

end ReliableMulticast.Simulation
