/-!
Internet addresses. Channels are configured with version 4 addresses; an address of version 6 can
only be met as the far end of a connection, and is kept in its written form.
-/

namespace ReliableMulticast

structure Ipv4 where
  a : UInt8
  b : UInt8
  c : UInt8
  d : UInt8
deriving DecidableEq, Repr, Inhabited

namespace Ipv4

def unspecified : Ipv4 := ⟨0, 0, 0, 0⟩

def localhost : Ipv4 := ⟨127, 0, 0, 1⟩

def isUnspecified (ip : Ipv4) : Bool := ip == unspecified

/-- Groups are the addresses from 224.0.0.0 to 239.255.255.255. -/
def isMulticast (ip : Ipv4) : Bool := 224 ≤ ip.a && ip.a ≤ 239

def text (ip : Ipv4) : String :=
  toString ip.a.toNat ++ "." ++ toString ip.b.toNat ++ "." ++ toString ip.c.toNat ++ "."
    ++ toString ip.d.toNat

/-- One part of a dotted address: at most three digits, no leading zero, below 256. -/
def octet? (part : String) : Option UInt8 :=
  let digits := part.toList
  if digits.all Char.isDigit && 1 ≤ digits.length && digits.length ≤ 3
      && (digits.length == 1 || digits.head? != some '0') then
    let n := digits.foldl (fun n c => 10 * n + (c.toNat - '0'.toNat)) 0
    if n < 256 then some (.ofNat n) else none
  else none

/-- The strict dotted form: four parts, each an octet without leading zeros. -/
def parse? (text : String) : Option Ipv4 :=
  match text.splitOn "." with
  | [a, b, c, d] => do return ⟨← octet? a, ← octet? b, ← octet? c, ← octet? d⟩
  | _ => none

end Ipv4

/-- Splits a written address at its last colon into what is before it and the port after it. -/
def splitPort? (text : String) : Option (String × UInt16) :=
  match (text.splitOn ":").reverse with
  | port :: part :: parts =>
    port.toNat?.map fun n => (String.intercalate ":" (part :: parts).reverse, .ofNat n)
  | _ => none

inductive Ip
  | v4 (ip : Ipv4)
  | v6 (written : String)
deriving DecidableEq, Repr, Inhabited

/-- What is not in the dotted form counts as an address of version 6, in brackets or not. -/
def Ip.ofText (text : String) : Ip :=
  match Ipv4.parse? text with
  | some ip => v4 ip
  | none => v6 (String.ofList (text.toList.filter fun c => c != '[' && c != ']'))

/-- A version 4 address and a port: where a channel is served. -/
structure Endpoint where
  ip : Ipv4
  port : UInt16
deriving DecidableEq, Repr, Inhabited

namespace Endpoint

def text (e : Endpoint) : String := e.ip.text ++ ":" ++ toString e.port.toNat

def parse? (text : String) : Option Endpoint := do
  let (ip, port) ← splitPort? text
  return ⟨← Ipv4.parse? ip, port⟩

end Endpoint

/-- The far end of a connection. -/
structure Peer where
  ip : Ip
  port : UInt16
deriving DecidableEq, Repr, Inhabited

namespace Peer

def ofEndpoint (e : Endpoint) : Peer := ⟨.v4 e.ip, e.port⟩

/-- A version 6 address stands in brackets before its port. -/
def text (p : Peer) : String :=
  match p.ip with
  | .v4 ip => Endpoint.text ⟨ip, p.port⟩
  | .v6 written => "[" ++ written ++ "]:" ++ toString p.port.toNat

def parse? (text : String) : Option Peer :=
  (splitPort? text).map fun (ip, port) => ⟨.ofText ip, port⟩

end Peer

end ReliableMulticast
