import ReliableMulticast.Bytes
import ReliableMulticast.Frame.Control
import ReliableMulticast.Link.Slots

/-!
The links of an engine by channel id, one link for each id, in the order of the ids' bytes. Visits
that do not promise that order follow the slots of the ids.
-/

namespace ReliableMulticast.Link

structure Registry (α : Type) where
  entries : List (ChannelId × α)
  slots : Slots
deriving Repr, Inhabited

namespace Registry

variable {α : Type}

def empty : Registry α := ⟨[], .empty⟩

/-- The order of two ids is that of their bytes. -/
def precedes (a b : ChannelId) : Bool := Bytes.ofText a < Bytes.ofText b

def get? (r : Registry α) (id : ChannelId) : Option α := r.entries.lookup id

/-- All links, by increasing id. -/
def all (r : Registry α) : List α := r.entries.map (·.2)

def ids (r : Registry α) : List ChannelId := r.entries.map (·.1)

/-- The ids in the order of visits. -/
def visitOrder (r : Registry α) : List ChannelId := r.slots.ids

/-- A new entry in its place. -/
def place (id : ChannelId) (link : α) : List (ChannelId × α) → List (ChannelId × α)
  | [] => [(id, link)]
  | e :: rest => if precedes id e.1 then (id, link) :: e :: rest else e :: place id link rest

/-- Changes the link of a channel, if there is one. -/
def modify (r : Registry α) (id : ChannelId) (change : α → α) : Registry α :=
  { r with entries := r.entries.map fun e => if e.1 = id then (e.1, change e.2) else e }

def mapAll (r : Registry α) (change : α → α) : Registry α :=
  { r with entries := r.entries.map fun e => (e.1, change e.2) }

/-- Changes the link of a channel, or creates it on first reference. The answer is whether it was
created. -/
def update (r : Registry α) (id : ChannelId) (change : α → α) (create : α) : Bool × Registry α :=
  match r.get? id with
  | some _ => (false, r.modify id change)
  | none => (true, ⟨place id create r.entries, r.slots.insert id⟩)

end Registry

end ReliableMulticast.Link
