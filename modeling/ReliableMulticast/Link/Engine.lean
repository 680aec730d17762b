import ReliableMulticast.Channel.Basic
import ReliableMulticast.Link.Registry

/-!
Engines: all links of one side, created on the first word of their channel. A link that is created
while the engine is started is brought up right away.
-/

namespace ReliableMulticast.Link

/-- What operators ask of a link. -/
inductive Command
  | up
  | down
  | update (channel : Channel)
deriving DecidableEq, Repr, Inhabited

/-- Links take commands in the order in which they are given. -/
class Commanded (α : Type) where
  give : Command → α → α

structure Engine (α : Type) where
  started : Bool
  links : Registry α
deriving Repr, Inhabited

namespace Engine

variable {α : Type} [Commanded α]

def new : Engine α := ⟨false, .empty⟩

/-- Hands a channel to its link, or to a new one. -/
def updateLink (e : Engine α) (channel : Channel) (create : α) : Engine α :=
  let (created, links) :=
    e.links.update channel.id (Commanded.give (.update channel)) create
  if created && e.started then { e with links := links.modify channel.id (Commanded.give .up) }
  else { e with links := links }

def start (e : Engine α) : Engine α :=
  ⟨true, e.links.mapAll (Commanded.give .up)⟩

def stop (e : Engine α) : Engine α :=
  ⟨false, e.links.mapAll (Commanded.give .down)⟩

end Engine

end ReliableMulticast.Link
