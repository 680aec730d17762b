import ReliableMulticast.Link.Event

/-!
The feed that hands events to any number of readers. It keeps the newest events only; a reader
that falls further behind is told how many it missed and goes on with the oldest one left.
-/

namespace ReliableMulticast.Link

structure Feed where
  /-- The number of events so far. -/
  total : Nat
  /-- The kept events, newest first. -/
  newest : List Event
  /-- For each reader the number of events before the next one it reads, while it is listening. -/
  readers : List (Option Nat)
deriving DecidableEq, Repr, Inhabited

namespace Feed

/-- How many events are kept. -/
def capacity : Nat := 1024

def new : Feed := ⟨0, [], []⟩

def emit (f : Feed) (e : Event) : Feed :=
  { f with total := f.total + 1, newest := (e :: f.newest).take capacity }

/-- A new reader gets the events from now on. It is known by the number of readers before it. -/
def subscribe (f : Feed) : Nat × Feed :=
  (f.readers.length, { f with readers := f.readers ++ [some f.total] })

def unsubscribe (f : Feed) (reader : Nat) : Feed := { f with readers := f.readers.set reader none }

inductive Reading
  | event (e : Event)
  | empty
  /-- So many events were lost. -/
  | lagged (count : Nat)
  | unsubscribed
deriving DecidableEq, Repr, Inhabited

/-- The number of events that are no longer kept. -/
def lost (f : Feed) : Nat := f.total - f.newest.length

def moveTo (f : Feed) (reader position : Nat) : Feed :=
  { f with readers := f.readers.set reader (some position) }

def poll (f : Feed) (reader : Nat) : Reading × Feed :=
  match f.readers[reader]? with
  | some (some position) =>
    if position < f.lost then (.lagged (f.lost - position), f.moveTo reader f.lost)
    else
      match f.newest.reverse[position - f.lost]? with
      | some e => (.event e, f.moveTo reader (position + 1))
      | none => (.empty, f)
  | _ => (.unsubscribed, f)

end Feed

end ReliableMulticast.Link
