import ReliableMulticast.Proofs.Delivery.Subscription
import ReliableMulticast.Proofs.Publisher.Broadcast
import ReliableMulticast.Proofs.Subscriber.Talk
import ReliableMulticast.Proofs.Subscriber.Unbroken

/-!
# A subscription on a line without loss

A `Line` is a subscription whose data socket loses nothing. From the moment on when the link opens the socket, all that the
transmitter sends to the data address arrives there, once and in the order in which it was sent. A session hears nothing on
a connection before the link has sent its login there, and by then the socket is open. Apart from that the two sides go on
as they like: frames of a session may come before, between or after datagrams, and either side may connect anew.

`Tap.Serves` is what holds of the socket that was opened last: its receiver has heard the application data from a number
`since` on without a break, and what was handed over since is a snapshot and, behind its end, all of that from the end of
the snapshot on. `Serves.rests` and `Serves.talks` keep it.
-/

namespace ReliableMulticast

open SubscriberLink (Surroundings Task Effect deliveries Rests Talks)

namespace SubscriberLink

/-- The connection on which a login goes out. -/
def Effect.login? : Effect → Option Nat
  | .login generation _ => some generation
  | _ => none

/-- The connection whose data socket is opened, and the channel by which its datagrams are sorted. -/
def Effect.opens? : Effect → Option (Nat × Channel)
  | .openUdp generation _ channel => some (generation, channel)
  | _ => none

end SubscriberLink

/-- The data socket of a connection. -/
structure Line.Tap where
  generation : Nat
  channel : Channel
  /-- The place of the first datagram that it gets. -/
  first : Nat
  /-- The place of the datagram that it gets next. -/
  next : Nat
  /-- The number of deliveries before it was opened. -/
  skipped : Nat
deriving DecidableEq, Repr, Inhabited

structure Line where
  base : Subscription
  /-- What went to the data address, oldest first. -/
  live : List Frame
  /-- The connections on which a login was sent. -/
  greeted : List Nat
  /-- The data socket that was opened last. -/
  tap : Option Line.Tap
deriving DecidableEq, Repr, Inhabited

namespace Line

inductive Event
  | transmit (now : Instant) (e : Transmitter.Event)
  | accept (now : Instant) (generation : Nat) (channel : Channel) (settings : Settings) (peer : Endpoint)
  | session (place : Nat) (input : Session.Input)
  | answer (place : Nat)
  /-- The connection is there. That many datagrams have been sent by then that are still to arrive. -/
  | connected (env : Surroundings) (generation : Nat) (peer : Endpoint) (inFlight : Nat)
  | stream (env : Surroundings) (place : Nat)
  /-- The next datagram arrives. -/
  | arrive (env : Surroundings) (sender : Endpoint)
  | task (env : Surroundings) (task : Task)

def begin (settings : Settings) (start : Instant) (channel : Channel) (settings' : Settings) : Line :=
  ⟨.begin settings start channel settings', [], [], none⟩

/-- Anything but what connections, sessions and datagrams bring, and no request of an operator. -/
def isFree : Task → Bool
  | .tcpConnected .. => false
  | .manualResend .. => false
  | task => Subscription.isUnnumbered task

/-- The next datagram, for as long as the receiver of its connection is there. -/
def datagram? (x : Line) : Option (Tap × Frame) :=
  x.tap.bind fun t =>
    ((x.base.link.current? t.generation).bind (·.receiver)).bind fun _ => x.live[t.next]?.map fun f => (t, f)

/-- What the link is told at an event, and in which surroundings. -/
def told? (x : Line) : Event → Option (Surroundings × Task)
  | .connected env generation peer _ =>
    if generation ∈ x.greeted then none else some (env, .tcpConnected generation peer)
  | .stream env place => x.base.written[place]?.map fun entry => (env, .tcpFrame entry.1 entry.2)
  | .arrive env sender =>
    x.datagram?.bind fun entry =>
      match Intake.ofDatagram entry.1.channel .new sender entry.2.encode with
      | .pass f => some (env, .udp entry.1.generation f)
      | _ => none
  | .task env task => if isFree task then some (env, task) else none
  | _ => none

/-- A session reads nothing before the other end has logged in. -/
def hears (x : Line) (place : Nat) : Session.Input → Bool
  | .read _ (.frame _) => x.base.hosts[place]?.any fun host => x.greeted.contains host.generation
  | _ => true

/-- What happens apart from the link. -/
def advance (x : Line) : Event → Line
  | .transmit now e =>
    { x with
      base := x.base.step (.transmit now e)
      live := x.live ++ x.base.transmission.transmitter.broadcast now e }
  | .accept now generation channel settings peer =>
    { x with base := x.base.step (.accept now generation channel settings peer) }
  | .session place input => if x.hears place input then { x with base := x.base.step (.session place input) } else x
  | .answer place => { x with base := x.base.step (.answer place) }
  | .arrive _ _ =>
    match x.datagram? with
    | none => x
    | some (t, _) => { x with tap := some { t with next := t.next + 1 } }
  | _ => x

def Event.inFlight : Event → Nat
  | .connected _ _ _ inFlight => inFlight
  | _ => 0

/-- The link goes on, and may open a data socket and log in. -/
def tell (x : Line) (env : Surroundings) (task : Task) (inFlight : Nat) : Line :=
  let effects := (x.base.link.onTask env task).2
  let place := x.live.length - inFlight
  { base := x.base.onTask env task
    live := x.live
    greeted := x.greeted ++ effects.filterMap Effect.login?
    tap :=
      ((effects.findSome? Effect.opens?).map fun entry =>
        ⟨entry.1, entry.2, place, place, x.base.handed.length⟩).or x.tap }

def step (x : Line) (e : Event) : Line :=
  match x.told? e with
  | none => x.advance e
  | some (env, task) => (x.advance e).tell env task e.inFlight

def run (x : Line) (es : List Event) : Line := es.foldl step x

/-- Application data is published, and both sides filter by this shard. -/
def Event.Keeps (shard : Option UInt8) : Event → Prop
  | .transmit _ e => e.Keeps shard
  | .task _ (.update channel) => channel.shard = shard
  | _ => True

/-! ### What is seen of it -/

namespace Tap

/-- The number that application data gets next when the socket is opened. -/
def since (t : Tap) (live : List Frame) : Nat := nextOf (live.take t.first)

/-- The application data that has arrived. -/
def heard (t : Tap) (live : List Frame) : List Frame := dataOf ((live.take t.next).drop t.first)

/-- The socket after a task. -/
def after (t : Tap) : Task → Tap
  | .udp .. => { t with next := t.next + 1 }
  | _ => t

end Tap

/-- What the application was handed since the data socket was opened. -/
def handed (x : Line) : List Delivery :=
  match x.tap with
  | none => []
  | some t => x.base.handed.drop t.skipped

/-- The application data that has arrived since. -/
def received (x : Line) : List Frame :=
  match x.tap with
  | none => []
  | some t => t.heard x.live

/-- The effects that an event has on the subscriber's side. -/
def effects (x : Line) (e : Event) : List Effect :=
  match x.told? e with
  | none => []
  | some (env, task) => (x.base.link.onTask env task).2

/-- The calls on the receiver of the connection that an event leads to, each with the answer. -/
inductive Answers (x : Line) (e : Event) : Receiver.Call → Receiver.Answer → Prop
  | mk {env : Surroundings} {task : Task} {c : SubscriberLink.Connection} {socket : SocketId} {r : Receiver}
    {call : Receiver.Call} :
    x.told? e = some (env, task) → x.base.link.connection = some c → c.receiver = some (socket, r) →
      task.Makes c.generation call → (SubscriberLink.onTcp call = true → c.tcpState = .receiving) →
        Answers x e call (r.onCall env.now call)

/-- A frame arrives on an accepted connection that ends the snapshot of its channel at this number. -/
inductive Ends (x : Line) (e : Event) : Nat → Prop
  | mk {env : Surroundings} {c : SubscriberLink.Connection} {f : Frame} {seq : UInt64} :
    x.told? e = some (env, .tcpFrame c.generation f) → x.base.link.connection = some c → c.tcpState = .receiving →
      c.receiver ≠ none → f.message? = .ok (some (.endOfSnapshot x.base.link.control.channel seq true)) →
        Ends x e seq.toNat

/-! ### One data socket -/

namespace Tap

variable {t : Tap} {live : List Frame} {f : Frame}

theorem generation_after (t : Tap) (task : Task) : (t.after task).generation = t.generation := by cases task <;> rfl

theorem channel_after (t : Tap) (task : Task) : (t.after task).channel = t.channel := by cases task <;> rfl

theorem first_after (t : Tap) (task : Task) : (t.after task).first = t.first := by cases task <;> rfl

theorem skipped_after (t : Tap) (task : Task) : (t.after task).skipped = t.skipped := by cases task <;> rfl

theorem since_after (t : Tap) (task : Task) (live : List Frame) : (t.after task).since live = t.since live := by
  unfold since
  rw [first_after]

theorem next_le_after (t : Tap) (task : Task) : t.next ≤ (t.after task).next := by
  cases task with
  | udp generation f => exact Nat.le_succ t.next
  | _ => exact Nat.le_refl t.next

theorem since_append (h : t.first ≤ live.length) (more : List Frame) : t.since (live ++ more) = t.since live := by
  unfold since
  rw [List.take_append_of_le_length h]

theorem heard_append (h : t.next ≤ live.length) (more : List Frame) : t.heard (live ++ more) = t.heard live := by
  unfold heard
  rw [List.take_append_of_le_length h]

theorem nextOf_take (h : t.first ≤ t.next) : nextOf (live.take t.next) = t.since live + (t.heard live).length := by
  have hsplit := nextOf_append ((live.take t.next).take t.first) ((live.take t.next).drop t.first)
  rwa [List.take_append_drop, List.take_take, Nat.min_eq_left h] at hsplit

theorem heard_after (h : t.first ≤ t.next) (hf : live[t.next]? = some f) (generation : Nat) (g : Frame) :
    (t.after (.udp generation g)).heard live = t.heard live ++ dataOf [f] := by
  obtain ⟨hlt, hget⟩ := List.getElem?_eq_some_iff.1 hf
  have htake : live.take (t.next + 1) = live.take t.next ++ [f] := by
    rw [List.take_add_one, hf]
    rfl
  show dataOf ((live.take (t.next + 1)).drop t.first) = _
  rw [htake, List.drop_append_of_le_length, dataOf_append]
  · rfl
  · rw [List.length_take]
    omega

/-- The socket serves the link: what has arrived there is what the link was told of, and what has been handed over since. -/
structure Serves (t : Tap) (live : List Frame) (l : SubscriberLink) (handed : List Delivery) : Prop where
  first_le : t.first ≤ t.next
  next_le : t.next ≤ live.length
  skipped_le : t.skipped ≤ handed.length
  course : ∃ cut, Receiver.Told (t.since live) (t.heard live) cut (handed.drop t.skipped) ∧
    ∀ c socket r, l.connection = some c → c.receiver = some (socket, r) →
      c.generation = t.generation ∧ r.Unbroken (t.since live) (t.heard live) cut

variable {l : SubscriberLink} {handed : List Delivery}

/-- A socket that is only being opened. -/
theorem serves_fresh (generation : Nat) (channel : Channel) {place : Nat} (hle : place ≤ live.length)
    (hreceiver : ∀ c socket r, l.connection = some c → c.receiver = some (socket, r) →
      c.generation = generation ∧ ∃ settings resendTo, r = .new settings resendTo) :
    Serves ⟨generation, channel, place, place, handed.length⟩ live l handed := by
  have hheard : heard ⟨generation, channel, place, place, handed.length⟩ live = [] := by
    unfold heard
    rw [List.drop_eq_nil_of_le]
    · rfl
    · exact List.length_take_le _ _
  refine ⟨Nat.le_refl _, hle, Nat.le_refl _, none, ?_, fun c socket r hc hr => ?_⟩
  · rw [hheard, List.drop_length]
    exact Receiver.told_nil _
  · obtain ⟨hgeneration, settings, resendTo, rfl⟩ := hreceiver c socket r hc hr
    rw [hheard]
    exact ⟨hgeneration, Receiver.unbroken_new settings resendTo _⟩

theorem Serves.grow (h : t.Serves live l handed) (more : List Frame) : t.Serves (live ++ more) l handed where
  first_le := h.first_le
  next_le := by
    rw [List.length_append]
    exact Nat.le_add_right_of_le h.next_le
  skipped_le := h.skipped_le
  course := by
    rw [since_append (Nat.le_trans h.first_le h.next_le), heard_append h.next_le]
    exact h.course

theorem deliveries_of_idle {effects : List Effect} (h : ∀ e ∈ effects, ¬ e.Busy) : deliveries effects = [] := by
  refine List.filterMap_eq_nil_iff.2 fun e he => ?_
  have hidle := h e he
  cases e with
  | deliver d => exact absurd (.deliver d) hidle
  | _ => rfl

theorem Serves.rests (h : t.Serves live l handed) {p : SubscriberLink × List Effect} (hrests : Rests l p) :
    t.Serves live p.1 (handed ++ deliveries p.2) := by
  rw [deliveries_of_idle hrests.idle, List.append_nil]
  obtain ⟨cut, htold, hreceiver⟩ := h.course
  refine ⟨h.first_le, h.next_le, h.skipped_le, cut, htold, fun c' socket r hc' hr => ?_⟩
  obtain ⟨c, hc, hgeneration, hentry⟩ := hrests.kept c' (socket, r) hc' hr
  rw [← hgeneration]
  exact hreceiver c socket r hc hentry

/-- The receiver answers to a call that may come now. -/
theorem Serves.talks (h : t.Serves live l handed) {now : Instant} {task : Task} {p : SubscriberLink × List Effect}
    {c : SubscriberLink.Connection} {socket : SocketId} {r : Receiver} {call : Receiver.Call}
    (htalks : Talks now task l p c socket r call) (hle : (t.after task).next ≤ live.length) {cut : Option Nat}
    (htold : Receiver.Told (t.since live) (t.heard live) cut (handed.drop t.skipped))
    (hunbroken : r.Unbroken (t.since live) (t.heard live) cut) (hgeneration : c.generation = t.generation)
    (hcomes : Receiver.Comes (t.since live) (t.heard live) cut call ((t.after task).heard live)) :
    (t.after task).Serves live p.1 (handed ++ deliveries p.2) := by
  obtain ⟨-, cut', hnext, hhanded⟩ := hunbroken.onCall now hcomes
  have hdeliveries : deliveries p.2 = (r.onCall now call).deliveries := by
    obtain ⟨more, heffects, hmore⟩ := htalks.effects
    rw [heffects, SubscriberLink.deliveries_append, SubscriberLink.deliveries_outputs, deliveries_of_idle hmore,
      List.append_nil]
    rfl
  refine ⟨?_, hle, ?_, cut', ?_, fun c' socket' r' hc' hr' => ?_⟩
  · rw [first_after]
    exact Nat.le_trans h.first_le (t.next_le_after task)
  · rw [skipped_after, List.length_append]
    exact Nat.le_add_right_of_le h.skipped_le
  · rw [since_after, skipped_after, List.drop_append_of_le_length h.skipped_le, hdeliveries]
    exact hhanded _ htold
  · obtain ⟨hc, hentry⟩ := htalks.kept c' (socket', r') hc' hr'
    cases hentry
    rw [generation_after, since_after]
    exact ⟨hc.trans hgeneration, hnext⟩

end Tap

/-! ### The head -/

/-- Nothing but its own events moves the transmitter. -/
theorem transmission_step (x : Line) (e : Event) :
    (x.step e).base.transmission = x.base.transmission ∨
      ∃ now e', (x.step e).base.transmission = x.base.transmission.step now e' := by
  have hadvance : (x.advance e).base.transmission = x.base.transmission ∨
      ∃ now e', (x.advance e).base.transmission = x.base.transmission.step now e' := by
    cases e with
    | transmit now e => exact Or.inr ⟨now, e, rfl⟩
    | accept now generation channel settings peer => exact Subscription.transmission_step x.base _
    | session place input =>
      unfold advance
      dsimp only
      split
      · exact Subscription.transmission_step x.base _
      · exact Or.inl rfl
    | answer place => exact Subscription.transmission_step x.base _
    | arrive env sender =>
      unfold advance
      dsimp only
      split <;> exact Or.inl rfl
    | connected env generation peer inFlight => exact Or.inl rfl
    | stream env place => exact Or.inl rfl
    | task env task => exact Or.inl rfl
  unfold step
  split
  · exact hadvance
  · exact hadvance

theorem head_le_run {x : Line} (h : x.base.transmission.Faithful) (es : List Event) : x.base.head ≤ (x.run es).base.head := by
  induction es generalizing x with
  | nil => exact Nat.le_refl _
  | cons e rest ih =>
    have hstep : (x.step e).base.transmission.Faithful ∧ x.base.head ≤ (x.step e).base.head := by
      unfold Subscription.head
      rcases transmission_step x e with heq | ⟨now, e', heq⟩
      · rw [heq]
        exact ⟨h, Nat.le_refl _⟩
      · rw [heq]
        exact ⟨h.step now e', h.head_le_step now e'⟩
    exact Nat.le_trans hstep.2 (ih hstep.1)

end Line

end ReliableMulticast
