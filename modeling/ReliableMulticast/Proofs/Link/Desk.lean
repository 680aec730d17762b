import ReliableMulticast.Proofs.Link.Engine
import ReliableMulticast.Proofs.Link.Generations
import ReliableMulticast.Proofs.Mailbox.Queue
import ReliableMulticast.Proofs.Publisher.Heading
import ReliableMulticast.Proofs.Subscriber.Heading
import ReliableMulticast.Simulation.Publishing
import ReliableMulticast.Simulation.Subscribing

/-!
# Commands in the inbox of a control

Both kinds of links get their commands through the inbox of their control, among all that their own activities post to it. A
`Desk` is what both have in common for this: the link and the inbox of a node, and what the control makes of a task. All that
happens at a desk apart from the calls of the operator is `Work`: the control takes what was posted first, or deals with a
timer, or something else is posted, or another part of the node changes.

A desk makes a `Fleet` (`Desk.fleet`), and this fleet is lawful if tasks that are no commands leave the channel, the wish and
the name of the link alone, as they do for both kinds of links (`Desk.Lawful.fleet`).

Main statement (`Desk.Lawful.serves`): what the calls to an engine post at its desks gets to the links behind them. The desks
of both kinds of links are lawful (`PublisherNode.lawful_desk`, `SubscriberNode.lawful_desk`).
-/

namespace ReliableMulticast

open Link (Command Commanded)
open Simulation (ControlTask World PublisherNode SubscriberNode)

namespace Link

/-- The inbox of a node and the link behind it. -/
structure Desk (N L T : Type) where
  link : N → L
  inbox : N → Mailbox (ControlTask T) Unit
  /-- The node with this link and this inbox. -/
  put : N → L → Mailbox (ControlTask T) Unit → N
  create : World → Channel → N
  /-- What the control makes of the link with a task. -/
  act : World → N → T → L
  task : Command → T
  command? : T → Option Command
  name : L → ChannelId
  Obeys : L → Channel → Bool → Prop

namespace Desk

variable {N L T : Type} (d : Desk N L T)

/-- The command in an envelope. -/
def order? : Envelope (ControlTask T) Unit → Option Command
  | .task (.task t) => d.command? t
  | _ => none

/-- What happens at a desk besides the calls of the operator. -/
inductive Work
  /-- The control takes what was posted first. -/
  | take (w : World)
  /-- The control deals with a timer. -/
  | ring (w : World) (t : T) (own : d.command? t = none)
  /-- An activity of the link, or somebody who asks for its status, posts something. -/
  | post (e : Envelope (ControlTask T) Unit) (own : d.order? e = none)
  /-- The node changes, but not its link and its inbox. -/
  | aside (change : N → N)

def work (n : N) : d.Work → N
  | .take w =>
    match (d.inbox n).take? with
    | some (.task (.task t), box) => d.put n (d.act w n t) box
    | some (_, box) => d.put n (d.link n) box
    | none => n
  | .ring w t _ => d.put n (d.act w n t) (d.inbox n)
  | .post e _ => d.put n (d.link n) ((d.inbox n).post e).2
  | .aside change => d.put (change n) (d.link n) (d.inbox n)

def taken? (n : N) : d.Work → Option Command
  | .take _ => (d.inbox n).take?.bind fun taken => d.order? taken.1
  | _ => none

/-- The node that is there afterwards has the link and the inbox that some work at the desk leaves. -/
def Works (n : N) (after? : Option N) : Prop :=
  ∃ (work : d.Work) (n' : N), after? = some n' ∧ d.link n' = d.link (d.work n work) ∧ d.inbox n' = d.inbox (d.work n work)

/-- The control takes again and again. -/
def serve (n : N) (worlds : List World) : N := worlds.foldl (fun n w => d.work n (.take w)) n

/-- The links that are behind desks of this kind. -/
def fleet : Engine.Fleet N World d.Work where
  create := d.create
  work w n := d.work n w
  name n := d.name (d.link n)
  Open n := (d.inbox n).closed = false
  pending n := (d.inbox n).queue.filterMap d.order?
  taken? w n := d.taken? n w
  Obeys n := d.Obeys (d.link n)

structure Lawful [Commanded N] (d : Desk N L T) : Prop where
  link_put : ∀ n l box, d.link (d.put n l box) = l
  inbox_put : ∀ n l box, d.inbox (d.put n l box) = box
  given : ∀ command n, Commanded.give command n = d.put n (d.link n) ((d.inbox n).run (.task (d.task command))).2
  ordered : ∀ command, d.command? (d.task command) = some command
  created : ∀ w channel, d.inbox (d.create w channel) = .new ∧ d.name (d.link (d.create w channel)) = channel.id ∧
    d.Obeys (d.link (d.create w channel)) channel false
  acted : ∀ w n t, d.name (d.act w n t) = d.name (d.link n) ∧ ∀ given wants, d.Obeys (d.link n) given wants →
    d.Obeys (d.act w n t) (((d.command? t).bind Command.channel?).getD given)
      (((d.command? t).bind Command.wish?).getD wants)

variable {d} [Commanded N]

/-- What a piece of work makes of a node whose link takes a command with it, or none. -/
structure Worked (d : Desk N L T) (n : N) (taken : Option Command) (n' : N) : Prop where
  name : d.name (d.link n') = d.name (d.link n)
  isOpen : (d.inbox n').closed = false
  pending : (d.inbox n).queue.filterMap d.order? = taken.toList ++ (d.inbox n').queue.filterMap d.order?
  obeys : ∀ given wants, d.Obeys (d.link n) given wants →
    d.Obeys (d.link n') ((taken.bind Command.channel?).getD given) ((taken.bind Command.wish?).getD wants)

omit [Commanded N] in
theorem order?_post {box : Mailbox (ControlTask T) Unit} (hopen : box.closed = false) (e : Envelope (ControlTask T) Unit) :
    (box.post e).2.queue.filterMap d.order? = box.queue.filterMap d.order? ++ (d.order? e).toList := by
  rw [Mailbox.post_of_open hopen, List.filterMap_append]
  cases h : d.order? e with
  | none => rw [List.filterMap_cons_none h]; rfl
  | some command => rw [List.filterMap_cons_some h]; rfl

/-- The link and the inbox stay, up to what is posted. -/
theorem Lawful.worked_post (h : d.Lawful) {n : N} (hopen : (d.inbox n).closed = false) (m : N)
    {e : Envelope (ControlTask T) Unit} (he : d.order? e = none) :
    d.Worked n none (d.put m (d.link n) ((d.inbox n).post e).2) := by
  refine ⟨by rw [h.link_put], ?_, ?_, fun given wants hobeys => ?_⟩
  · rw [h.inbox_put, Mailbox.post_of_open hopen]
    exact hopen
  · rw [h.inbox_put, order?_post hopen, he]
    exact (List.append_nil _).symm
  · rw [h.link_put]
    exact hobeys

/-- The control deals with a task, whether it was posted or not. -/
theorem Lawful.worked_act (h : d.Lawful) (w : World) (n : N) (t : T) {box : Mailbox (ControlTask T) Unit}
    (hopen : box.closed = false)
    (hqueue : (d.inbox n).queue.filterMap d.order? = (d.command? t).toList ++ box.queue.filterMap d.order?) :
    d.Worked n (d.command? t) (d.put n (d.act w n t) box) := by
  obtain ⟨hname, hobeys⟩ := h.acted w n t
  refine ⟨by rw [h.link_put, hname], by rw [h.inbox_put, hopen], by rw [h.inbox_put, hqueue], ?_⟩
  rw [h.link_put]
  exact hobeys

theorem Lawful.worked (h : d.Lawful) {n : N} (hopen : (d.inbox n).closed = false) (w : d.Work) :
    d.Worked n (d.taken? n w) (d.work n w) := by
  have hrefl : d.Worked n none n := ⟨rfl, hopen, rfl, fun _ _ hobeys => hobeys⟩
  cases w with
  | take w =>
    unfold work taken?
    dsimp only
    cases htake : (d.inbox n).take? with
    | none => exact hrefl
    | some taken =>
      obtain ⟨e, box⟩ := taken
      obtain ⟨hqueue, hclosed⟩ := Mailbox.queue_of_take? htake
      have hbox : box.closed = false := hclosed.trans hopen
      have hpending : (d.inbox n).queue.filterMap d.order? = (d.order? e).toList ++ box.queue.filterMap d.order? := by
        rw [hqueue, List.filterMap_cons]
        cases d.order? e <;> rfl
      have hidle (he : d.order? e = none) : d.Worked n none (d.put n (d.link n) box) := by
        rw [he] at hpending
        refine ⟨by rw [h.link_put], by rw [h.inbox_put, hbox], by rw [h.inbox_put, hpending], ?_⟩
        rw [h.link_put]
        exact fun _ _ hobeys => hobeys
      rcases e with (t | -) | _ | _
      · exact h.worked_act w n t hbox hpending
      · exact hidle rfl
      · exact hidle rfl
      · exact hidle rfl
  | ring w t own =>
    have hring := h.worked_act w n t hopen (by rw [own]; rfl)
    rw [own] at hring
    exact hring
  | post e own => exact h.worked_post hopen n own
  | aside change =>
    refine ⟨?_, ?_, ?_, fun given wants hobeys => ?_⟩
    · exact congrArg d.name (h.link_put _ _ _)
    · exact (congrArg (·.closed) (h.inbox_put _ _ _)).trans hopen
    · exact congrArg (·.queue.filterMap d.order?) (h.inbox_put (change n) (d.link n) (d.inbox n)).symm
    · show d.Obeys (d.link (d.put (change n) (d.link n) (d.inbox n))) given wants
      rw [h.link_put]
      exact hobeys

theorem Lawful.fleet (h : d.Lawful) : d.fleet.Lawful where
  created w channel := by
    obtain ⟨hinbox, hname, hobeys⟩ := h.created w channel
    refine ⟨hname, ?_, ?_, hobeys⟩
    · show (d.inbox (d.create w channel)).closed = false
      rw [hinbox]
      rfl
    · show (d.inbox (d.create w channel)).queue.filterMap d.order? = []
      rw [hinbox]
      rfl
  given command n hopen := by
    have hopen : (d.inbox n).closed = false := hopen
    have hlink : d.link (Commanded.give command n) = d.link n := by rw [h.given, h.link_put]
    have hinbox : d.inbox (Commanded.give command n) = ((d.inbox n).post (.task (.task (d.task command)))).2 := by
      rw [h.given, h.inbox_put]
      rfl
    refine ⟨congrArg d.name hlink, ?_, ?_, fun given wants hobeys => ?_⟩
    · show (d.inbox (Commanded.give command n)).closed = false
      rw [hinbox, Mailbox.post_of_open hopen]
      exact hopen
    · show (d.inbox (Commanded.give command n)).queue.filterMap d.order? = _
      rw [hinbox, order?_post hopen]
      exact congrArg (fun order : Option Command => _ ++ order.toList) (h.ordered command)
    · show d.Obeys (d.link (Commanded.give command n)) given wants
      rw [hlink]
      exact hobeys
  worked w n hopen := by
    obtain ⟨hname, hopen, hpending, hobeys⟩ := h.worked hopen w
    exact ⟨hname, hopen, hpending, hobeys⟩

theorem Lawful.queue_serve (h : d.Lawful) (n : N) (worlds : List World) :
    (d.inbox (d.serve n worlds)).queue = (d.inbox n).queue.drop worlds.length := by
  induction worlds generalizing n with
  | nil => rfl
  | cons w rest ih =>
    have htail : (d.inbox (d.work n (.take w))).queue = (d.inbox n).queue.tail := by
      unfold work Mailbox.take?
      dsimp only
      cases hqueue : (d.inbox n).queue with
      | nil => exact hqueue
      | cons e box =>
        rcases e with (t | -) | _ | _
        all_goals exact congrArg Mailbox.queue (h.inbox_put _ _ _)
    calc (d.inbox (d.serve (d.work n (.take w)) rest)).queue
        = ((d.inbox n).queue.tail).drop rest.length := by rw [ih, htail]
      _ = (d.inbox n).queue.drop (rest.length + 1) := List.drop_tail

/-- What is posted at a desk gets to the link behind it. -/
structure Serves (d : Desk N L T) : Prop where
  reaches : ∀ events, d.fleet.Reaches events
  /-- The control gets through its inbox. -/
  queue : ∀ n worlds, (d.inbox (d.serve n worlds)).queue = (d.inbox n).queue.drop worlds.length

theorem Lawful.serves (h : d.Lawful) : d.Serves := ⟨h.fleet.reaches, h.queue_serve⟩

end Desk

end Link

/-! ### The publisher's desk -/

namespace PublisherLink

def Task.command? : Task → Option Command
  | .up => some .up
  | .down => some .down
  | .update channel => some (.update channel)
  | _ => none

theorem Task.channel?_eq (t : Task) : t.command?.bind Command.channel? = t.channel? := by cases t <;> rfl

theorem Task.wish?_eq (t : Task) : t.command?.bind Command.wish? = t.wish? := by cases t <;> rfl

end PublisherLink

def Simulation.PublisherNode.desk (settings : Settings) : Link.Desk PublisherNode PublisherLink PublisherLink.Task where
  link := (·.link)
  inbox := (·.inbox)
  put n l box := { n with link := l, inbox := box }
  create w channel := (w.newPublisherNode settings channel).1
  act w n t := (n.link.onTask (w.publisherView n) t).1
  task
    | .up => .up
    | .down => .down
    | .update channel => .update channel
  command? := PublisherLink.Task.command?
  name l := l.control.channel
  Obeys := PublisherLink.Obeys

theorem Simulation.PublisherNode.lawful_desk (settings : Settings) : (PublisherNode.desk settings).Lawful where
  link_put _ _ _ := rfl
  inbox_put _ _ _ := rfl
  given command n := by cases command <;> rfl
  ordered command := by cases command <;> rfl
  created w channel := ⟨rfl, PublisherLink.name_new channel settings, PublisherLink.obeys_new channel settings⟩
  acted w n t := by
    refine ⟨(PublisherLink.lawful_core.turns n.link (w.publisherView n) t).name_eq, fun given wants hobeys => ?_⟩
    have htask := PublisherLink.Obeys.onTask hobeys (w.publisherView n) t
    rw [← PublisherLink.Task.channel?_eq, ← PublisherLink.Task.wish?_eq] at htask
    exact htask

/-! ### The subscriber's desk -/

namespace SubscriberLink

def Task.command? : Task → Option Command
  | .up => some .up
  | .down => some .down
  | .update channel => some (.update channel)
  | _ => none

theorem Task.channel?_eq (t : Task) : t.command?.bind Command.channel? = t.channel? := by cases t <;> rfl

theorem Task.wish?_eq (t : Task) : t.command?.bind Command.wish? = t.wish? := by cases t <;> rfl

end SubscriberLink

def Simulation.SubscriberNode.desk (settings : Settings) : Link.Desk SubscriberNode SubscriberLink SubscriberLink.Task where
  link := (·.link)
  inbox := (·.inbox)
  put n l box := { n with link := l, inbox := box }
  create w channel := (w.newSubscriberNode settings channel).1
  act w n t := (n.link.onTask (w.subscriberView n) t).1
  task
    | .up => .up
    | .down => .down
    | .update channel => .update channel
  command? := SubscriberLink.Task.command?
  name l := l.control.channel
  Obeys := SubscriberLink.Obeys

theorem Simulation.SubscriberNode.lawful_desk (settings : Settings) : (SubscriberNode.desk settings).Lawful where
  link_put _ _ _ := rfl
  inbox_put _ _ _ := rfl
  given command n := by cases command <;> rfl
  ordered command := by cases command <;> rfl
  created w channel := ⟨rfl, SubscriberLink.name_new channel settings, SubscriberLink.obeys_new channel settings⟩
  acted w n t := by
    refine ⟨(SubscriberLink.lawful_core.turns n.link (w.subscriberView n) t).name_eq, fun given wants hobeys => ?_⟩
    have htask := SubscriberLink.Obeys.onTask hobeys (w.subscriberView n) t
    rw [← SubscriberLink.Task.channel?_eq, ← SubscriberLink.Task.wish?_eq] at htask
    exact htask

end ReliableMulticast
