import ReliableMulticast.Proofs.Link.Desk

/-!
# The turns of a control

In a simulation the control of a link takes its turns among all other activities, and what the link answers is put into
effect on the network, the transmitter, the sessions and so on. None of these effects touches a link or posts to the inbox of
a control (`Spares`, `spares_publisherEffect`, `spares_subscriberEffect`). Hence a turn of the control is work at its desk
and nothing else (`publisherControlTurn_works`, `subscriberControlTurn_works`).

Main statement (`Link.commands_reach`): calls to an engine reach all its links, be it a publisher or a subscriber, whatever
work is done at their desks, and the controls do no other work.
-/

namespace ReliableMulticast

namespace Simulation.World

/-! ### What is spared -/

/-- Both engines with all that belongs to them. -/
def sides (w : World) : Option PublisherSide × Option SubscriberSide := (w.publisher, w.subscriber)

/-- No link is different, and no inbox of a control. -/
structure Spares (w w' : World) : Prop where
  publisher : ∀ id, (w'.publisherNode? id).map (fun n => (n.link, n.inbox)) =
    (w.publisherNode? id).map fun n => (n.link, n.inbox)
  subscriber : ∀ id, (w'.subscriberNode? id).map (fun n => (n.link, n.inbox)) =
    (w.subscriberNode? id).map fun n => (n.link, n.inbox)

variable {w w' w'' : World}

theorem spares_refl (w : World) : Spares w w := ⟨fun _ => rfl, fun _ => rfl⟩

theorem Spares.trans (h : Spares w w') (h' : Spares w' w'') : Spares w w'' :=
  ⟨fun id => (h'.publisher id).trans (h.publisher id), fun id => (h'.subscriber id).trans (h.subscriber id)⟩

theorem Spares.of_sides (h : w'.sides = w.sides) : Spares w w' := by
  obtain ⟨hpublisher, hsubscriber⟩ := Prod.mk.inj h
  refine ⟨fun id => ?_, fun id => ?_⟩
  · unfold publisherNode?
    rw [hpublisher]
  · unfold subscriberNode?
    rw [hsubscriber]

theorem publisherNode?_modify (w : World) (id key : ChannelId) (change : PublisherNode → PublisherNode) :
    (w.modifyPublisherNode id change).publisherNode? key =
      if key = id then (w.publisherNode? key).map change else w.publisherNode? key := by
  unfold modifyPublisherNode publisherNode?
  cases w.publisher with
  | none => split <;> rfl
  | some p => exact Link.Registry.get?_modify p.engine.links id key change

theorem subscriberNode?_modify (w : World) (id key : ChannelId) (change : SubscriberNode → SubscriberNode) :
    (w.modifySubscriberNode id change).subscriberNode? key =
      if key = id then (w.subscriberNode? key).map change else w.subscriberNode? key := by
  unfold modifySubscriberNode subscriberNode?
  cases w.subscriber with
  | none => split <;> rfl
  | some s => exact Link.Registry.get?_modify s.engine.links id key change

theorem spares_modifyPublisher (w : World) (id : ChannelId) {change : PublisherNode → PublisherNode}
    (h : ∀ n, (change n).link = n.link ∧ (change n).inbox = n.inbox) : Spares w (w.modifyPublisherNode id change) := by
  refine ⟨fun key => ?_, fun _ => rfl⟩
  rw [publisherNode?_modify]
  split
  · rw [Option.map_map]
    exact Option.map_congr fun n _ => Prod.ext (h n).1 (h n).2
  · rfl

theorem spares_modifySubscriber (w : World) (id : ChannelId) {change : SubscriberNode → SubscriberNode}
    (h : ∀ n, (change n).link = n.link ∧ (change n).inbox = n.inbox) : Spares w (w.modifySubscriberNode id change) := by
  refine ⟨fun _ => rfl, fun key => ?_⟩
  rw [subscriberNode?_modify]
  split
  · rw [Option.map_map]
    exact Option.map_congr fun n _ => Prod.ext (h n).1 (h n).2
  · rfl

theorem sides_wake (w : World) (a : Actor) : (w.wake a).sides = w.sides := by
  unfold wake
  split <;> rfl

theorem sides_foldl {α : Type} {change : World → α → World} (h : ∀ w a, (change w a).sides = w.sides) (w : World)
    (as : List α) : (as.foldl change w).sides = w.sides := by
  induction as generalizing w with
  | nil => rfl
  | cons a rest ih => exact (ih _).trans (h w a)

theorem sides_wakeAll (w : World) (actors : List Actor) : (w.wakeAll actors).sides = w.sides :=
  sides_foldl sides_wake w actors

theorem sides_breakOff (w : World) (a : Actor) : (w.breakOff a).sides = w.sides := by
  unfold breakOff
  split
  · exact sides_wake _ a
  · rfl

theorem sides_emit (w : World) (e : Link.Event) : (w.emit e).sides = w.sides := by
  have hfed : (w.changeFeed e.side (·.emit e)).sides = w.sides := by
    unfold changeFeed
    split <;> rfl
  unfold emit
  dsimp only
  split
  · exact (sides_wakeAll _ _).trans hfed
  · exact hfed

/-! ### Effects -/

theorem spares_tellTransmitter (w : World) (id : ChannelId) (e : Envelope SendTask SendCaller) :
    Spares w (w.tellTransmitter id e) := by
  unfold tellTransmitter
  split
  · refine Spares.trans ?_ (.of_sides (sides_wake _ _))
    exact spares_modifyPublisher w id fun n => ⟨rfl, rfl⟩
  · exact spares_refl w

theorem spares_publisherEffect (id : ChannelId) (w : World) (e : PublisherLink.Effect) :
    Spares w (publisherEffect id w e) := by
  cases e with
  | notify e => exact .of_sides (sides_emit w e)
  | listen generation endpoints =>
    refine .of_sides ((sides_wakeAll _ _).trans ?_)
    unfold openListening
    split <;> rfl
  | listenInVain endpoints =>
    refine .of_sides ?_
    show (w.openListening id 0 endpoints).sides = w.sides
    unfold openListening
    split <;> rfl
  | transmit task => exact spares_tellTransmitter w id _
  | drain phase => exact (spares_tellTransmitter w id _).trans (.of_sides (sides_wake _ _))
  | closeTcp generation =>
    refine .of_sides ((sides_foldl sides_breakOff _ _).trans ?_)
    rw [sides_breakOff, sides_breakOff]
  | serve generation session conn peer channel =>
    refine Spares.trans ?_ (.of_sides (sides_wake _ _))
    have hnetwork : Spares w { w with network := w.network.setReader conn .callee (.actor (.session id session)) } :=
      .of_sides rfl
    refine hnetwork.trans ?_
    exact spares_modifyPublisher _ id fun n => ⟨rfl, rfl⟩
  | refuse conn => exact .of_sides (sides_wakeAll _ _)
  | warn text => exact .of_sides rfl

theorem spares_setTcp (w : World) (id : ChannelId) (side : TcpSide) : Spares w (w.setTcp id side) :=
  spares_modifySubscriber w id fun _ => ⟨rfl, rfl⟩

theorem spares_subscriberEffect (id : ChannelId) (interface : Ipv4) (w : World) (e : SubscriberLink.Effect) :
    Spares w (subscriberEffect id interface w e) := by
  cases e with
  | notify e => exact .of_sides (sides_emit w e)
  | connect generation dest => exact (spares_setTcp w id _).trans (.of_sides (sides_wake _ _))
  | openUdp generation addr channel =>
    show Spares w (w.openUdp id interface generation addr channel)
    unfold openUdp
    dsimp only
    split
    · exact .of_sides rfl
    · refine Spares.trans ?_ (.of_sides (sides_wake _ _))
      have hnetwork : Spares w { w with network := (w.network.openReceiver interface addr id generation).2 } := .of_sides rfl
      refine hnetwork.trans ?_
      exact spares_modifySubscriber _ id fun n => ⟨rfl, rfl⟩
  | openUdpInVain addr => exact .of_sides rfl
  | login generation f =>
    show Spares w (w.sendLogin id generation f)
    unfold sendLogin
    split
    · exact (spares_setTcp w id _).trans (.of_sides (sides_wake _ _))
    · exact spares_refl w
  | closeTcp generation => exact .of_sides (sides_breakOff _ _)
  | close generation =>
    refine .of_sides ?_
    show ((w.breakOff _).breakOff _).sides = w.sides
    rw [sides_breakOff, sides_breakOff]
  | deliver d => exact .of_sides rfl
  | send socket dest f =>
    refine .of_sides ?_
    show (w.sendDatagram socket dest f).sides = w.sides
    unfold sendDatagram
    dsimp only
    split <;> exact sides_wakeAll _ _
  | clearManual =>
    show Spares w (w.clearManual id)
    unfold clearManual
    split
    · exact spares_refl w
    · next node _ =>
      have hcleared : Spares w (w.setManual id node.manual.clear) := spares_modifySubscriber w id fun n => ⟨rfl, rfl⟩
      refine hcleared.trans (.of_sides ?_)
      unfold wakeCaller
      split
      · rfl
      · exact sides_wakeAll _ _
  | answer call failure => exact .of_sides (sides_wake _ _)
  | warn text => exact .of_sides rfl

theorem spares_foldl {E : Type} {effect : World → E → World} (h : ∀ w e, Spares w (effect w e)) (w : World)
    (effects : List E) : Spares w (effects.foldl effect w) := by
  induction effects generalizing w with
  | nil => exact spares_refl w
  | cons e rest ih => exact (h w e).trans (ih _)

theorem Spares.publisherNode? (h : Spares w w') {id : ChannelId} {n : PublisherNode} (hn : w.publisherNode? id = some n) :
    ∃ n', w'.publisherNode? id = some n' ∧ n'.link = n.link ∧ n'.inbox = n.inbox := by
  have hid := h.publisher id
  rw [hn, Option.map_some, Option.map_eq_some_iff] at hid
  obtain ⟨n', hn', heq⟩ := hid
  exact ⟨n', hn', (Prod.mk.inj heq).1, (Prod.mk.inj heq).2⟩

theorem Spares.subscriberNode? (h : Spares w w') {id : ChannelId} {n : SubscriberNode}
    (hn : w.subscriberNode? id = some n) :
    ∃ n', w'.subscriberNode? id = some n' ∧ n'.link = n.link ∧ n'.inbox = n.inbox := by
  have hid := h.subscriber id
  rw [hn, Option.map_some, Option.map_eq_some_iff] at hid
  obtain ⟨n', hn', heq⟩ := hid
  exact ⟨n', hn', (Prod.mk.inj heq).1, (Prod.mk.inj heq).2⟩

/-! ### The publisher's control -/

/-- The control puts its link in the place of the one there was, and its effects spare it. -/
theorem controlPublisher_node {id : ChannelId} {n : PublisherNode} (hn : w.publisherNode? id = some n) (node : PublisherNode)
    (task : PublisherLink.Task) : ∃ n', (w.controlPublisher id node task).publisherNode? id = some n' ∧
      n'.link = (node.link.onTask (w.publisherView node) task).1 ∧ n'.inbox = n.inbox := by
  unfold controlPublisher
  have hset : (w.modifyPublisherNode id fun node' =>
      { node' with link := (node.link.onTask (w.publisherView node) task).1 }).publisherNode? id =
        some { n with link := (node.link.onTask (w.publisherView node) task).1 } := by
    rw [publisherNode?_modify, if_pos rfl, hn, Option.map_some]
  exact (spares_foldl (spares_publisherEffect id) _ _).publisherNode? hset

/-- A turn of a publisher's control is a piece of work at its desk, as far as the link and its inbox are concerned. -/
theorem publisherControlTurn_works (settings : Settings) {id : ChannelId} {node : PublisherNode}
    (hnode : w.publisherNode? id = some node) (hturn : w.publisherControlTurn id = some w') :
    (PublisherNode.desk settings).Works node (w'.publisherNode? id) := by
  unfold publisherControlTurn at hturn
  rw [hnode] at hturn
  dsimp only at hturn
  have hdesk : (PublisherNode.desk settings).inbox node = node.inbox := rfl
  cases htake : node.inbox.take? with
  | none =>
    rw [htake] at hturn
    dsimp only at hturn
    split at hturn
    · obtain rfl := Option.some.inj hturn
      exact ⟨.ring w .reconnectDue rfl, controlPublisher_node hnode node .reconnectDue⟩
    · cases hturn
  | some taken =>
    obtain ⟨e, box⟩ := taken
    rw [htake] at hturn
    have htaken : (w.modifyPublisherNode id fun n => { n with inbox := box }).publisherNode? id =
        some { node with inbox := box } := by
      rw [publisherNode?_modify, if_pos rfl, hnode, Option.map_some]
    refine ⟨.take w, ?_⟩
    unfold Link.Desk.work
    dsimp only
    rw [hdesk, htake]
    rcases e with (t | -) | _ | _
    · obtain rfl := Option.some.inj hturn
      exact controlPublisher_node htaken node t
    -- nothing but the inbox changes
    all_goals
      obtain rfl := Option.some.inj hturn
      exact ⟨_, htaken, rfl, rfl⟩

/-! ### The subscriber's control -/

theorem controlSubscriber_node {id : ChannelId} {n : SubscriberNode} (hn : w.subscriberNode? id = some n)
    (node : SubscriberNode) (task : SubscriberLink.Task) :
    ∃ n', (w.controlSubscriber id node task).subscriberNode? id = some n' ∧
      n'.link = (node.link.onTask (w.subscriberView node) task).1 ∧ n'.inbox = n.inbox := by
  unfold controlSubscriber
  have hset : (w.modifySubscriberNode id fun node' =>
      { node' with link := (node.link.onTask (w.subscriberView node) task).1 }).subscriberNode? id =
        some { n with link := (node.link.onTask (w.subscriberView node) task).1 } := by
    rw [subscriberNode?_modify, if_pos rfl, hn, Option.map_some]
  exact (spares_foldl (spares_subscriberEffect id _) _ _).subscriberNode? hset

/-- No timer of a link stands for a command. -/
theorem command?_of_mem_timers {l : SubscriberLink} {p : Instant × SubscriberLink.Task} (h : p ∈ l.timers) :
    p.2.command? = none := by
  unfold SubscriberLink.timers at h
  rcases List.mem_append.1 h with h | h
  · rcases List.mem_append.1 h with h | h
    all_goals
      obtain ⟨t, -, rfl⟩ := Option.map_eq_some_iff.1 (Option.mem_toList.1 h)
      rfl
  · obtain ⟨t, -, rfl⟩ := Option.map_eq_some_iff.1 (Option.mem_toList.1 h)
    rfl

/-- A turn of a subscriber's control is a piece of work at its desk, as far as the link and its inbox are concerned. -/
theorem subscriberControlTurn_works (settings : Settings) {id : ChannelId} {node : SubscriberNode}
    (hnode : w.subscriberNode? id = some node) (hturn : w.subscriberControlTurn id = some w') :
    (SubscriberNode.desk settings).Works node (w'.subscriberNode? id) := by
  unfold subscriberControlTurn at hturn
  rw [hnode] at hturn
  dsimp only at hturn
  have hdesk : (SubscriberNode.desk settings).inbox node = node.inbox := rfl
  cases htake : node.inbox.take? with
  | none =>
    rw [htake] at hturn
    dsimp only at hturn
    split at hturn
    · cases hturn
    unfold ringSubscriber at hturn
    split at hturn
    · next due task hdue =>
      obtain rfl := Option.some.inj hturn
      exact ⟨.ring w task (command?_of_mem_timers (List.mem_of_find?_eq_some hdue)), controlSubscriber_node hnode node task⟩
    · split at hturn
      · obtain rfl := Option.some.inj hturn
        refine ⟨.ring w .livenessTick rfl, ?_⟩
        have hrung : (w.modifySubscriberNode id fun n => { n with liveness := n.liveness.ring w.now }).subscriberNode? id =
            some { node with liveness := node.liveness.ring w.now } := by
          rw [subscriberNode?_modify, if_pos rfl, hnode, Option.map_some]
        exact controlSubscriber_node hrung node .livenessTick
      · cases hturn
  | some taken =>
    obtain ⟨e, box⟩ := taken
    rw [htake] at hturn
    have htaken : (w.modifySubscriberNode id fun n => { n with inbox := box }).subscriberNode? id =
        some { node with inbox := box } := by
      rw [subscriberNode?_modify, if_pos rfl, hnode, Option.map_some]
    refine ⟨.take w, ?_⟩
    unfold Link.Desk.work
    dsimp only
    rw [hdesk, htake]
    rcases e with (t | -) | _ | _
    · obtain rfl := Option.some.inj hturn
      exact controlSubscriber_node htaken node t
    -- nothing but the inbox changes
    all_goals
      obtain rfl := Option.some.inj hturn
      exact ⟨_, htaken, rfl, rfl⟩

end Simulation.World

open Simulation (PublisherNode SubscriberNode World)
open Link (Command)

/-! ### Both kinds of links -/

/-- **What is said to an engine gets to all its links.** There is one link for each id for which a channel was handed over,
and a visit meets all of them in the order of the bytes of their ids. A link is created with the first channel of its id. It
takes what the calls say to it in their order, whatever its control and its activities do in between, and nothing that they
say to others. The control gets through its inbox, and then the link has the last channel of its id, wants up if the engine
was started rather than stopped last, and heads for where both send it. And whenever a control takes its turn in the world,
it does a piece of such work. -/
theorem Link.commands_reach (settings : Settings) :
    ((PublisherNode.desk settings).Serves ∧ ∀ (w w' : World) id node, w.publisherNode? id = some node →
      w.publisherControlTurn id = some w' → (PublisherNode.desk settings).Works node (w'.publisherNode? id)) ∧
    (SubscriberNode.desk settings).Serves ∧ ∀ (w w' : World) id node, w.subscriberNode? id = some node →
      w.subscriberControlTurn id = some w' → (SubscriberNode.desk settings).Works node (w'.subscriberNode? id) :=
  ⟨⟨(PublisherNode.lawful_desk settings).serves, fun _ _ _ _ => World.publisherControlTurn_works settings⟩,
    (SubscriberNode.lawful_desk settings).serves, fun _ _ _ _ => World.subscriberControlTurn_works settings⟩

/-- A link that is created after the start, and does not know yet that the engine has been stopped since. -/
example :
    let channel : Channel := .new "md1" ⟨⟨10, 0, 0, 1⟩, 9000⟩ ⟨⟨239, 1, 1, 1⟩, 9000⟩ ⟨⟨10, 0, 0, 3⟩, 9000⟩
    let fleet := (PublisherNode.desk .default).fleet
    let e := fleet.run [.start, .update default channel, .work "md1" (.take default), .stop]
    (e.links.get? "md1").map (fun n => (n.link.wantsUp, (fleet.pending n).map Command.wish?)) =
      some (true, [some false]) := by
  decide +kernel

end ReliableMulticast
