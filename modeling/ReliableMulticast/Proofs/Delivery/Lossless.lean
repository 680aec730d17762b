import ReliableMulticast.Proofs.Delivery.Line
import ReliableMulticast.Proofs.Publisher.Turn
import ReliableMulticast.Proofs.Sequence.History
import ReliableMulticast.Proofs.Subscriber.Heading

/-!
# Without loss, silence

What keeps a line without loss in order is that a session asks for the head only after a login was sent to it, when the
data socket was open already. So the number that it is told does not lie before the first number that is heard there
(`Tap.Fits.ahead`), and the end of the snapshot finds all that it needs in the window, however the frames of the session
and the datagrams are interleaved.

`Sound.comes` says that every call on the receiver comes in its turn. It is what both the steps of the invariant `Sound` and
the statements about the answers rest on.

Main statement (`silent`): the gap is empty after each call on a receiver, nothing is asked for, and after the end of a
snapshot the application has all messages from there up to the last one that arrived.
-/

namespace ReliableMulticast

open SubscriberLink (Surroundings Task Effect deliveries Rests Talks)
open Subscription (Cuts)

namespace Line

/-! ### Both sides together -/

/-- The data socket that was opened last, among the sessions and the link. -/
structure Tap.Fits (t : Tap) (shard : Option UInt8) (base : Subscription) (live : List Frame) (greeted : List Nat) :
    Prop where
  greeted : t.generation ∈ greeted
  shard : t.channel.shard = shard
  /-- No session ends its snapshot before the first number that is heard. -/
  ahead : ∀ seq, Cuts base.hosts base.written t.generation seq → t.since live ≤ seq
  serves : t.Serves live base.link base.handed

structure Sound (shard : Option UInt8) (x : Line) : Prop where
  base : x.base.Sound
  broadcast : x.base.transmission.Broadcast x.live shard
  obeys : ∃ given wants, x.base.link.Obeys given wants ∧ given.shard = shard
  /-- No session asks for the head before a login was sent to it. -/
  asking : ∀ host ∈ x.base.hosts, host.session.stage = .head → host.generation ∈ x.greeted
  cuts : ∀ g seq, Cuts x.base.hosts x.base.written g seq → g ∈ x.greeted
  tap : ∀ t, x.tap = some t → t.Fits shard x.base x.live x.greeted
  listens : ∀ c entry, x.base.link.connection = some c → c.receiver = some entry → ∃ t, x.tap = some t

variable {x : Line} {shard : Option UInt8} {e : Event} {env : Surroundings} {task : Task}

theorem sound_begin (settings : Settings) (start : Instant) (channel : Channel) (settings' : Settings) :
    (begin settings start channel settings').Sound channel.shard where
  base := Subscription.sound_begin settings start channel settings'
  broadcast := Transmission.broadcast_begin settings start channel.shard
  obeys := ⟨channel, false, SubscriberLink.obeys_new channel settings', rfl⟩
  asking := by rintro host ⟨⟩
  cuts := by rintro g seq (⟨⟨⟩, -⟩ | ⟨⟨⟩, -⟩ | ⟨⟨⟩, -⟩)
  tap := by rintro t ⟨⟩
  listens := by
    intro c entry hc
    rw [show (begin settings start channel settings').base.link.connection = none from
      SubscriberLink.new_connection channel settings'] at hc
    cases hc

/-! ### What the link is told -/

theorem datagram?_eq_some {t : Tap} {f : Frame} (h : x.datagram? = some (t, f)) :
    x.tap = some t ∧ x.live[t.next]? = some f ∧ ∃ c socket r, x.base.link.connection = some c ∧
      c.generation = t.generation ∧ c.receiver = some (socket, r) := by
  obtain ⟨t', ht, h⟩ := Option.bind_eq_some_iff.1 h
  obtain ⟨⟨socket, r⟩, hr, h⟩ := Option.bind_eq_some_iff.1 h
  obtain ⟨c, hcurrent, hr'⟩ := Option.bind_eq_some_iff.1 hr
  obtain ⟨f', hf, heq⟩ := Option.map_eq_some_iff.1 h
  cases heq
  obtain ⟨hc, hgeneration⟩ := SubscriberLink.current?_eq_some hcurrent
  exact ⟨ht, hf, c, socket, r, hc, hgeneration, hr'⟩

/-- Where the tasks of the link come from. -/
inductive Source (x : Line) : Event → Surroundings → Task → Prop
  | connected (env : Surroundings) {generation : Nat} (peer : Endpoint) (inFlight : Nat) :
    generation ∉ x.greeted → Source x (.connected env generation peer inFlight) env (.tcpConnected generation peer)
  | stream (env : Surroundings) (place : Nat) {generation : Nat} {f : Frame} :
    (generation, f) ∈ x.base.written → Source x (.stream env place) env (.tcpFrame generation f)
  | arrive (env : Surroundings) (sender : Endpoint) {t : Tap} {f : Frame} :
    x.datagram? = some (t, f) → Source x (.arrive env sender) env (.udp t.generation f)
  | free (env : Surroundings) {task : Task} : isFree task = true → Source x (.task env task) env task

theorem source_of_told? (h : x.Sound shard) (ht : x.told? e = some (env, task)) : x.Source e env task := by
  cases e with
  | connected env' generation peer inFlight =>
    simp only [told?] at ht
    split at ht
    · cases ht
    · next hnew =>
      cases ht
      exact .connected _ _ _ hnew
  | stream env' place =>
    obtain ⟨⟨generation, f⟩, hf, heq⟩ := Option.map_eq_some_iff.1 ht
    cases heq
    exact .stream _ _ (List.mem_of_getElem? hf)
  | arrive env' sender =>
    obtain ⟨⟨t, f⟩, hdatagram, hpass⟩ := Option.bind_eq_some_iff.1 ht
    obtain ⟨htap, hf, -⟩ := datagram?_eq_some hdatagram
    dsimp only at hpass
    rw [h.broadcast.pass (h.tap t htap).shard (List.mem_of_getElem? hf) sender] at hpass
    cases hpass
    exact .arrive _ _ hdatagram
  | task env' task' =>
    simp only [told?] at ht
    split at ht
    · next hfree =>
      cases ht
      exact .free _ hfree
    · cases ht
  | transmit now e => cases ht
  | accept now generation channel settings peer => cases ht
  | session place input => cases ht
  | answer place => cases ht

theorem Source.not_manual (h : x.Source e env task) (call : Nat) (gap : Gap) : task ≠ .manualResend call gap := by
  rintro rfl
  cases h with
  | free _ hfree => cases hfree

/-- A frame from the data socket is the next datagram. -/
theorem Source.of_udp {generation : Nat} {f : Frame} (h : x.Source e env (.udp generation f)) :
    ∃ t, x.datagram? = some (t, f) ∧ generation = t.generation := by
  cases h with
  | arrive _ sender hdatagram => exact ⟨_, hdatagram, rfl⟩
  | free _ hfree => cases hfree

/-- The link is told of no application data that was not sent, and of no end of a snapshot that no session wrote. -/
theorem Source.lawful (h : x.Source e env task) (hx : x.Sound shard) :
    task.Lawful x.base.head (Cuts x.base.hosts x.base.written) := by
  cases h with
  | connected => exact Subscription.lawful_unnumbered rfl
  | stream _ _ hf => exact Subscription.lawful_stream hf
  | @arrive _ sender t f hdatagram =>
    obtain ⟨-, hf, -⟩ := datagram?_eq_some hdatagram
    refine ⟨?_, by rintro g seq ⟨⟩⟩
    rintro g f' ⟨⟩ hdata
    have hlog : f ∈ dataOf x.live := List.mem_filter.2 ⟨List.mem_of_getElem? hf, by simp [hdata]⟩
    rw [hx.broadcast.data] at hlog
    exact hx.base.faithful.seq_lt_head hlog
  | free _ hfree =>
    refine Subscription.lawful_unnumbered ?_
    cases task with
    | tcpConnected => rfl
    | manualResend => rfl
    | _ => exact hfree

/-- The part of an event apart from the link moves no more than the data socket. -/
theorem advance_of_source (h : x.Source e env task) : x.advance e = { x with tap := x.tap.map (·.after task) } := by
  have hsame (hafter : ∀ t : Tap, t.after task = t) : x = { x with tap := x.tap.map (·.after task) } := by
    cases htap : x.tap with
    | none => rw [Option.map_none, ← htap]
    | some t => rw [Option.map_some, hafter, ← htap]
  cases h with
  | connected => exact hsame fun _ => rfl
  | stream => exact hsame fun _ => rfl
  | arrive env sender hdatagram =>
    obtain ⟨htap, -⟩ := datagram?_eq_some hdatagram
    simp only [advance, hdatagram, htap]
    rfl
  | free env hfree =>
    refine hsame fun t => ?_
    cases task with
    | udp => cases hfree
    | _ => rfl

/-- What may be asked of the receiver comes in its turn. -/
theorem Sound.comes (h : x.Sound shard) (hb : x.base.head < 2 ^ 64) (hsource : x.Source e env task)
    {c : SubscriberLink.Connection} {socket : SocketId} {r : Receiver} {call : Receiver.Call}
    (hc : x.base.link.connection = some c) (hr : c.receiver = some (socket, r)) (hmakes : task.Makes c.generation call)
    (htcp : SubscriberLink.onTcp call = true → c.tcpState = .receiving) :
    ∃ t cut, x.tap = some t ∧ (t.after task).next ≤ x.live.length ∧
      Receiver.Told (t.since x.live) (t.heard x.live) cut (x.base.handed.drop t.skipped) ∧
        r.Unbroken (t.since x.live) (t.heard x.live) cut ∧ c.generation = t.generation ∧
          Receiver.Comes (t.since x.live) (t.heard x.live) cut call ((t.after task).heard x.live) := by
  obtain ⟨t, ht⟩ := h.listens c (socket, r) hc hr
  obtain ⟨-, -, hahead, hserves⟩ := h.tap t ht
  obtain ⟨cut, htold, hreceiver⟩ := hserves.course
  obtain ⟨hgeneration, hunbroken⟩ := hreceiver c socket r hc hr
  -- before the end of the snapshot the receiver waits
  have hwaits (hcall : SubscriberLink.onTcp call = true) : cut = none := by
    have hqueuing : r.queue.queuing = true :=
      (h.base.consistent.sound.window c hc).queuing hr (by simp [htcp hcall])
    cases cut with
    | none => rfl
    | some seq =>
      obtain ⟨-, hthrough⟩ := hunbroken.window
      rw [hthrough.live] at hqueuing
      cases hqueuing
  have hlawful := hsource.lawful h
  suffices hcomes : (t.after task).next ≤ x.live.length ∧
      Receiver.Comes (t.since x.live) (t.heard x.live) cut call ((t.after task).heard x.live) from
    ⟨t, cut, ht, hcomes.1, htold, hunbroken, hgeneration, hcomes.2⟩
  cases hmakes with
  | frame g f =>
    obtain ⟨t', hdatagram, -⟩ := hsource.of_udp
    obtain ⟨ht', hf, -⟩ := datagram?_eq_some hdatagram
    obtain rfl : t = t' := Option.some.inj (ht.symm.trans ht')
    have hlt : t.next < x.live.length := (List.getElem?_eq_some_iff.1 hf).1
    have hseq : f.seq = t.since x.live + (t.heard x.live).length := by
      rw [h.broadcast.seq_of_getElem? h.base.faithful hb hf, Tap.nextOf_take hserves.first_le]
    refine ⟨hlt, ?_⟩
    rw [Tap.heard_after hserves.first_le hf]
    cases hcontrol : f.isControl with
    | true =>
      rw [dataOf_of_control hcontrol, List.append_nil]
      exact .control hcontrol hseq
    | false =>
      have hless : f.seq < x.base.head := hlawful.frame _ f (.frame _ f) hcontrol
      rw [dataOf_of_data hcontrol]
      refine .data hcontrol hseq ?_
      unfold Arrivals.maxSeq
      omega
  | snapshotFrame g f => exact ⟨hserves.next_le, .snapshotFrame f (hwaits rfl)⟩
  | endOfSnapshot g f id seq hf =>
    have hcut := hlawful.cut _ _ (.endOfSnapshot _ f id seq hf)
    rw [hgeneration] at hcut
    exact ⟨hserves.next_le, .endOfSnapshot (hwaits rfl) (hahead _ hcut)⟩
  | requestTimer => exact ⟨hserves.next_le, .requestTimer⟩
  | livenessTick => exact ⟨hserves.next_le, .livenessTick⟩

/-! ### Steps of the link -/

theorem shard_of_source (h : x.Source e env task) (he : e.Keeps shard) {given : Channel} (hgiven : given.shard = shard) :
    (task.channel?.getD given).shard = shard := by
  cases h with
  | connected => exact hgiven
  | stream => exact hgiven
  | arrive => exact hgiven
  | free =>
    cases task with
    | update channel => exact he
    | _ => exact hgiven

theorem step_of_told (h : x.Sound shard) (ht : x.told? e = some (env, task)) :
    x.step e = tell { x with tap := x.tap.map (·.after task) } env task e.inFlight := by
  unfold step
  rw [ht, ← advance_of_source (source_of_told? h ht)]

/-- A task that neither opens a data socket nor logs in. -/
theorem step_of_still (h : x.Sound shard) (ht : x.told? e = some (env, task))
    (hstill : ∀ e ∈ (x.base.link.onTask env task).2, e.login? = none ∧ e.opens? = none) :
    x.step e = ⟨x.base.onTask env task, x.live, x.greeted, x.tap.map (·.after task)⟩ := by
  have hlogins : (x.base.link.onTask env task).2.filterMap Effect.login? = [] :=
    List.filterMap_eq_nil_iff.2 fun e he => (hstill e he).1
  have hopens : (x.base.link.onTask env task).2.findSome? Effect.opens? = none :=
    List.findSome?_eq_none_iff.2 fun e he => (hstill e he).2
  rw [step_of_told h ht]
  unfold tell
  simp only [hlogins, hopens, List.append_nil, Option.map_none, Option.none_or]

theorem still_of_idle {effect : Effect} (h : ¬ effect.Busy) : effect.login? = none ∧ effect.opens? = none := by
  cases effect with
  | openUdp generation addr channel => exact absurd (.openUdp generation addr channel) h
  | login generation f => exact absurd (.login generation f) h
  | _ => exact ⟨rfl, rfl⟩

theorem still_of_talks {now : Instant} {l : SubscriberLink} {p : SubscriberLink × List Effect}
    {c : SubscriberLink.Connection} {socket : SocketId} {r : Receiver} {call : Receiver.Call}
    (h : Talks now task l p c socket r call) : ∀ e ∈ p.2, e.login? = none ∧ e.opens? = none := by
  obtain ⟨more, heffects, hmore⟩ := h.effects
  intro e he
  rw [heffects] at he
  rcases List.mem_append.1 he with he | he
  · obtain ⟨output, -, rfl⟩ := List.mem_map.1 he
    cases output <;> exact ⟨rfl, rfl⟩
  · exact still_of_idle (hmore e he)

/-- The link goes on, and the last data socket serves it. -/
theorem Sound.onTask (h : x.Sound shard) (hsource : x.Source e env task) (he : e.Keeps shard) {tap : Option Tap}
    {greeted : List Nat} (hgreeted : x.greeted ⊆ greeted)
    (htap : ∀ t, tap = some t → t.Fits shard (x.base.onTask env task) x.live greeted)
    (hlistens : ∀ c entry, (x.base.onTask env task).link.connection = some c → c.receiver = some entry →
      ∃ t, tap = some t) :
    Sound shard ⟨x.base.onTask env task, x.live, greeted, tap⟩ where
  base := h.base.onTask env (hsource.lawful h)
  broadcast := h.broadcast
  obeys := by
    obtain ⟨given, wants, hobeys, hgiven⟩ := h.obeys
    exact ⟨_, _, hobeys.onTask env task, shard_of_source hsource he hgiven⟩
  asking := fun host hhost hasking => hgreeted (h.asking host hhost hasking)
  cuts := fun g seq hcut => hgreeted (h.cuts g seq hcut)
  tap := htap
  listens := hlistens

theorem Sound.rests (h : x.Sound shard) (ht : x.told? e = some (env, task)) (he : e.Keeps shard)
    (hafter : ∀ t : Tap, t.after task = t) (hrests : Rests x.base.link (x.base.link.onTask env task)) :
    (x.step e).Sound shard := by
  rw [step_of_still h ht fun effect heffect => still_of_idle (hrests.idle effect heffect)]
  refine h.onTask (source_of_told? h ht) he (fun _ => id) ?_ ?_
  · intro t' ht'
    obtain ⟨t, htap, rfl⟩ := Option.map_eq_some_iff.1 ht'
    rw [hafter t]
    obtain ⟨hgreeted, hshard, hahead, hserves⟩ := h.tap t htap
    exact ⟨hgreeted, hshard, hahead, hserves.rests hrests⟩
  · intro c' entry hc' hentry
    obtain ⟨c, hc, -, hentry⟩ := hrests.kept c' entry hc' hentry
    obtain ⟨t, htap⟩ := h.listens c entry hc hentry
    exact ⟨_, by rw [htap]; rfl⟩

theorem Sound.talks (h : x.Sound shard) (hb : x.base.head < 2 ^ 64) (ht : x.told? e = some (env, task))
    (he : e.Keeps shard) {c : SubscriberLink.Connection} {socket : SocketId} {r : Receiver} {call : Receiver.Call}
    (htalks : Talks env.now task x.base.link (x.base.link.onTask env task) c socket r call) :
    (x.step e).Sound shard := by
  obtain ⟨t, cut, htap, hle, htold, hunbroken, hgeneration, hcomes⟩ :=
    h.comes hb (source_of_told? h ht) htalks.connection htalks.receiver htalks.makes htalks.tcp
  obtain ⟨hgreeted, hshard, hahead, hserves⟩ := h.tap t htap
  rw [step_of_still h ht (still_of_talks htalks), htap]
  refine h.onTask (source_of_told? h ht) he (fun _ => id) ?_ (fun _ _ _ _ => ⟨_, rfl⟩)
  rintro t' ⟨⟩
  have hserves' := hserves.talks htalks hle htold hunbroken hgeneration hcomes
  refine ⟨?_, ?_, ?_, hserves'⟩
  · rwa [Tap.generation_after]
  · rwa [Tap.channel_after]
  · rw [Tap.generation_after, Tap.since_after]
    exact hahead

/-- The data socket is opened, and the login goes out behind that. -/
theorem Sound.opens (h : x.Sound shard) (ht : x.told? e = some (env, task)) (he : e.Keeps shard) {generation : Nat}
    {peer : Endpoint} {c : SubscriberLink.Connection} {socket : SocketId} (htask : task = .tcpConnected generation peer)
    (hgeneration : c.generation = generation)
    (heq : x.base.link.onTask env task = ({ x.base.link with
      connection := some
        { c with peer := some peer, receiver := some (socket, .new x.base.link.settings c.endpoints.resend) } },
      [.openUdp generation c.endpoints.udp x.base.link.channel,
        .login generation (SubscriberLink.loginFrame x.base.link.channel)])) : (x.step e).Sound shard := by
  have hsource := source_of_told? h ht
  have hfresh : generation ∉ x.greeted := by
    subst htask
    cases hsource with
    | connected _ _ _ hnew => exact hnew
    | free _ hfree => cases hfree
  have hshard : x.base.link.channel.shard = shard := by
    obtain ⟨given, wants, hobeys, hgiven⟩ := h.obeys
    rw [hobeys.channel, hgiven]
  set place := x.live.length - e.inFlight with hplace
  have hstep : x.step e = ⟨x.base.onTask env task, x.live, x.greeted ++ [generation],
      some ⟨generation, x.base.link.channel, place, place, x.base.handed.length⟩⟩ := by
    rw [step_of_told h ht]
    unfold tell
    simp only [heq]
    rfl
  rw [hstep]
  refine h.onTask hsource he (List.subset_append_left _ _) ?_ (fun _ _ _ _ => ⟨_, rfl⟩)
  rintro t ⟨⟩
  refine ⟨List.mem_append_right _ List.mem_cons_self, hshard, fun seq hcut => absurd (h.cuts _ _ hcut) hfresh, ?_⟩
  have hhanded : (x.base.onTask env task).handed = x.base.handed := by
    show x.base.handed ++ deliveries (x.base.link.onTask env task).2 = _
    rw [heq]
    exact List.append_nil _
  rw [hhanded]
  refine Tap.serves_fresh generation x.base.link.channel (Nat.sub_le _ _) fun c' socket' r' hc' hr' => ?_
  have hc' : (x.base.link.onTask env task).1.connection = some c' := hc'
  rw [heq] at hc'
  cases hc'
  cases hr'
  exact ⟨hgeneration, _, _, rfl⟩

theorem Sound.told (h : x.Sound shard) (hb : x.base.head < 2 ^ 64) (he : e.Keeps shard)
    (ht : x.told? e = some (env, task)) : (x.step e).Sound shard := by
  have hsource := source_of_told? h ht
  by_cases hudp : ∃ generation f, task = .udp generation f
  · obtain ⟨generation, f, rfl⟩ := hudp
    obtain ⟨t, hdatagram, rfl⟩ := hsource.of_udp
    obtain ⟨-, -, c, socket, r, hc, hgeneration, hr⟩ := datagram?_eq_some hdatagram
    rw [← hgeneration] at ht
    exact h.talks hb ht he (x.base.link.talks_onUdp env hc hr f)
  · have hafter : ∀ t : Tap, t.after task = t := by
      intro t
      cases task with
      | udp generation f => exact absurd ⟨generation, f, rfl⟩ hudp
      | _ => rfl
    cases x.base.link.outcome_onTask env hsource.not_manual with
    | rests hrests => exact h.rests ht he hafter hrests
    | talks c socket r call htalks => exact h.talks hb ht he htalks
    | opens generation peer c socket htask hc hgeneration heq => exact h.opens ht he htask hgeneration heq

/-! ### Other steps -/

theorem since_le_head (h : x.Sound shard) (t : Tap) : t.since x.live ≤ x.base.head := by
  have hsplit := nextOf_append (x.live.take t.first) (x.live.drop t.first)
  rw [List.take_append_drop, h.broadcast.nextOf_eq_head h.base.faithful] at hsplit
  show nextOf (x.live.take t.first) ≤ x.base.transmission.head
  omega

/-- What the publisher does with its sessions. -/
def OfHosts : Subscription.Event → Prop
  | .accept .. => True
  | .session .. => True
  | .answer _ => True
  | _ => False

/-- It leaves the transmitter and the subscriber alone. -/
theorem eq_of_ofHosts (x : Subscription) {e : Subscription.Event} (he : OfHosts e) :
    (x.step e).transmission = x.transmission ∧ (x.step e).link = x.link ∧ (x.step e).handed = x.handed := by
  cases e with
  | accept now generation channel settings peer =>
    simp only [Subscription.step]
    split <;> exact ⟨rfl, rfl, rfl⟩
  | session place input =>
    simp only [Subscription.step]
    split <;> exact ⟨rfl, rfl, rfl⟩
  | answer place =>
    simp only [Subscription.step]
    split
    · exact ⟨rfl, rfl, rfl⟩
    · split <;> exact ⟨rfl, rfl, rfl⟩
  | _ => exact he.elim

/-- Nothing but a frame makes a session ask for the head. -/
theorem asking_step {x : Subscription} {e : Subscription.Event} (he : OfHosts e) {host' : Subscription.Host}
    (hhost' : host' ∈ (x.step e).hosts) (hasking : host'.session.stage = .head) :
    (∃ host ∈ x.hosts, host.generation = host'.generation ∧ host.session.stage = .head) ∨
      ∃ place broken f host, e = .session place (.read broken (.frame f)) ∧ x.hosts[place]? = some host ∧
        host.generation = host'.generation := by
  cases e with
  | accept now generation channel settings peer =>
    simp only [Subscription.step] at hhost'
    split at hhost'
    · rcases List.mem_append.1 hhost' with hold | hnew
      · exact Or.inl ⟨host', hold, rfl, hasking⟩
      · rw [List.mem_singleton.1 hnew] at hasking
        cases hasking
    · exact Or.inl ⟨host', hhost', rfl, hasking⟩
  | session place input =>
    simp only [Subscription.step] at hhost'
    split at hhost'
    · exact Or.inl ⟨host', hhost', rfl, hasking⟩
    · next host hhost =>
      rcases List.mem_or_eq_of_mem_set hhost' with hold | rfl
      · exact Or.inl ⟨host', hold, rfl, hasking⟩
      · rcases Session.asking_of_onInput hasking with hold | ⟨broken, f, rfl⟩
        · exact Or.inl ⟨host, List.mem_of_getElem? hhost, rfl, hold⟩
        · exact Or.inr ⟨place, broken, f, host, rfl, hhost, rfl⟩
  | answer place =>
    simp only [Subscription.step] at hhost'
    split at hhost'
    · exact Or.inl ⟨host', hhost', rfl, hasking⟩
    · next host hhost =>
      split at hhost'
      · next hstage =>
        rcases List.mem_or_eq_of_mem_set hhost' with hold | rfl
        · exact Or.inl ⟨host', hold, rfl, hasking⟩
        · exact Or.inl ⟨host, List.mem_of_getElem? hhost, rfl, hstage⟩
      · exact Or.inl ⟨host', hhost', rfl, hasking⟩
  | _ => exact he.elim

theorem Sound.ofHosts (h : x.Sound shard) (hb : x.base.head < 2 ^ 64) {e : Subscription.Event} (he : OfHosts e)
    (hhears : ∀ place broken f, e = .session place (.read broken (.frame f)) →
      x.hears place (.read broken (.frame f)) = true) : Sound shard { x with base := x.base.step e } := by
  obtain ⟨htransmission, hlink, hhanded⟩ := eq_of_ofHosts x.base he
  refine ⟨h.base.step hb e, ?_, ?_, ?_, ?_, ?_, ?_⟩
  · rw [htransmission]
    exact h.broadcast
  · rw [hlink]
    exact h.obeys
  · intro host' hhost' hasking
    rcases asking_step he hhost' hasking with ⟨host, hhost, hgeneration, hstage⟩ |
      ⟨place, broken, f, host, rfl, hhost, hgeneration⟩
    · rw [← hgeneration]
      exact h.asking host hhost hstage
    · have hgreeted := hhears place broken f rfl
      unfold hears at hgreeted
      rw [hhost] at hgreeted
      rw [← hgeneration]
      simpa using hgreeted
  · intro g seq hcut
    rcases Subscription.cuts_step h.base hb hcut with hold | ⟨-, host, hhost, rfl, hasking⟩
    · exact h.cuts g seq hold
    · exact h.asking host hhost hasking
  · intro t ht
    obtain ⟨hgreeted, hshard, hahead, hserves⟩ := h.tap t ht
    refine ⟨hgreeted, hshard, fun seq hcut => ?_, ?_⟩
    · rcases Subscription.cuts_step h.base hb hcut with hold | ⟨rfl, -⟩
      · exact hahead seq hold
      · exact since_le_head h t
    · rw [hlink, hhanded]
      exact hserves
  · rw [hlink]
    exact h.listens

theorem Sound.transmit (h : x.Sound shard) (hb : x.base.head < 2 ^ 64) (now : Instant) {e : Transmitter.Event}
    (he : e.Keeps shard) : (x.advance (.transmit now e)).Sound shard where
  base := h.base.step hb (.transmit now e)
  broadcast := h.broadcast.step h.base.faithful now he
  obeys := h.obeys
  asking := h.asking
  cuts := h.cuts
  tap := by
    intro t ht
    obtain ⟨hgreeted, hshard, hahead, hserves⟩ := h.tap t ht
    refine ⟨hgreeted, hshard, fun seq hcut => ?_, hserves.grow _⟩
    show t.since (x.live ++ _) ≤ seq
    rw [Tap.since_append (Nat.le_trans hserves.first_le hserves.next_le)]
    exact hahead seq hcut
  listens := h.listens

theorem Sound.step (h : x.Sound shard) (hb : x.base.head < 2 ^ 64) (he : e.Keeps shard) : (x.step e).Sound shard := by
  cases ht : x.told? e with
  | some p => exact h.told hb he ht
  | none =>
    have hstep : x.step e = x.advance e := by
      unfold Line.step
      rw [ht]
    rw [hstep]
    cases e with
    | transmit now e => exact h.transmit hb now he
    | accept now generation channel settings peer => exact h.ofHosts hb trivial (by rintro place broken f ⟨⟩)
    | session place input =>
      unfold advance
      dsimp only
      split
      · next hhears =>
        refine h.ofHosts hb trivial ?_
        rintro place' broken f ⟨⟩
        exact hhears
      · exact h
    | answer place => exact h.ofHosts hb trivial (by rintro place broken f ⟨⟩)
    | arrive env sender =>
      cases hdatagram : x.datagram? with
      | none =>
        unfold advance
        rw [hdatagram]
        exact h
      | some entry =>
        -- every datagram passes, so that the link is told of it
        obtain ⟨t, f⟩ := entry
        obtain ⟨htap, hf, -⟩ := datagram?_eq_some hdatagram
        simp [told?, hdatagram, h.broadcast.pass (h.tap t htap).shard (List.mem_of_getElem? hf)] at ht
    | connected env generation peer inFlight => exact h
    | stream env place => exact h
    | task env task => exact h

/-! ### Runs -/

theorem Sound.run (h : x.Sound shard) {es : List Event} (hes : ∀ e ∈ es, e.Keeps shard)
    (hb : (x.run es).base.head < 2 ^ 64) : (x.run es).Sound shard := by
  induction es generalizing x with
  | nil => exact h
  | cons e rest ih =>
    have hle : x.base.head ≤ (x.run (e :: rest)).base.head := head_le_run h.base.faithful (e :: rest)
    have hstep := h.step (Nat.lt_of_le_of_lt hle hb) (hes e List.mem_cons_self)
    exact ih hstep (fun e' he' => hes e' (List.mem_cons_of_mem _ he')) hb

/-! ### Silence -/

/-- The end of a snapshot is handed over when it comes. -/
theorem Sound.ends (h : x.Sound shard) {seq : Nat} (hends : x.Ends e seq) : .endOfSnapshot seq ∈ (x.step e).handed := by
  cases hends with
  | @mk env c f seq ht hc hstate hsome hf =>
    obtain ⟨⟨socket, r⟩, hr⟩ := Option.ne_none_iff_exists'.1 hsome
    have htalks := x.base.link.talks_endOfSnapshot env hc hr hstate hf
    obtain ⟨t, htap⟩ := h.listens c (socket, r) hc hr
    have hserves := (h.tap t htap).serves
    have hmem : .endOfSnapshot seq.toNat ∈ deliveries (x.base.link.onTask env (.tcpFrame c.generation f)).2 := by
      obtain ⟨more, heffects, -⟩ := htalks.effects
      rw [heffects, SubscriberLink.deliveries_append, SubscriberLink.deliveries_outputs]
      exact List.mem_append_left _ List.mem_cons_self
    rw [step_of_still h ht (still_of_talks htalks), htap]
    show _ ∈ (x.base.handed ++ _).drop t.skipped
    rw [List.drop_append_of_le_length hserves.skipped_le]
    exact List.mem_append_right _ hmem

theorem stopOf_of_numbered {l : List Frame} {since : Nat} (h : l.map (·.seq) = List.range' since l.length) {seq : Nat}
    (hle : since ≤ seq) : max seq (Arrivals.stopOf l) = max seq (since + l.length) := by
  induction l using List.reverseRecOn with
  | nil => simp [Arrivals.stopOf, hle]
  | append_singleton rest f ih =>
    rw [List.map_append, List.length_append, List.length_singleton, List.range'_concat, Nat.one_mul] at h
    obtain ⟨hrest, hf⟩ := List.append_inj h (by simp)
    have hf : f.seq = since + rest.length := List.singleton_inj.1 hf
    rw [Arrivals.stopOf_concat, ← Nat.max_assoc, ih hrest, List.length_append, List.length_singleton]
    omega

/-- Behind the end of the snapshot come the messages from there up to the last one that arrived. -/
theorem Sound.messages (h : x.Sound shard) {seq : Nat} (hseq : .endOfSnapshot seq ∈ x.handed) :
    ∃ snaps ms : List Frame, x.handed = snaps.map .snapshot ++ .endOfSnapshot seq :: ms.map .message ∧
      ms = x.received.filter (seq ≤ ·.seq) ∧ (∀ f ∈ ms, f ∈ x.base.transmission.log) ∧
        ms.map (·.seq) = List.range' seq (max seq (Arrivals.stopOf x.received) - seq) := by
  cases htap : x.tap with
  | none =>
    unfold handed at hseq
    rw [htap] at hseq
    cases hseq
  | some t =>
    obtain ⟨cut, htold, -⟩ := (h.tap t htap).serves.course
    have hhanded : x.handed = x.base.handed.drop t.skipped := by
      unfold handed
      rw [htap]
    have hreceived : x.received = t.heard x.live := by
      unfold received
      rw [htap]
    rw [hhanded] at hseq
    obtain ⟨snaps, hds, hms, hle⟩ := htold.messages hseq
    rw [hhanded, hreceived]
    refine ⟨snaps, _, hds, rfl, fun f hf => ?_, ?_⟩
    · rw [← h.broadcast.data]
      obtain ⟨hmem, hdata⟩ := List.mem_filter.1 (List.mem_filter.1 hf).1
      exact List.mem_filter.2 ⟨List.mem_of_mem_take (List.mem_of_mem_drop hmem), hdata⟩
    rw [hms, stopOf_of_numbered htold.numbered hle]
    congr 1
    omega

end Line

end ReliableMulticast
