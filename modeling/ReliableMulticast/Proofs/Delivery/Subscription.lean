import ReliableMulticast.Proofs.Publisher.Session
import ReliableMulticast.Proofs.Publisher.Transmitter
import ReliableMulticast.Proofs.Subscriber.Ascending

/-!
# A subscription over many connections

A `Subscription` is one link of a subscriber and what serves it: a transmitter that lives as long as the link does, and a
session for every connection that the publisher accepts. Either side may connect anew at any time.

* Any datagram that was ever sent may arrive at any time, any number of times, on whatever connection there is, or never;
* a frame that a session wrote arrives on the connection that it was written on, if at all;
* everything else that a link is told comes as it likes, except for the end of a snapshot, which only a session can say.

Main statement (`numbers_ascend`): as long as there are numbers left, the messages that are handed over have growing numbers
over all connections, the ends of snapshots never go back, and each lies beyond all messages before it.
-/

namespace ReliableMulticast

/-- The publisher's side of one connection. -/
structure Subscription.Host where
  /-- The generation of the subscriber's connection. -/
  generation : Nat
  session : Session
  /-- The transmitter's head, once the session was told. -/
  head : Option Nat
deriving DecidableEq, Repr, Inhabited

structure Subscription where
  transmission : Transmission
  hosts : List Subscription.Host
  /-- What sessions wrote, each frame with the generation of its connection. -/
  written : List (Nat × Frame)
  link : SubscriberLink
  /-- What the application was handed since the link was new, oldest first. -/
  handed : List Delivery
deriving DecidableEq, Repr, Inhabited

namespace Subscription

open SubscriberLink (Surroundings Task Follows)

inductive Event
  | transmit (now : Instant) (e : Transmitter.Event)
  /-- The publisher accepts a connection that the link has made. -/
  | accept (now : Instant) (generation : Nat) (channel : Channel) (settings : Settings) (peer : Endpoint)
  | session (place : Nat) (input : Session.Input)
  /-- The transmitter answers the session that was accepted at this place. -/
  | answer (place : Nat)
  /-- The frame that was written at this place arrives. -/
  | stream (env : Surroundings) (place : Nat)
  /-- The datagram that was sent at this place arrives on a connection, perhaps not for the first time. -/
  | datagram (env : Surroundings) (generation place : Nat)
  | task (env : Surroundings) (task : Task)

def begin (settings : Settings) (start : Instant) (channel : Channel) (settings' : Settings) : Subscription :=
  ⟨.begin settings start, [], [], (SubscriberLink.new channel settings').1, []⟩

/-- The number that the next frame gets. -/
def head (x : Subscription) : Nat := x.transmission.head

/-- A task with neither a datagram nor the end of a snapshot. -/
def isUnnumbered : Task → Bool
  | .udp .. => false
  | .tcpFrame _ f =>
    match f.message? with
    | .ok (some (.endOfSnapshot ..)) => false
    | _ => true
  | _ => true

def onTask (x : Subscription) (env : Surroundings) (task : Task) : Subscription :=
  { x with
    link := (x.link.onTask env task).1
    handed := x.handed ++ SubscriberLink.deliveries (x.link.onTask env task).2 }

/-- The session at this place goes on, with a new record of it and the frames that it wrote. -/
def goOn (x : Subscription) (place : Nat) (host : Host) (frames : List Frame) : Subscription :=
  { x with
    hosts := x.hosts.set place host
    written := x.written ++ frames.map (host.generation, ·) }

def step (x : Subscription) : Event → Subscription
  | .transmit now e => { x with transmission := x.transmission.step now e }
  | .accept now generation channel settings peer =>
    if generation ≤ x.link.generation then
      { x with hosts := x.hosts ++ [⟨generation, .start channel settings peer now, none⟩] }
    else x
  | .session place input =>
    match x.hosts[place]? with
    | none => x
    | some host =>
      let (session, outputs) := host.session.onInput host.head input
      x.goOn place { host with session := session } (Session.frames outputs)
  | .answer place =>
    match x.hosts[place]? with
    | none => x
    | some host =>
      -- the question comes after the login, and before the snapshot
      if host.session.stage = .head then x.goOn place { host with head := some x.head } []
      else x
  | .stream env place =>
    match x.written[place]? with
    | none => x
    | some (generation, f) => x.onTask env (.tcpFrame generation f)
  | .datagram env generation place =>
    match x.transmission.arriving? place with
    | none => x
    | some f => x.onTask env (.udp generation f)
  | .task env task => if isUnnumbered task then x.onTask env task else x

def run (x : Subscription) (es : List Event) : Subscription := es.foldl step x

/-! ### Where snapshots may end -/

/-- The numbers with which the snapshots of a connection may end, given its sessions and what they wrote. -/
inductive Cuts (hosts : List Host) (written : List (Nat × Frame)) : Nat → Nat → Prop
  | told {host : Host} {seq : Nat} : host ∈ hosts → host.head = some seq → Cuts hosts written host.generation seq
  | streaming {host : Host} {seq : Nat} :
    host ∈ hosts → host.session.stage = .snapshot seq → Cuts hosts written host.generation seq
  | written {generation seq : Nat} {f : Frame} :
    (generation, f) ∈ written → f.EndsAt seq → Cuts hosts written generation seq

/-! ### Both sides together -/

structure Sound (x : Subscription) : Prop where
  faithful : x.transmission.Faithful
  consistent : x.link.Consistent
  /-- Nothing is accepted before the link has made the connection. -/
  made : ∀ host ∈ x.hosts, host.generation ≤ x.link.generation
  follows : ∃ next, Follows x.head (Cuts x.hosts x.written) x.link x.handed next

variable {x : Subscription}

theorem sound_begin (settings : Settings) (start : Instant) (channel : Channel) (settings' : Settings) :
    (begin settings start channel settings').Sound where
  faithful := Transmission.faithful_begin settings start
  consistent := SubscriberLink.consistent_new channel settings'
  made := by rintro host ⟨⟩
  follows := by
    refine ⟨0, ?_, ⟨List.Pairwise.nil, by rintro d ⟨⟩⟩, Nat.zero_le _, fun c hc => ?_⟩
    · rintro g seq (⟨⟨⟩, -⟩ | ⟨⟨⟩, -⟩ | ⟨⟨⟩, -⟩)
    · rw [show (begin settings start channel settings').link.connection = none from
        SubscriberLink.new_connection channel settings'] at hc
      cases hc

/-! ### The link -/

theorem Sound.onTask (h : x.Sound) (env : Surroundings) {task : Task}
    (ht : task.Lawful x.head (Cuts x.hosts x.written)) : (x.onTask env task).Sound where
  faithful := h.faithful
  consistent := (SubscriberLink.settles_onTask h.consistent env task).consistent
  made := by
    intro host hhost
    have hgrown := (SubscriberLink.settles_onTask h.consistent env task).moves.generation_le
    exact Nat.le_trans (h.made host hhost) hgrown
  follows := by
    obtain ⟨next, hfollows⟩ := h.follows
    exact hfollows.onTask h.consistent env ht

theorem lawful_datagram (h : x.Sound) {place : Nat} {f : Frame} (hf : x.transmission.arriving? place = some f)
    (generation : Nat) : Task.Lawful x.head (Cuts x.hosts x.written) (.udp generation f) where
  frame := by
    intro g f' hmakes hdata
    cases hmakes
    exact h.faithful.seq_lt_of_arriving hf hdata
  cut := by
    intro g seq hmakes
    cases hmakes

theorem lawful_stream {generation : Nat} {f : Frame} (hf : (generation, f) ∈ x.written) :
    Task.Lawful x.head (Cuts x.hosts x.written) (.tcpFrame generation f) where
  frame := by
    intro g f' hmakes
    cases hmakes
  cut := by
    intro g seq hmakes
    cases hmakes with
    | endOfSnapshot _ _ id n hm => exact .written hf ⟨id, n, true, hm, rfl⟩

theorem lawful_unnumbered {task : Task} (h : isUnnumbered task = true) :
    task.Lawful x.head (Cuts x.hosts x.written) where
  frame := by
    intro g f hmakes
    cases hmakes
    cases h
  cut := by
    intro g seq hmakes
    cases hmakes with
    | endOfSnapshot _ f id n hm => simp [isUnnumbered, hm] at h

/-! ### The sessions -/

/-- Where snapshots may end once a session has gone on. -/
theorem cuts_goOn {place : Nat} {host' : Host} {frames : List Frame} {g seq : Nat}
    (hcut : Cuts (x.goOn place host' frames).hosts (x.goOn place host' frames).written g seq) :
    Cuts x.hosts x.written g seq ∨ g = host'.generation ∧
      (host'.head = some seq ∨ host'.session.stage = .snapshot seq ∨ ∃ f ∈ frames, f.EndsAt seq) := by
  cases hcut with
  | told hmem htold =>
    rcases List.mem_or_eq_of_mem_set hmem with hold | rfl
    · exact Or.inl (.told hold htold)
    · exact Or.inr ⟨rfl, Or.inl htold⟩
  | streaming hmem hstage =>
    rcases List.mem_or_eq_of_mem_set hmem with hold | rfl
    · exact Or.inl (.streaming hold hstage)
    · exact Or.inr ⟨rfl, Or.inr (Or.inl hstage)⟩
  | written hmem hends =>
    rcases List.mem_append.1 hmem with hold | hmem
    · exact Or.inl (.written hold hends)
    · obtain ⟨f, hf, heq⟩ := List.mem_map.1 hmem
      cases heq
      exact Or.inr ⟨rfl, Or.inr (Or.inr ⟨_, hf, hends⟩)⟩

/-- A session goes on, and a snapshot can end only where it could before, or at the head. -/
theorem Sound.goOn (h : x.Sound) {place : Nat} {host host' : Host} {frames : List Frame}
    (hhost : x.hosts[place]? = some host) (hgeneration : host'.generation = host.generation)
    (hcuts : ∀ seq, (host'.head = some seq ∨ host'.session.stage = .snapshot seq ∨ ∃ f ∈ frames, f.EndsAt seq) →
      Cuts x.hosts x.written host.generation seq ∨ seq = x.head) : (x.goOn place host' frames).Sound where
  faithful := h.faithful
  consistent := h.consistent
  made := by
    intro host₁ hhost₁
    rcases List.mem_or_eq_of_mem_set hhost₁ with hold | rfl
    · exact h.made host₁ hold
    · rw [hgeneration]
      exact h.made host (List.mem_of_getElem? hhost)
  follows := by
    obtain ⟨next, hfollows⟩ := h.follows
    have hmade : host.generation ≤ x.link.generation := h.made host (List.mem_of_getElem? hhost)
    refine ⟨next, hfollows.mono (Nat.le_refl _) (fun g seq hcut => ?_)⟩
    rcases cuts_goOn hcut with hold | ⟨rfl, hseq⟩
    · exact Or.inl hold
    · rw [hgeneration]
      rcases hcuts seq hseq with hcut | rfl
      · exact Or.inl hcut
      · exact Or.inr ⟨hmade, Nat.le_refl _, Nat.le_refl _⟩

/-- A session says no number but the one that it was told. -/
theorem cuts_session (h : x.Sound) (hb : x.head < 2 ^ 64) {host : Host} (hmem : host ∈ x.hosts) (input : Session.Input)
    {seq : Nat} (hseq : host.head = some seq ∨ (host.session.onInput host.head input).1.stage = .snapshot seq ∨
      ∃ f ∈ Session.frames (host.session.onInput host.head input).2, f.EndsAt seq) :
    Cuts x.hosts x.written host.generation seq := by
  have hends := Session.ends_onInput host.session host.head input
  rcases hseq with htold | hstage | ⟨f, hf, hn⟩
  · exact .told hmem htold
  · rcases hends.stage seq hstage with hstage | htold
    · exact .streaming hmem hstage
    · exact .told hmem htold
  · obtain ⟨seq', hstage, rfl⟩ := hends.written f hf seq hn
    have hcut : Cuts x.hosts x.written host.generation seq' := .streaming hmem hstage
    obtain ⟨next, hfollows⟩ := h.follows
    have hle : seq' ≤ x.head := (hfollows.cut _ _ hcut).2
    rwa [Nat.mod_eq_of_lt (by omega)]

theorem sound_session (h : x.Sound) (hb : x.head < 2 ^ 64) {place : Nat} {host : Host}
    (hhost : x.hosts[place]? = some host) (input : Session.Input) :
    (x.goOn place { host with session := (host.session.onInput host.head input).1 }
      (Session.frames (host.session.onInput host.head input).2)).Sound :=
  h.goOn hhost rfl (fun _ hseq => Or.inl (cuts_session h hb (List.mem_of_getElem? hhost) input hseq))

/-- Where snapshots may end once a session was accepted. -/
theorem cuts_accept {host : Host} (hhead : host.head = none) (hstage : ∀ seq, host.session.stage ≠ .snapshot seq)
    {g seq : Nat} (hcut : Cuts (x.hosts ++ [host]) x.written g seq) : Cuts x.hosts x.written g seq := by
  cases hcut with
  | told hmem htold =>
    rcases List.mem_append.1 hmem with hold | hnew
    · exact .told hold htold
    · rw [List.mem_singleton.1 hnew, hhead] at htold
      cases htold
  | streaming hmem hstreaming =>
    rcases List.mem_append.1 hmem with hold | hnew
    · exact .streaming hold hstreaming
    · rw [List.mem_singleton.1 hnew] at hstreaming
      exact absurd hstreaming (hstage seq)
  | written hmem hends => exact .written hmem hends

theorem Sound.accept (h : x.Sound) {host : Host} (hmade : host.generation ≤ x.link.generation)
    (hhead : host.head = none) (hstage : ∀ seq, host.session.stage ≠ .snapshot seq) :
    Sound { x with hosts := x.hosts ++ [host] } where
  faithful := h.faithful
  consistent := h.consistent
  made := by
    intro host₁ hhost₁
    rcases List.mem_append.1 hhost₁ with hold | hnew
    · exact h.made host₁ hold
    · rw [List.mem_singleton.1 hnew]
      exact hmade
  follows := by
    obtain ⟨next, hfollows⟩ := h.follows
    exact ⟨next, hfollows.mono (Nat.le_refl _) (fun g seq hcut => Or.inl (cuts_accept hhead hstage hcut))⟩

/-! ### Steps and runs -/

/-- A snapshot can end only where it could before, or at the head, if a session has asked for it. -/
theorem cuts_step (h : x.Sound) (hb : x.head < 2 ^ 64) {e : Event} {g seq : Nat}
    (hcut : Cuts (x.step e).hosts (x.step e).written g seq) :
    Cuts x.hosts x.written g seq ∨
      seq = x.head ∧ ∃ host ∈ x.hosts, host.generation = g ∧ host.session.stage = .head := by
  cases e with
  | transmit now e => exact Or.inl hcut
  | accept now generation channel settings peer =>
    simp only [Subscription.step] at hcut
    split at hcut
    · exact Or.inl (cuts_accept rfl (by rintro seq ⟨⟩) hcut)
    · exact Or.inl hcut
  | session place input =>
    simp only [Subscription.step] at hcut
    split at hcut
    · exact Or.inl hcut
    · next host hhost =>
      rcases cuts_goOn hcut with hold | ⟨rfl, hseq⟩
      · exact Or.inl hold
      · exact Or.inl (cuts_session h hb (List.mem_of_getElem? hhost) input hseq)
  | answer place =>
    simp only [Subscription.step] at hcut
    split at hcut
    · exact Or.inl hcut
    · next host hhost =>
      have hmem : host ∈ x.hosts := List.mem_of_getElem? hhost
      split at hcut
      · next hasking =>
        rcases cuts_goOn hcut with hold | ⟨rfl, htold | hstage | ⟨f, ⟨⟩, -⟩⟩
        · exact Or.inl hold
        · exact Or.inr ⟨(Option.some.inj htold).symm, host, hmem, rfl, hasking⟩
        · have hold : Cuts x.hosts x.written host.generation seq := .streaming hmem hstage
          exact Or.inl hold
      · exact Or.inl hcut
  | stream env place =>
    simp only [Subscription.step] at hcut
    split at hcut
    · exact Or.inl hcut
    · exact Or.inl hcut
  | datagram env generation place =>
    simp only [Subscription.step] at hcut
    split at hcut
    · exact Or.inl hcut
    · exact Or.inl hcut
  | task env task =>
    simp only [Subscription.step] at hcut
    split at hcut
    · exact Or.inl hcut
    · exact Or.inl hcut

/-- Nothing but its own events moves the transmitter. -/
theorem transmission_step (x : Subscription) (e : Event) :
    (x.step e).transmission = x.transmission ∨ ∃ now e', (x.step e).transmission = x.transmission.step now e' := by
  cases e with
  | transmit now e => exact Or.inr ⟨now, e, rfl⟩
  | _ =>
    refine Or.inl ?_
    simp only [step]
    repeat' split
    all_goals rfl

theorem head_le_run (h : x.transmission.Faithful) (es : List Event) : x.head ≤ (x.run es).head := by
  induction es generalizing x with
  | nil => exact Nat.le_refl _
  | cons e rest ih =>
    have hstep : (x.step e).transmission.Faithful ∧ x.head ≤ (x.step e).head := by
      unfold head
      rcases transmission_step x e with heq | ⟨now, e', heq⟩
      · rw [heq]
        exact ⟨h, Nat.le_refl _⟩
      · rw [heq]
        exact ⟨h.step now e', h.head_le_step now e'⟩
    exact Nat.le_trans hstep.2 (ih hstep.1)

theorem Sound.step (h : x.Sound) (hb : x.head < 2 ^ 64) (e : Event) : (x.step e).Sound := by
  cases e with
  | transmit now e =>
    obtain ⟨next, hfollows⟩ := h.follows
    refine ⟨h.faithful.step now e, h.consistent, h.made, next, ?_⟩
    exact hfollows.mono (h.faithful.head_le_step now e) (fun g seq hcut => Or.inl hcut)
  | accept now generation channel settings peer =>
    simp only [Subscription.step]
    split
    · next hmade => exact h.accept hmade rfl (by rintro seq ⟨⟩)
    · exact h
  | session place input =>
    simp only [Subscription.step]
    split
    · exact h
    · next host hhost => exact sound_session h hb hhost input
  | answer place =>
    simp only [Subscription.step]
    split
    · exact h
    · next host hhost =>
      split
      · have hmem : host ∈ x.hosts := List.mem_of_getElem? hhost
        refine h.goOn hhost rfl (fun seq hseq => ?_)
        rcases hseq with htold | hstage | ⟨f, ⟨⟩, -⟩
        · exact Or.inr (Option.some.inj htold).symm
        · exact Or.inl (.streaming hmem hstage)
      · exact h
  | stream env place =>
    simp only [Subscription.step]
    split
    · exact h
    · next generation f hf => exact h.onTask env (lawful_stream (List.mem_of_getElem? hf))
  | datagram env generation place =>
    simp only [Subscription.step]
    split
    · exact h
    · next f hf => exact h.onTask env (lawful_datagram h hf generation)
  | task env task =>
    simp only [Subscription.step]
    split
    · next ht => exact h.onTask env (lawful_unnumbered ht)
    · exact h

theorem Sound.run (h : x.Sound) {es : List Event} (hb : (x.run es).head < 2 ^ 64) : (x.run es).Sound := by
  induction es generalizing x with
  | nil => exact h
  | cons e rest ih =>
    have hle : x.head ≤ (x.run (e :: rest)).head := head_le_run h.faithful (e :: rest)
    exact ih (h.step (Nat.lt_of_le_of_lt hle hb) e) hb

/-- Over all connections the numbers of the messages grow, the ends of snapshots never go back, and an end of snapshot lies
beyond every message that was handed over before it. -/
theorem numbers_ascend (settings : Settings) (start : Instant) (channel : Channel) (settings' : Settings)
    (es : List Event) :
    let x := (begin settings start channel settings').run es
    x.head < 2 ^ 64 →
      (x.handed.filterMap Delivery.message?).Pairwise (·.seq < ·.seq) ∧
        (x.handed.filterMap Delivery.end?).Pairwise (· ≤ ·) ∧
          ∀ before seq after, x.handed = before ++ .endOfSnapshot seq :: after →
            ∀ f, .message f ∈ before → f.seq < seq := by
  intro x hb
  have hx : x.Sound := (sound_begin settings start channel settings').run hb
  obtain ⟨next, hfollows⟩ := hx.follows
  have hascends : Ascends x.handed next := hfollows.ascends
  refine ⟨hascends.messages, hascends.ends, fun before seq after hsplit f hf => ?_⟩
  rw [hsplit] at hascends
  exact hascends.lt_end hf

/-- Surroundings in which every data socket can be opened. -/
def allOpen : Surroundings := ⟨0, fun _ => .ok 1⟩

def channel : Channel :=
  .new "md1" ⟨⟨10, 0, 0, 1⟩, 9000⟩ ⟨⟨239, 1, 1, 1⟩, 9001⟩ ⟨⟨10, 0, 0, 3⟩, 9002⟩

def publish (b : UInt8) : Event := .transmit 1 (.task (.send (.single b)))

/-- The link comes up and logs in, and the session writes all of its frames: an acknowledgement, a snapshot of one frame,
and its end. -/
def login (generation place : Nat) : List Event :=
  [.task allOpen .up, .accept 0 generation channel .default ⟨⟨10, 0, 0, 9⟩, 40000⟩,
    .task allOpen (.tcpConnected generation ⟨⟨10, 0, 0, 1⟩, 9000⟩),
    .session place (.read none (.frame (SubscriberLink.loginFrame channel))), .answer place, .session place .head,
    .session place (.source none ⟨[.write (.single 1) 1], false, .complete, 0, []⟩)]

/-- Two connections, the second of which sees datagrams with the numbers 2 and 3 from the time of the first. -/
def twice : List Event :=
  [.transmit 0 (.task (.attach ⟨1, ⟨⟨239, 1, 1, 1⟩, 9001⟩, 2, none⟩)), publish 7] ++ login 1 0 ++
    [publish 8, publish 9, .stream allOpen 0, .datagram allOpen 1 1, .stream allOpen 1, .stream allOpen 2,
      .task allOpen .down] ++ login 2 1 ++
    [publish 4, .datagram allOpen 1 2, .datagram allOpen 2 2, .datagram allOpen 2 1, .datagram allOpen 2 3,
      .stream allOpen 3, .stream allOpen 4, .stream allOpen 5, .datagram allOpen 2 2]

theorem ascend_twice :
    let x := (begin .default 0 channel .default).run twice
    x.head < 2 ^ 64 ∧ x.handed.filterMap Delivery.end? = [2, 4] ∧
      (x.handed.filterMap Delivery.message?).map (·.body) = [[8], [4]] ∧
        (x.handed.filterMap Delivery.message?).Pairwise (·.seq < ·.seq) := by
  intro x
  have hb : x.head < 2 ^ 64 := by decide +kernel
  obtain ⟨hmessages, -, -⟩ := numbers_ascend .default 0 channel .default twice hb
  refine ⟨hb, ?_, ?_, hmessages⟩
  · decide +kernel
  · decide +kernel

end Subscription

end ReliableMulticast
