import ReliableMulticast.Proofs.Mailbox.Queue
import ReliableMulticast.Proofs.Publisher.Transmitter
import ReliableMulticast.Proofs.Publisher.Turn
import Mathlib.Data.List.Induction

/-!
# The cut between a snapshot and the live frames

A `Publication` is a transmitter with its mailbox and the sessions that ask it for its head. Whatever is posted waits in
the mailbox; the transmitter takes it one by one, and its answer lies ready for the session until that goes on. What is
posted carries the number of the step in which it was posted, and `stamps` keeps this number beside each frame that the
transmitter numbered.

* `envelope_step`, `host_step` and `stamp_step`: all that one step can do to the mailbox, a session and the stamps;
* `Trail`: where in a run each number comes from that a session was told, streams under or wrote.

Main statement (`cut_of_written`): the number with which a session ends its snapshot is the transmitter's head at some
instant after its login was accepted and before its snapshot was started, so that the frames with smaller numbers are
those that had been sent by then, and whatever is posted after the start gets this number or a higher one.
-/

namespace ReliableMulticast

namespace Publication

/-- What the transmitter is asked to do: a task, or to tell its head. -/
inductive Task
  | transmit (t : Transmitter.Task)
  | head
deriving DecidableEq, Repr, Inhabited

structure Posted where
  /-- The number of steps before it was posted. -/
  moment : Nat
  task : Task
deriving DecidableEq, Repr, Inhabited

structure Host where
  session : Session
  /-- What the transmitter answered. -/
  answer : Option Nat
  /-- All frames that the session wrote, oldest first. -/
  written : List Frame
deriving DecidableEq, Repr, Inhabited

end Publication

/-- The callers in the mailbox are the places of their sessions. -/
structure Publication where
  transmission : Transmission
  mailbox : Mailbox Publication.Posted Nat
  hosts : List Publication.Host
  /-- The number of steps so far. -/
  moment : Nat
  /-- The frames that were numbered, each with the moment at which it was posted. -/
  stamps : List (Nat × Frame)

namespace Publication

inductive Event
  /-- The control, an application or a request for repetition posts a task. -/
  | post (t : Transmitter.Task)
  /-- Somebody waits until everything posted so far has been dealt with. -/
  | drain (caller : Nat)
  | accept (now : Instant) (channel : Channel) (settings : Settings) (peer : Endpoint)
  | session (place : Nat) (input : Session.Input)
  /-- The transmitter takes the next task. -/
  | take (now : Instant)
  | trimTick (now : Instant)
  | heartbeatTick (now : Instant) (stamp : Duration)
  /-- The transmitter ends, and what is posted is lost. -/
  | close

def begin (settings : Settings) (start : Instant) : Publication := ⟨.begin settings start, .new, [], 0, []⟩

/-- The number that the next frame gets. -/
def head (x : Publication) : Nat := x.transmission.head

/-- What a session's output posts. -/
def question? (moment place : Nat) : Session.Output → Option (Envelope Posted Nat)
  | .askHead => some (.request ⟨moment, .head⟩ place)
  | _ => none

def postAll (m : Mailbox Posted Nat) (es : List (Envelope Posted Nat)) : Mailbox Posted Nat :=
  es.foldl (fun m e => (m.post e).2) m

/-- The session at this place goes on. -/
def goOn (x : Publication) (place : Nat) (host : Host) (p : Session × List Session.Output) : Publication :=
  { x with
    hosts := x.hosts.set place { host with session := p.1, written := host.written ++ Session.frames p.2 }
    mailbox := postAll x.mailbox (p.2.filterMap (question? x.moment place)) }

/-- The head goes to the session at this place. -/
def reply (x : Publication) (place : Nat) : Publication :=
  match x.hosts[place]? with
  | none => x
  | some host => { x with hosts := x.hosts.set place { host with answer := some x.head } }

/-- The transmitter deals with what it has taken. -/
def serve (x : Publication) (now : Instant) : Mailbox.Next Posted Nat → Publication
  | .task ⟨moment, .transmit t⟩ =>
    { x with
      transmission := x.transmission.step now (.task t)
      stamps := x.stamps ++ (x.transmission.transmitter.numbered now (.task t)).map (moment, ·) }
  | .request ⟨_, .head⟩ place => x.reply place
  | _ => x

def act (x : Publication) : Event → Publication
  | .post t => { x with mailbox := (x.mailbox.run ⟨x.moment, .transmit t⟩).2 }
  | .drain caller => { x with mailbox := (x.mailbox.post (.barrier caller)).2 }
  | .accept now channel settings peer =>
    { x with hosts := x.hosts ++ [⟨.start channel settings peer now, none, []⟩] }
  | .session place input =>
    match x.hosts[place]? with
    | none => x
    | some host => x.goOn place host (host.session.onInput host.answer input)
  | .take now =>
    let (_, next, mailbox) := x.mailbox.next
    serve { x with mailbox := mailbox } now next
  | .trimTick now => { x with transmission := x.transmission.step now .trimTick }
  | .heartbeatTick now stamp => { x with transmission := x.transmission.step now (.heartbeatTick stamp) }
  | .close => { x with mailbox := x.mailbox.close.2 }

def step (x : Publication) (e : Event) : Publication := { x.act e with moment := x.moment + 1 }

def run (x : Publication) (es : List Event) : Publication := es.foldl step x

/-! ### What happens in a run -/

/-- The session at this place accepts a login. -/
def Accepts (place : Nat) (x : Publication) (e : Event) : Prop :=
  ∃ host input deadline, e = .session place input ∧ x.hosts[place]? = some host ∧
    host.session.stage = .login deadline ∧ (host.session.onInput host.answer input).1.stage = .head

/-- The session at this place starts its snapshot. -/
def Starts (place : Nat) (x : Publication) (e : Event) : Prop :=
  ∃ host input, e = .session place input ∧ x.hosts[place]? = some host ∧
    .startSnapshot ∈ (host.session.onInput host.answer input).2

/-- The step with this number, of a run from `x`, is a `P`. -/
def Happens (x : Publication) (P : Publication → Event → Prop) (es : List Event) (n : Nat) : Prop :=
  ∃ e, es[n]? = some e ∧ P (x.run (es.take n)) e

variable {x : Publication} {P : Publication → Event → Prop} {es : List Event} {n : Nat}

theorem run_concat (x : Publication) (es : List Event) (e : Event) : x.run (es ++ [e]) = (x.run es).step e := by
  unfold run
  rw [List.foldl_append]
  rfl

theorem run_take_concat {n : Nat} (h : n ≤ es.length) (e : Event) : x.run ((es ++ [e]).take n) = x.run (es.take n) := by
  rw [List.take_append_of_le_length h]

theorem Happens.lt_length (h : Happens x P es n) : n < es.length := by
  obtain ⟨e, he, -⟩ := h
  exact (List.getElem?_eq_some_iff.1 he).1

theorem happens_concat_iff (e : Event) :
    Happens x P (es ++ [e]) n ↔ Happens x P es n ∨ (n = es.length ∧ P (x.run es) e) := by
  constructor
  · rintro ⟨e', he', hP⟩
    have hlt : n < es.length + 1 := by simpa using (List.getElem?_eq_some_iff.1 he').1
    rcases Nat.lt_or_ge n es.length with hn | hn
    · rw [List.getElem?_append_left hn] at he'
      rw [run_take_concat (Nat.le_of_lt hn)] at hP
      exact Or.inl ⟨e', he', hP⟩
    · obtain rfl : n = es.length := by omega
      rw [List.getElem?_concat_length] at he'
      cases he'
      rw [List.take_left' rfl] at hP
      exact Or.inr ⟨rfl, hP⟩
  · rintro (h | ⟨rfl, hP⟩)
    · have hlt := h.lt_length
      obtain ⟨e', he', hP⟩ := h
      refine ⟨e', ?_, ?_⟩
      · rwa [List.getElem?_append_left hlt]
      · rwa [run_take_concat (Nat.le_of_lt hlt)]
    · refine ⟨e, List.getElem?_concat_length, ?_⟩
      rwa [List.take_left' rfl]

/-! ### What a step can do -/

/-- What the mailbox holds after a step was there before, or it was posted in the step. -/
inductive Brought (x : Publication) (e : Event) : Envelope Posted Nat → Prop
  | old {envelope : Envelope Posted Nat} : envelope ∈ x.mailbox.queue → Brought x e envelope
  | task (t : Transmitter.Task) : e = .post t → Brought x e (.task ⟨x.moment, .transmit t⟩)
  | mark (caller : Nat) : Brought x e (.barrier caller)
  | question (place : Nat) : Accepts place x e → Brought x e (.request ⟨x.moment, .head⟩ place)

/-- What a step makes of the session at a place. -/
inductive Change (x : Publication) (e : Event) (place : Nat) (host' : Host) : Prop
  | same : x.hosts[place]? = some host' → Change x e place host'
  | fresh (deadline : Instant) : x.hosts[place]? = none → host'.session.stage = .login deadline → host'.answer = none →
      host'.written = [] → Change x e place host'
  | turned (host : Host) (input : Session.Input) : x.hosts[place]? = some host → e = .session place input →
      host' = ⟨(host.session.onInput host.answer input).1, host.answer,
        host.written ++ Session.frames (host.session.onInput host.answer input).2⟩ → Change x e place host'
  | told (host : Host) (p : Posted) : x.hosts[place]? = some host → .request p place ∈ x.mailbox.queue →
      host' = { host with answer := some x.head } → Change x e place host'

theorem mem_postAll {m : Mailbox Posted Nat} {es : List (Envelope Posted Nat)} {envelope : Envelope Posted Nat}
    (h : envelope ∈ (postAll m es).queue) : envelope ∈ m.queue ∨ envelope ∈ es := by
  unfold postAll at h
  induction es generalizing m with
  | nil => exact Or.inl h
  | cons e rest ih =>
    rcases ih h with hpost | hrest
    · rcases Mailbox.mem_queue_post hpost with hold | rfl
      · exact Or.inl hold
      · exact Or.inr List.mem_cons_self
    · exact Or.inr (List.mem_cons_of_mem _ hrest)

theorem accepts_of_asks {place : Nat} {host : Host} {input : Session.Input} (hhost : x.hosts[place]? = some host)
    (hask : .askHead ∈ (host.session.onInput host.answer input).2) : Accepts place x (.session place input) := by
  cases Session.turn_onInput host.session host.answer input with
  | stay _ hquiet => exact (hquiet _ hask).elim
  | ended _ hquiet => exact (hquiet _ hask).elim
  | accept deadline hlogin hhead => exact ⟨host, input, deadline, rfl, hhost, hlogin, hhead⟩
  | start _ _ _ _ hnone => exact absurd hask hnone

theorem queue_reply (x : Publication) (place : Nat) : (x.reply place).mailbox = x.mailbox := by
  unfold reply
  split <;> rfl

theorem queue_serve (x : Publication) (now : Instant) (next : Mailbox.Next Posted Nat) :
    (x.serve now next).mailbox = x.mailbox := by
  unfold serve
  split
  · rfl
  · exact queue_reply x _
  · rfl

theorem envelope_step {e : Event} {envelope : Envelope Posted Nat} (h : envelope ∈ (x.step e).mailbox.queue) :
    Brought x e envelope := by
  cases e with
  | post t =>
    rcases Mailbox.mem_queue_post h with hold | rfl
    · exact .old hold
    · exact .task t rfl
  | drain caller =>
    rcases Mailbox.mem_queue_post h with hold | rfl
    · exact .old hold
    · exact .mark caller
  | session place input =>
    have h : envelope ∈ (x.act (.session place input)).mailbox.queue := h
    unfold act at h
    dsimp only at h
    split at h
    · exact .old h
    · next host hhost =>
      rcases mem_postAll h with hold | hnew
      · exact .old hold
      · obtain ⟨o, ho, hquestion⟩ := List.mem_filterMap.1 hnew
        cases o with
        | askHead =>
          cases hquestion
          exact .question place (accepts_of_asks hhost ho)
        | _ => cases hquestion
  | take now =>
    have h : envelope ∈ (serve { x with mailbox := x.mailbox.next.2.2 } now x.mailbox.next.2.1).mailbox.queue := h
    rw [queue_serve] at h
    exact .old (Mailbox.mem_queue_of_mem_next h)
  | close => cases h
  | accept now channel settings peer => exact .old h
  | trimTick now => exact .old h
  | heartbeatTick now stamp => exact .old h

theorem change_of_set {e : Event} {place place' : Nat} {host host' host'' : Host} (hhost : x.hosts[place]? = some host)
    (hchange : Change x e place host') (h : (x.hosts.set place host')[place']? = some host'') :
    Change x e place' host'' := by
  by_cases hplace : place = place'
  · subst hplace
    have hlt : place < x.hosts.length := (List.getElem?_eq_some_iff.1 hhost).1
    rw [List.getElem?_set_self hlt] at h
    cases h
    exact hchange
  · rw [List.getElem?_set_ne hplace] at h
    exact .same h

theorem host_step {e : Event} {place : Nat} {host' : Host} (h : (x.step e).hosts[place]? = some host') :
    Change x e place host' := by
  have h : (x.act e).hosts[place]? = some host' := h
  cases e with
  | session place' input =>
    unfold act at h
    dsimp only at h
    split at h
    · exact .same h
    · next host hhost => exact change_of_set hhost (.turned host input hhost rfl rfl) h
  | take now =>
    have h : (serve { x with mailbox := x.mailbox.next.2.2 } now x.mailbox.next.2.1).hosts[place]? = some host' := h
    unfold serve at h
    split at h
    · exact .same h
    · next p place' hnext =>
      have hasked := Mailbox.request_mem_of_next hnext
      unfold reply at h
      dsimp only at h
      split at h
      · exact .same h
      · next host hhost => exact change_of_set hhost (.told host _ hhost hasked rfl) h
    · exact .same h
  | accept now channel settings peer =>
    have h : (x.hosts ++ [⟨.start channel settings peer now, none, []⟩])[place]? = some host' := h
    rcases Nat.lt_or_ge place x.hosts.length with hlt | hge
    · rw [List.getElem?_append_left hlt] at h
      exact .same h
    · rw [List.getElem?_append_right hge] at h
      have hnone : x.hosts[place]? = none := List.getElem?_eq_none hge
      rcases hz : place - x.hosts.length with _ | m
      · rw [hz] at h
        cases h
        exact .fresh _ hnone rfl rfl rfl
      · rw [hz] at h
        cases h
  | post t => exact .same h
  | drain caller => exact .same h
  | trimTick now => exact .same h
  | heartbeatTick now stamp => exact .same h
  | close => exact .same h

theorem length_hosts_le_step (x : Publication) (e : Event) : x.hosts.length ≤ (x.step e).hosts.length := by
  show x.hosts.length ≤ (x.act e).hosts.length
  cases e with
  | session place input =>
    unfold act
    dsimp only
    split
    · exact Nat.le_refl _
    · simp [goOn]
  | take now =>
    unfold act
    dsimp only
    unfold serve
    split
    · exact Nat.le_refl _
    · unfold reply
      split
      · exact Nat.le_refl _
      · simp
    · exact Nat.le_refl _
  | accept now channel settings peer => simp [act]
  | post t => exact Nat.le_refl _
  | drain caller => exact Nat.le_refl _
  | trimTick now => exact Nat.le_refl _
  | heartbeatTick now stamp => exact Nat.le_refl _
  | close => exact Nat.le_refl _

/-- A step moves the transmitter by one event at most, and stamps what that event numbers with the moment of its posting. -/
inductive Drive (x x' : Publication) : Prop
  | still : x'.transmission = x.transmission → x'.stamps = x.stamps → Drive x x'
  | task (now : Instant) (p : Posted) (t : Transmitter.Task) : .task p ∈ x.mailbox.queue → p.task = .transmit t →
      x'.transmission = x.transmission.step now (.task t) →
      x'.stamps = x.stamps ++ (x.transmission.transmitter.numbered now (.task t)).map (p.moment, ·) → Drive x x'
  | tick (now : Instant) (e : Transmitter.Event) : x.transmission.transmitter.numbered now e = [] →
      x'.transmission = x.transmission.step now e → x'.stamps = x.stamps → Drive x x'

theorem drive_step (x : Publication) (e : Event) : Drive x (x.step e) := by
  cases e with
  | take now =>
    show Drive x { serve { x with mailbox := x.mailbox.next.2.2 } now x.mailbox.next.2.1 with moment := x.moment + 1 }
    unfold serve
    split
    · next moment t hnext => exact .task now _ t (Mailbox.task_mem_of_next hnext) rfl rfl rfl
    · unfold reply
      split
      · exact .still rfl rfl
      · exact .still rfl rfl
    · exact .still rfl rfl
  | session place input =>
    show Drive x { x.act (.session place input) with moment := x.moment + 1 }
    unfold act
    dsimp only
    split
    · exact .still rfl rfl
    · exact .still rfl rfl
  | trimTick now => exact .tick now _ rfl rfl rfl
  | heartbeatTick now stamp => exact .tick now _ rfl rfl rfl
  | post t => exact .still rfl rfl
  | drain caller => exact .still rfl rfl
  | accept now channel settings peer => exact .still rfl rfl
  | close => exact .still rfl rfl

/-! ### The log -/

structure Sound (x : Publication) : Prop where
  faithful : x.transmission.Faithful
  stamps : x.stamps.map Prod.snd = x.transmission.log

theorem sound_begin (settings : Settings) (start : Instant) : (begin settings start).Sound :=
  ⟨Transmission.faithful_begin settings start, rfl⟩

theorem Sound.step (h : x.Sound) (e : Event) : (x.step e).Sound := by
  cases drive_step x e with
  | still hsame hstamps => exact ⟨hsame ▸ h.faithful, by rw [hstamps, hsame, h.stamps]⟩
  | task now p t _ _ hstep hstamps =>
    refine ⟨hstep ▸ h.faithful.step now _, ?_⟩
    rw [hstamps, hstep, List.map_append, List.map_map, h.stamps]
    exact congrArg (x.transmission.log ++ ·) (List.map_id _)
  | tick now e' hnone hstep hstamps =>
    refine ⟨hstep ▸ h.faithful.step now _, ?_⟩
    rw [hstamps, hstep, h.stamps]
    simp [Transmission.step, hnone]

theorem Sound.run (h : x.Sound) (es : List Event) : (x.run es).Sound := by
  induction es generalizing x with
  | nil => exact h
  | cons e rest ih => exact ih (h.step e)

theorem stamps_prefix_step (x : Publication) (e : Event) : x.stamps <+: (x.step e).stamps := by
  cases drive_step x e with
  | still _ hstamps => exact hstamps ▸ List.prefix_rfl
  | task _ _ _ _ _ _ hstamps => exact hstamps ▸ List.prefix_append _ _
  | tick _ _ _ _ hstamps => exact hstamps ▸ List.prefix_rfl

theorem stamps_prefix_run (x : Publication) (es : List Event) : x.stamps <+: (x.run es).stamps := by
  induction es generalizing x with
  | nil => exact List.prefix_rfl
  | cons e rest ih => exact (stamps_prefix_step x e).trans (ih (x.step e))

/-- What was stamped by an instant of a run is the beginning of what was stamped by its end. -/
theorem stamps_prefix_take (x : Publication) (es : List Event) (n : Nat) :
    (x.run (es.take n)).stamps <+: (x.run es).stamps := by
  have hsplit : x.run es = (x.run (es.take n)).run (es.drop n) := by
    unfold run
    rw [← List.foldl_append, List.take_append_drop]
  rw [hsplit]
  exact stamps_prefix_run _ _

theorem Sound.head (h : x.Sound) : x.head = x.stamps.length + 1 := by
  rw [← List.length_map Prod.snd, h.stamps]
  exact h.faithful.head

/-- The stamp at a place carries the number after that place, as long as there are numbers left. -/
theorem Sound.seq_of_getElem? (h : x.Sound) (hb : x.head < 2 ^ 64) {k moment : Nat} {f : Frame}
    (hk : x.stamps[k]? = some (moment, f)) : f.seq = k + 1 := by
  have hlog : x.transmission.log[k]? = some f := by
    rw [← h.stamps, List.getElem?_map, hk]
    rfl
  refine h.faithful.seq_of_getElem? ?_ hlog
  have hhead : x.transmission.log.length + 1 = x.head := h.faithful.head.symm
  omega

/-! ### Where the numbers come from -/

/-- The head at some instant behind the login of the session at this place. -/
def Captured (x : Publication) (es : List Event) (place seq i j : Nat) : Prop :=
  i < j ∧ j ≤ es.length ∧ x.Happens (Accepts place) es i ∧ (x.run (es.take j)).head = seq

theorem Captured.concat {place seq i j : Nat} (h : x.Captured es place seq i j) (e : Event) :
    x.Captured (es ++ [e]) place seq i j := by
  obtain ⟨hij, hj, haccepts, hhead⟩ := h
  refine ⟨hij, ?_, (happens_concat_iff e).2 (Or.inl haccepts), ?_⟩
  · rw [List.length_append]
    omega
  · rwa [run_take_concat hj]

/-- The snapshot of the session at this place was started, after its number had been captured. -/
def Streamed (x : Publication) (es : List Event) (place seq : Nat) : Prop :=
  ∃ i j k, x.Captured es place seq i j ∧ j ≤ k ∧ x.Happens (Starts place) es k

theorem Streamed.concat {place seq : Nat} (h : x.Streamed es place seq) (e : Event) :
    x.Streamed (es ++ [e]) place seq := by
  obtain ⟨i, j, k, hcaptured, hjk, hstarts⟩ := h
  exact ⟨i, j, k, hcaptured.concat e, hjk, (happens_concat_iff e).2 (Or.inl hstarts)⟩

/-- The snapshot has been started. -/
def Begun : SessionStage → Prop
  | .snapshot _ => True
  | .over => True
  | _ => False

/-- What a run `es` from `x` shows of the past, in its mailbox, its stamps and its sessions. -/
structure Trail (x : Publication) (es : List Event) : Prop where
  posted : ∀ p, .task p ∈ (x.run es).mailbox.queue → ∃ t, p.task = .transmit t ∧ es[p.moment]? = some (.post t)
  asked : ∀ p place, .request p place ∈ (x.run es).mailbox.queue → ∃ i, x.Happens (Accepts place) es i
  stamped : ∀ moment f, (moment, f) ∈ (x.run es).stamps →
    ∃ f', es[moment]? = some (.post (.send f')) ∧ f.body = f'.body
  told : ∀ place host, (x.run es).hosts[place]? = some host → ∀ seq, host.answer = some seq →
    ∃ i j, x.Captured es place seq i j
  streaming : ∀ place host, (x.run es).hosts[place]? = some host → ∀ seq, host.session.stage = .snapshot seq →
    x.Streamed es place seq
  written : ∀ place host, (x.run es).hosts[place]? = some host → ∀ f ∈ host.written, ∀ n, f.EndsAt n →
    ∃ seq, x.Streamed es place seq ∧ n = seq % 2 ^ 64
  begun : ∀ place k, x.Happens (Starts place) es k →
    ∃ host, (x.run es).hosts[place]? = some host ∧ Begun host.session.stage
  once : ∀ place k k', x.Happens (Starts place) es k → x.Happens (Starts place) es k' → k = k'

theorem trail_begin (settings : Settings) (start : Instant) : Trail (begin settings start) [] where
  posted := by rintro p ⟨⟩
  asked := by rintro p place ⟨⟩
  stamped := by rintro moment f ⟨⟩
  told := by rintro place host ⟨⟩
  streaming := by rintro place host ⟨⟩
  written := by rintro place host ⟨⟩
  begun := by rintro place k ⟨e, ⟨⟩, -⟩
  once := by rintro place k k' ⟨e, ⟨⟩, -⟩

theorem Trail.posted_concat (h : x.Trail es) (hmoment : (x.run es).moment = es.length) (e : Event) (p : Posted)
    (hp : .task p ∈ (x.run (es ++ [e])).mailbox.queue) :
    ∃ t, p.task = .transmit t ∧ (es ++ [e])[p.moment]? = some (.post t) := by
  rw [run_concat] at hp
  cases envelope_step hp with
  | old hold =>
    obtain ⟨t, ht, hpost⟩ := h.posted p hold
    refine ⟨t, ht, ?_⟩
    rwa [List.getElem?_append_left (List.getElem?_eq_some_iff.1 hpost).1]
  | task t he =>
    refine ⟨t, rfl, ?_⟩
    rw [hmoment, he]
    exact List.getElem?_concat_length

theorem Trail.asked_concat (h : x.Trail es) (e : Event) (p : Posted) (place : Nat)
    (hp : .request p place ∈ (x.run (es ++ [e])).mailbox.queue) : ∃ i, x.Happens (Accepts place) (es ++ [e]) i := by
  rw [run_concat] at hp
  cases envelope_step hp with
  | old hold =>
    obtain ⟨i, hi⟩ := h.asked p place hold
    exact ⟨i, (happens_concat_iff e).2 (Or.inl hi)⟩
  | question _ haccepts => exact ⟨es.length, (happens_concat_iff e).2 (Or.inr ⟨rfl, haccepts⟩)⟩

theorem body_of_numbered {t : Transmitter} {now : Instant} {task : Transmitter.Task} {f : Frame}
    (h : f ∈ t.numbered now (.task task)) : ∃ f', task = .send f' ∧ f.body = f'.body := by
  cases task with
  | send f' =>
    refine ⟨f', rfl, ?_⟩
    rcases t.onSend_cases now f' with ⟨o, hs⟩ | hs
    · simp only [Transmitter.numbered, hs, List.map_cons, List.map_nil, List.mem_singleton] at h
      rw [h]
      rfl
    · simp [Transmitter.numbered, hs] at h
  | _ => cases h

theorem Trail.stamped_concat (h : x.Trail es) (e : Event) (moment : Nat) (f : Frame)
    (hf : (moment, f) ∈ (x.run (es ++ [e])).stamps) :
    ∃ f', (es ++ [e])[moment]? = some (.post (.send f')) ∧ f.body = f'.body := by
  have hold : ∀ t, es[moment]? = some (.post t) → (es ++ [e])[moment]? = some (.post t) := by
    intro t ht
    rwa [List.getElem?_append_left (List.getElem?_eq_some_iff.1 ht).1]
  have hkeep : (moment, f) ∈ (x.run es).stamps →
      ∃ f', (es ++ [e])[moment]? = some (.post (.send f')) ∧ f.body = f'.body := by
    intro hf
    obtain ⟨f', hpost, hbody⟩ := h.stamped moment f hf
    exact ⟨f', hold _ hpost, hbody⟩
  rw [run_concat] at hf
  cases drive_step (x.run es) e with
  | still _ hstamps => exact hkeep (hstamps ▸ hf)
  | tick _ _ _ _ hstamps => exact hkeep (hstamps ▸ hf)
  | task now p t hqueued ht _ hstamps =>
    rw [hstamps] at hf
    rcases List.mem_append.1 hf with hf | hf
    · exact hkeep hf
    · obtain ⟨g, hg, heq⟩ := List.mem_map.1 hf
      cases heq
      obtain ⟨t', ht', hpost⟩ := h.posted p hqueued
      obtain rfl : t' = t := by simpa [ht'] using ht
      obtain ⟨f', rfl, hbody⟩ := body_of_numbered hg
      exact ⟨f', hold _ hpost, hbody⟩

theorem Trail.told_concat (h : x.Trail es) (e : Event) (place : Nat) (host' : Host)
    (hhost : (x.run (es ++ [e])).hosts[place]? = some host') (seq : Nat) (hanswer : host'.answer = some seq) :
    ∃ i j, x.Captured (es ++ [e]) place seq i j := by
  have hkeep : ∀ host, (x.run es).hosts[place]? = some host → host.answer = some seq →
      ∃ i j, x.Captured (es ++ [e]) place seq i j := by
    intro host hold hanswer
    obtain ⟨i, j, hcaptured⟩ := h.told place host hold seq hanswer
    exact ⟨i, j, hcaptured.concat e⟩
  rw [run_concat] at hhost
  cases host_step hhost with
  | same hold => exact hkeep host' hold hanswer
  | fresh _ _ _ hnone => simp [hnone] at hanswer
  | turned host input hold _ hturned =>
    rw [hturned] at hanswer
    exact hkeep host hold hanswer
  | told host p hold hasked htold =>
    -- the head of this very instant, and the question was posted in an earlier step
    obtain ⟨i, hi⟩ := h.asked p place hasked
    rw [htold] at hanswer
    refine ⟨i, es.length, hi.lt_length, ?_, (happens_concat_iff e).2 (Or.inl hi), ?_⟩
    · rw [List.length_append]
      omega
    · rw [List.take_left' rfl]
      exact Option.some.inj hanswer

theorem Trail.streaming_concat (h : x.Trail es) (e : Event) (place : Nat) (host' : Host)
    (hhost : (x.run (es ++ [e])).hosts[place]? = some host') (seq : Nat)
    (hstage : host'.session.stage = .snapshot seq) : x.Streamed (es ++ [e]) place seq := by
  rw [run_concat] at hhost
  cases host_step hhost with
  | same hold => exact (h.streaming place host' hold seq hstage).concat e
  | fresh deadline _ hlogin =>
    rw [hlogin] at hstage
    cases hstage
  | told host p hold _ htold =>
    rw [htold] at hstage
    exact (h.streaming place host hold seq hstage).concat e
  | turned host input hold he hturned =>
    rw [hturned] at hstage
    dsimp only at hstage
    cases Session.turn_onInput host.session host.answer input with
    | stay hsame =>
      rw [hsame] at hstage
      exact (h.streaming place host hold seq hstage).concat e
    | ended hover =>
      rw [hover] at hstage
      cases hstage
    | accept _ _ hhead =>
      rw [hhead] at hstage
      cases hstage
    | start seq' hhead hanswer hnow _ hstart =>
      rw [hnow] at hstage
      cases hstage
      obtain ⟨i, j, hcaptured⟩ := h.told place host hold seq hanswer
      have hj : j ≤ es.length := hcaptured.2.1
      refine ⟨i, j, es.length, hcaptured.concat e, hj, (happens_concat_iff e).2 (Or.inr ⟨rfl, ?_⟩)⟩
      exact ⟨host, input, he, hold, hstart⟩

theorem Trail.written_concat (h : x.Trail es) (e : Event) (place : Nat) (host' : Host)
    (hhost : (x.run (es ++ [e])).hosts[place]? = some host') (f : Frame) (hf : f ∈ host'.written) (n : Nat)
    (hn : f.EndsAt n) : ∃ seq, x.Streamed (es ++ [e]) place seq ∧ n = seq % 2 ^ 64 := by
  have hkeep : ∀ host, (x.run es).hosts[place]? = some host → f ∈ host.written →
      ∃ seq, x.Streamed (es ++ [e]) place seq ∧ n = seq % 2 ^ 64 := by
    intro host hold hf
    obtain ⟨seq, hstreamed, hseq⟩ := h.written place host hold f hf n hn
    exact ⟨seq, hstreamed.concat e, hseq⟩
  rw [run_concat] at hhost
  cases host_step hhost with
  | same hold => exact hkeep host' hold hf
  | fresh _ _ _ _ hnone =>
    rw [hnone] at hf
    cases hf
  | told host p hold _ htold =>
    rw [htold] at hf
    exact hkeep host hold hf
  | turned host input hold _ hturned =>
    rw [hturned] at hf
    rcases List.mem_append.1 hf with hf | hf
    · exact hkeep host hold hf
    · obtain ⟨seq, hstage, hseq⟩ := (Session.ends_onInput host.session host.answer input).written f hf n hn
      exact ⟨seq, (h.streaming place host hold seq hstage).concat e, hseq⟩

/-- A session starts its snapshot in the stage in which it waits for the head. -/
theorem stage_of_starts {place : Nat} {e : Event} (h : Starts place x e) :
    ∃ host, x.hosts[place]? = some host ∧ host.session.stage = .head ∧
      ∃ host', (x.step e).hosts[place]? = some host' ∧ Begun host'.session.stage := by
  obtain ⟨host, input, rfl, hhost, hstart⟩ := h
  cases Session.turn_onInput host.session host.answer input with
  | stay _ hquiet => exact (hquiet _ hstart).elim
  | ended _ hquiet => exact (hquiet _ hstart).elim
  | accept _ _ _ hnone => exact absurd hstart hnone
  | start seq hhead _ hnow =>
    refine ⟨host, hhost, hhead, ?_⟩
    have hact : (x.step (.session place input)).hosts = (x.goOn place host (host.session.onInput host.answer input)).hosts := by
      show (x.act (.session place input)).hosts = _
      unfold act
      dsimp only
      rw [hhost]
    rw [hact]
    refine ⟨_, List.getElem?_set_self (List.getElem?_eq_some_iff.1 hhost).1, ?_⟩
    show Begun (host.session.onInput host.answer input).1.stage
    rw [hnow]
    trivial

theorem begun_step {place : Nat} {host : Host} (hhost : x.hosts[place]? = some host) (hbegun : Begun host.session.stage)
    (e : Event) : ∃ host', (x.step e).hosts[place]? = some host' ∧ Begun host'.session.stage := by
  have hlt : place < x.hosts.length := (List.getElem?_eq_some_iff.1 hhost).1
  have hlt' : place < (x.step e).hosts.length := Nat.lt_of_lt_of_le hlt (length_hosts_le_step x e)
  refine ⟨_, List.getElem?_eq_getElem hlt', ?_⟩
  cases host_step (List.getElem?_eq_getElem hlt') with
  | same hold =>
    rw [hhost] at hold
    rw [← Option.some.inj hold]
    exact hbegun
  | fresh _ hnone =>
    rw [hhost] at hnone
    cases hnone
  | told host₁ p hold _ htold =>
    rw [hhost] at hold
    cases hold
    rw [htold]
    exact hbegun
  | turned host₁ input hold _ hturned =>
    rw [hhost] at hold
    cases hold
    rw [hturned]
    dsimp only
    cases Session.turn_onInput host.session host.answer input with
    | stay hsame => rwa [hsame]
    | ended hover =>
      rw [hover]
      trivial
    | accept _ hlogin =>
      rw [hlogin] at hbegun
      exact hbegun.elim
    | start _ hhead =>
      rw [hhead] at hbegun
      exact hbegun.elim

theorem Trail.begun_concat (h : x.Trail es) (e : Event) (place k : Nat) (hk : x.Happens (Starts place) (es ++ [e]) k) :
    ∃ host, (x.run (es ++ [e])).hosts[place]? = some host ∧ Begun host.session.stage := by
  rw [run_concat]
  rcases (happens_concat_iff e).1 hk with hk | ⟨-, hstarts⟩
  · obtain ⟨host, hhost, hbegun⟩ := h.begun place k hk
    exact begun_step hhost hbegun e
  · obtain ⟨-, -, -, hnow⟩ := stage_of_starts hstarts
    exact hnow

/-- A session that has started its snapshot does not start another one. -/
theorem Trail.not_starts (h : x.Trail es) {e : Event} {place k : Nat} (hk : x.Happens (Starts place) es k) :
    ¬ Starts place (x.run es) e := by
  intro hstarts
  obtain ⟨host, hhost, hbegun⟩ := h.begun place k hk
  obtain ⟨host', hhost', hstage, -⟩ := stage_of_starts hstarts
  rw [hhost] at hhost'
  cases hhost'
  rw [hstage] at hbegun
  exact hbegun

theorem Trail.once_concat (h : x.Trail es) (e : Event) (place k k' : Nat)
    (hk : x.Happens (Starts place) (es ++ [e]) k) (hk' : x.Happens (Starts place) (es ++ [e]) k') : k = k' := by
  rcases (happens_concat_iff e).1 hk with hk | ⟨rfl, hstarts⟩
  · rcases (happens_concat_iff e).1 hk' with hk' | ⟨-, hstarts⟩
    · exact h.once place k k' hk hk'
    · exact absurd hstarts (h.not_starts hk)
  · rcases (happens_concat_iff e).1 hk' with hk' | ⟨rfl, -⟩
    · exact absurd hstarts (h.not_starts hk')
    · rfl

theorem moment_run (x : Publication) (es : List Event) : (x.run es).moment = x.moment + es.length := by
  induction es generalizing x with
  | nil => rfl
  | cons e rest ih =>
    have hstep : (x.step e).moment = x.moment + 1 := rfl
    show ((x.step e).run rest).moment = _
    rw [ih, hstep, List.length_cons]
    omega

theorem Trail.concat (h : x.Trail es) (hmoment : (x.run es).moment = es.length) (e : Event) : x.Trail (es ++ [e]) where
  posted := h.posted_concat hmoment e
  asked := h.asked_concat e
  stamped := h.stamped_concat e
  told := h.told_concat e
  streaming := h.streaming_concat e
  written := h.written_concat e
  begun := h.begun_concat e
  once := h.once_concat e

theorem trail_run (settings : Settings) (start : Instant) (es : List Event) : Trail (begin settings start) es := by
  induction es using List.reverseRecOn with
  | nil => exact trail_begin settings start
  | append_singleton es e ih =>
    refine ih.concat ?_ e
    rw [moment_run]
    exact Nat.zero_add _

/-! ### The stamps of an instant -/

section Instants

variable (hx : ∀ es, (x.run es).Sound) (hb : (x.run es).head < 2 ^ 64)

include hx

theorem head_take_le (j : Nat) : (x.run (es.take j)).head ≤ (x.run es).head := by
  have hle := (stamps_prefix_take x es j).length_le
  rw [(hx _).head, (hx _).head]
  omega

include hb

/-- The stamps with smaller numbers than the head of an instant are those that had been made by then. -/
theorem mem_stamps_take_iff {j m : Nat} {g : Frame} (hg : (m, g) ∈ (x.run es).stamps) :
    g.seq < (x.run (es.take j)).head ↔ (m, g) ∈ (x.run (es.take j)).stamps := by
  have hsame : ∀ p < (x.run (es.take j)).stamps.length, (x.run es).stamps[p]? = (x.run (es.take j)).stamps[p]? := by
    intro p hp
    obtain ⟨later, hlater⟩ := stamps_prefix_take x es j
    rw [← hlater, List.getElem?_append_left hp]
  obtain ⟨p, hp⟩ := List.mem_iff_getElem?.1 hg
  have hnumber : g.seq = p + 1 := (hx es).seq_of_getElem? hb hp
  rw [(hx _).head, hnumber]
  constructor
  · intro hlt
    rw [hsame p (by omega)] at hp
    exact List.mem_of_getElem? hp
  · intro hold
    obtain ⟨q, hq⟩ := List.mem_iff_getElem?.1 hold
    have hin : q < (x.run (es.take j)).stamps.length := (List.getElem?_eq_some_iff.1 hq).1
    rw [← hsame q hin] at hq
    have hnumber' : g.seq = q + 1 := (hx es).seq_of_getElem? hb hq
    omega

/-- So the frames with smaller numbers are those that had been numbered. -/
theorem mem_log_take_iff {j : Nat} {g : Frame} (hg : g ∈ (x.run es).transmission.log) :
    g.seq < (x.run (es.take j)).head ↔ g ∈ (x.run (es.take j)).transmission.log := by
  have hstamps := stamps_prefix_take x es j
  rw [← (hx es).stamps] at hg
  obtain ⟨⟨m, g'⟩, hmem, rfl⟩ := List.mem_map.1 hg
  rw [mem_stamps_take_iff hx hb hmem, ← (hx _).stamps]
  constructor
  · exact fun hold => List.mem_map_of_mem hold
  · intro hold
    obtain ⟨⟨m', g''⟩, hmem', heq⟩ := List.mem_map.1 hold
    obtain rfl : g'' = g' := heq
    have hlt := (mem_stamps_take_iff hx hb (hstamps.subset hmem')).2 hmem'
    exact (mem_stamps_take_iff hx hb hmem).1 hlt

end Instants

/-- **The cut.** Sessions, postings and the transmitter interleave in any way. If a session ends its snapshot with the
number `seq`, then it accepted a login in some step `i`, the transmitter's head was `seq` at an instant `j` after this, and
the session started its snapshot after that, in the one step `k`. So the frames with numbers below `seq`, of all that are
ever numbered, are those that had been numbered at the instant `j`; and a frame that was posted after the step `k` gets the
number `seq` or a higher one. -/
theorem cut_of_written (settings : Settings) (start : Instant) (es : List Event) :
    let x := begin settings start
    (x.run es).head < 2 ^ 64 →
      ∀ place host f seq, (x.run es).hosts[place]? = some host → f ∈ host.written → f.EndsAt seq →
        ∃ i j k, i < j ∧ j ≤ k ∧ x.Happens (Accepts place) es i ∧ (x.run (es.take j)).head = seq ∧
          (∀ n, x.Happens (Starts place) es n ↔ n = k) ∧
          (∀ g ∈ (x.run es).transmission.log, g.seq < seq ↔ g ∈ (x.run (es.take j)).transmission.log) ∧
          (x.run es).stamps.map Prod.snd = (x.run es).transmission.log ∧
          ∀ moment g, (moment, g) ∈ (x.run es).stamps →
            (∃ g', es[moment]? = some (.post (.send g')) ∧ g.body = g'.body) ∧ (k < moment → seq ≤ g.seq) := by
  intro x hb place host f seq hhost hf hseq
  have trail : x.Trail es := trail_run settings start es
  have sound : ∀ es, (x.run es).Sound := fun es => (sound_begin settings start).run es
  obtain ⟨seq', ⟨i, j, k, ⟨hij, hj, haccepts, hhead⟩, hjk, hstarts⟩, hmod⟩ := trail.written place host hhost f hf seq hseq
  obtain rfl : seq' = seq := by
    have hle : (x.run (es.take j)).head ≤ (x.run es).head := head_take_le sound j
    rw [hmod, Nat.mod_eq_of_lt (by omega)]
  refine ⟨i, j, k, hij, hjk, haccepts, hhead, ?_, ?_, (sound es).stamps, ?_⟩
  · intro n
    constructor
    · intro hn
      exact trail.once place n k hn hstarts
    · rintro rfl
      exact hstarts
  · intro g hg
    rw [← hhead]
    exact mem_log_take_iff sound hb hg
  · intro m g hg
    refine ⟨trail.stamped m g hg, fun hlate => ?_⟩
    by_contra hlt
    -- what had been stamped at the instant `j` was posted before it
    have hnumber : g.seq < (x.run (es.take j)).head := by omega
    have hold := (mem_stamps_take_iff sound hb hg).1 hnumber
    obtain ⟨g', hpost, -⟩ := (trail_run settings start (es.take j)).stamped m g hold
    have hm : m < (es.take j).length := (List.getElem?_eq_some_iff.1 hpost).1
    rw [List.length_take] at hm
    omega

def channel : Channel :=
  .new "md1" ⟨⟨10, 0, 0, 1⟩, 9000⟩ ⟨⟨239, 1, 1, 1⟩, 9001⟩ ⟨⟨10, 0, 0, 3⟩, 9002⟩

def logIn (place : Nat) : Event :=
  .session place (.read none (.frame (.control (.login channel.username channel.password) 0)))

/-- Two sessions ask for the head, with frames posted around their questions. The first streams its snapshot while the
transmitter goes on. -/
def overlapping : List Event :=
  [.post (.attach ⟨1, ⟨⟨239, 1, 1, 1⟩, 9001⟩, 2, none⟩), .accept 0 channel .default ⟨⟨10, 0, 0, 9⟩, 40000⟩,
    .accept 0 channel .default ⟨⟨10, 0, 0, 8⟩, 40001⟩, .take 1, .post (.send (.single 7)), logIn 0,
    .post (.send (.single 8)), logIn 1, .take 2, .take 3, .take 4, .session 0 .head, .take 5, .post (.send (.single 9)),
    .session 0 (.source none ⟨[.write (.single 1) 1], false, .complete, 0, []⟩), .take 6]

theorem cut_of_overlapping :
    let x := (begin .default 0).run overlapping
    let f := Frame.control (.endOfSnapshot "md1" 2 true) 0
    x.head < 2 ^ 64 ∧ (∃ host, x.hosts[0]? = some host ∧ f ∈ host.written) ∧ f.EndsAt 2 ∧
      (x.transmission.log.map fun g => (g.seq, g.body)) = [(1, [7]), (2, [8]), (3, [9])] ∧
        ∃ j k, j ≤ k ∧ ((begin .default 0).run (overlapping.take j)).head = 2 ∧
          (begin .default 0).Happens (Starts 0) overlapping k ∧
            ∀ moment g, (moment, g) ∈ x.stamps → k < moment → 2 ≤ g.seq := by
  intro x f
  have hb : x.head < 2 ^ 64 := by decide +kernel
  obtain ⟨host, hhost, hf⟩ : ∃ host, x.hosts[0]? = some host ∧ f ∈ host.written := by
    refine ⟨x.hosts.get ⟨0, by decide +kernel⟩, List.getElem?_eq_getElem _, by decide +kernel⟩
  have hends : f.EndsAt 2 := ⟨"md1", 2, true, by decide +kernel, rfl⟩
  obtain ⟨i, j, k, -, hjk, -, hhead, honce, -, -, hlate⟩ := cut_of_written .default 0 overlapping hb 0 host f 2 hhost hf hends
  refine ⟨hb, ⟨host, hhost, hf⟩, hends, by decide +kernel, j, k, hjk, hhead, (honce k).2 rfl, ?_⟩
  intro moment g hg hmoment
  exact (hlate moment g hg).2 hmoment

end Publication

end ReliableMulticast
