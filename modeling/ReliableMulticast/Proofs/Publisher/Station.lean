import ReliableMulticast.Mailbox
import ReliableMulticast.Proofs.Publisher.Link

/-!
# A publisher's link with its transmitter

A `Station` is the control of a publisher's link together with the transmitter that it posts to. The transmitter takes
what is posted one by one, and reports each phase of a disconnect once it has dealt with everything before it; a report
may take any time to reach the control.

Main statement (`released_iff_not_overtakes`): along a run, connections are opened only where the earlier one is wholly
released if and only if no task overtakes a disconnect; and then a link that is up has a connection that is served, and
a transmitter that is attached to the sockets of just that connection once it has dealt with what is posted. Without that
condition a link can be up with no connection at all (`up_without_connection`).
-/

namespace ReliableMulticast

abbrev Posting := Envelope Transmitter.Task DisconnectPhase

structure Station where
  link : PublisherLink
  transmitter : Transmitter
  /-- What the transmitter has not taken yet, oldest first. -/
  posted : List Posting
  /-- The phases that the transmitter is through with and the control does not know of. -/
  drained : List DisconnectPhase
  /-- The sockets for data and repetitions that each connection was opened with, newest first. -/
  sockets : List (Nat × SocketId × SocketId)

namespace Station

open PublisherLink (Surroundings Task Effect)

inductive Event
  | command (env : Surroundings) (task : Task)
  /-- One of the reports reaches the control. -/
  | report (env : Surroundings) (place : Nat)
  /-- An application posts a frame. -/
  | send (f : Frame)
  /-- A request for repetition is posted. -/
  | resend (seq count : Nat) (dest : Endpoint)
  /-- The transmitter takes the oldest of what is posted. -/
  | transmit (now : Instant)
  | heartbeatTick (now : Instant) (stamp : Duration)
  | trimTick

def posting? : Effect → Option Posting
  | .transmit task => some (.task task)
  | .drain phase => some (.barrier phase)
  | _ => none

/-- The sockets that the surroundings open for a connection. -/
def opened? (env : Surroundings) : Effect → Option (Nat × SocketId × SocketId)
  | .listen generation endpoints => (env.listen? endpoints).toOption.map fun sockets => (generation, sockets)
  | _ => none

def carryOut (x : Station) (env : Surroundings) (p : PublisherLink × List Effect) : Station :=
  { x with
    link := p.1
    posted := x.posted ++ p.2.filterMap posting?
    sockets := (p.2.filterMap (opened? env)).reverse ++ x.sockets }

/-- The transmitter after it has taken one envelope. -/
def take (now : Instant) (t : Transmitter) : Posting → Transmitter
  | .task task => (t.onTask now task).1
  | _ => t

/-- The transmitter once it has dealt with all that is posted. -/
def processed (x : Station) (now : Instant) : Transmitter := x.posted.foldl (take now) x.transmitter

/-- The task that an event hands to the control. Only the transmitter reports phases. -/
def task? (x : Station) : Event → Option (Surroundings × Task)
  | .command _ (.drained _) => none
  | .command env task => some (env, task)
  | .report env place => x.drained[place]?.map fun phase => (env, .drained phase)
  | _ => none

def obey (x : Station) : Option (Surroundings × Task) → Station
  | none => x
  | some (env, task) => x.carryOut env (x.link.onTask env task)

def step (x : Station) : Event → Station
  | .command env task => x.obey (x.task? (.command env task))
  | .report env place => obey { x with drained := x.drained.eraseIdx place } (x.task? (.report env place))
  | .send f => { x with posted := x.posted ++ [.task (.send f)] }
  | .resend seq count dest => { x with posted := x.posted ++ [.task (.resend seq count dest)] }
  | .transmit now =>
    match x.posted with
    | [] => x
    | .barrier phase :: rest => { x with posted := rest, drained := x.drained ++ [phase] }
    | e :: rest => { x with posted := rest, transmitter := take now x.transmitter e }
  | .heartbeatTick now stamp => { x with transmitter := (x.transmitter.onHeartbeatTick now stamp).1 }
  | .trimTick => { x with transmitter := x.transmitter.onTrimTick }

def run (x : Station) (es : List Event) : Station := es.foldl step x

/-- Every step of a run, with the state that it is taken in. -/
def Throughout (P : Station → Event → Prop) : Station → List Event → Prop
  | _, [] => True
  | x, e :: rest => P x e ∧ Throughout P (x.step e) rest

instance decidableThroughout (P : Station → Event → Prop) [∀ x e, Decidable (P x e)] :
    ∀ x es, Decidable (Throughout P x es)
  | _, [] => .isTrue trivial
  | x, e :: rest =>
    have := decidableThroughout P (x.step e) rest
    inferInstanceAs (Decidable (P x e ∧ Throughout P (x.step e) rest))

/-- The event makes the control try to open a connection. -/
def Connects (x : Station) (e : Event) : Prop :=
  ∃ p ∈ x.task? e, ∃ effect ∈ (x.link.onTask p.1 p.2).2, effect.Opens

/-- There is no connection and no disconnect, or the event is what completes the disconnect; and the transmitter holds
no sockets and is about to get none. -/
structure Released (x : Station) (e : Event) : Prop where
  link : (x.link.phase = none ∧ x.link.connection = none) ∨
    x.link.phase = some .releasing ∧ ∃ env, (env, .drained .releasing) ∈ x.task? e
  outlets : x.transmitter.outlets = none
  posted : ∀ o, .task (.attach o) ∉ x.posted

/-- The event hands the control a task that connects during a disconnect. -/
def Overtakes (x : Station) (e : Event) : Prop := ∃ p ∈ x.task? e, x.link.Overtakes p.2

instance (x : Station) (e : Event) : Decidable (x.Overtakes e) := by
  unfold Overtakes
  infer_instance

/-- What a link that is up promises: a connection that is served, no disconnect, and a transmitter that will be attached
to the sockets of this connection. -/
structure Serves (x : Station) (c : PublisherLink.Connection) : Prop where
  phase : x.link.phase = none
  connection : x.link.connection = some c
  listening : c.listening = true
  attached : ∀ now, (x.processed now).attached = true
  outlets : ∀ now, ∃ o, (x.processed now).outlets = some o ∧
    x.sockets.lookup c.generation = some (o.data, o.resend) ∧ o.dataTo = c.endpoints.udp

/-! ### What the transmitter holds -/

/-- Whether an envelope leaves the sockets of the transmitter alone. -/
def Idle : Posting → Prop
  | .task (.send _) => True
  | .task (.resend ..) => True
  | _ => False

/-- The sockets that a transmitter holds, and whether it sends on them. -/
abbrev Grip := Option Outlets × Bool

def grip (t : Transmitter) : Grip := (t.outlets, t.attached)

def regrip (g : Grip) : Posting → Grip
  | .task (.attach o) => (some o, true)
  | .task .detach => (g.1, false)
  | .task .release => (none, false)
  | _ => g

theorem grip_take (now : Instant) (t : Transmitter) (e : Posting) : grip (take now t e) = regrip (grip t) e := by
  cases e with
  | task task =>
    cases task with
    | send f =>
      show grip (t.onSend now f).1 = grip t
      unfold Transmitter.onSend
      repeat' split
      all_goals rfl
    | _ => rfl
  | _ => rfl

/-- What the transmitter will hold. -/
def gripAfter (x : Station) : Grip := x.posted.foldl regrip (grip x.transmitter)

theorem grip_processed (x : Station) (now : Instant) : grip (x.processed now) = x.gripAfter := by
  unfold processed gripAfter
  generalize x.transmitter = t
  induction x.posted generalizing t with
  | nil => rfl
  | cons e rest ih => rw [List.foldl_cons, List.foldl_cons, ih, grip_take]

theorem regrip_idle {posted : List Posting} (h : ∀ e ∈ posted, Idle e) (g : Grip) : posted.foldl regrip g = g := by
  induction posted with
  | nil => rfl
  | cons e rest ih =>
    have he : regrip g e = g := by
      have := h e (by simp)
      rcases e with (_ | _ | _ | _ | _) | _ | _ <;> first | rfl | exact this.elim
    rw [List.foldl_cons, he, ih (fun e' he' => h e' (List.mem_cons_of_mem _ he'))]

/-! ### The stages of a connection -/

/-- Everything of the last connection is released. -/
structure Bare (x : Station) : Prop where
  drained : x.drained = []
  posted : ∀ e ∈ x.posted, Idle e
  grip : grip x.transmitter = (none, false)

structure Serving (x : Station) (c : PublisherLink.Connection) : Prop where
  drained : x.drained = []
  posted : ∀ p, .barrier p ∉ x.posted
  listening : c.listening = true
  grip : ∃ o, x.gripAfter = (some o, true) ∧ x.sockets.lookup c.generation = some (o.data, o.resend) ∧
    o.dataTo = c.endpoints.udp

/-- The mark of a phase is on its way through the transmitter or back to the control. -/
structure Awaiting (x : Station) (p : DisconnectPhase) : Prop where
  mark : (x.drained = [p] ∧ ∀ e ∈ x.posted, Idle e) ∨
    (x.drained = [] ∧ ∃ before behind, x.posted = before ++ .barrier p :: behind ∧
      (∀ q, .barrier q ∉ before) ∧ ∀ e ∈ behind, Idle e)
  grip : p = .releasing → x.gripAfter = (none, false)

inductive Stage (x : Station) : Prop
  | bare : x.link.phase = none → x.link.connection = none → x.Bare → Stage x
  | serving (c : PublisherLink.Connection) : x.link.phase = none → x.link.connection = some c → x.Serving c → Stage x
  | awaiting (p : DisconnectPhase) : x.link.phase = some p → x.Awaiting p → Stage x

structure Orderly (x : Station) : Prop where
  link : x.link.Consistent
  stage : x.Stage

theorem not_barrier_of_idle {posted : List Posting} (h : ∀ e ∈ posted, Idle e) (p : DisconnectPhase) :
    .barrier p ∉ posted :=
  fun hp => h _ hp

/-! ### Steps of the transmitter -/

theorem gripAfter_push (x : Station) {e : Posting} (he : Idle e) :
    gripAfter { x with posted := x.posted ++ [e] } = x.gripAfter := by
  unfold gripAfter
  rw [List.foldl_append]
  have hidle : ∀ e' ∈ [e], Idle e' := by simpa using he
  exact regrip_idle hidle _

theorem idle_push {posted : List Posting} (h : ∀ e ∈ posted, Idle e) {e : Posting} (he : Idle e) :
    ∀ e' ∈ posted ++ [e], Idle e' := by
  intro e' he'
  rcases List.mem_append.1 he' with he' | he'
  · exact h e' he'
  · rwa [List.mem_singleton.1 he']

/-- Others post nothing that concerns the sockets. -/
theorem Stage.push {x : Station} (h : x.Stage) {e : Posting} (he : Idle e) :
    Stage { x with posted := x.posted ++ [e] } := by
  cases h with
  | bare hphase hnone hbare => exact .bare hphase hnone ⟨hbare.drained, idle_push hbare.posted he, hbare.grip⟩
  | serving c hphase hc hserving =>
    refine .serving c hphase hc ⟨hserving.drained, fun p hp => ?_, hserving.listening, ?_⟩
    · rcases List.mem_append.1 hp with hp | hp
      · exact hserving.posted p hp
      · rw [← List.mem_singleton.1 hp] at he
        exact he
    · rw [gripAfter_push x he]
      exact hserving.grip
  | awaiting p hphase hawaiting =>
    refine .awaiting p hphase ⟨?_, by rw [gripAfter_push x he]; exact hawaiting.grip⟩
    rcases hawaiting.mark with ⟨hdrained, hidle⟩ | ⟨hdrained, before, behind, hposted, hbefore, hbehind⟩
    · exact Or.inl ⟨hdrained, idle_push hidle he⟩
    · refine Or.inr ⟨hdrained, before, behind ++ [e], ?_, hbefore, idle_push hbehind he⟩
      simp [hposted]

/-- The timers of the transmitter leave its sockets alone. -/
theorem Stage.of_grip {x : Station} (h : x.Stage) {t : Transmitter} (ht : grip t = grip x.transmitter) :
    Stage { x with transmitter := t } := by
  have hafter : gripAfter { x with transmitter := t } = x.gripAfter := congrArg (x.posted.foldl regrip) ht
  cases h with
  | bare hphase hnone hbare => exact .bare hphase hnone ⟨hbare.drained, hbare.posted, ht.trans hbare.grip⟩
  | serving c hphase hc hserving =>
    exact .serving c hphase hc ⟨hserving.drained, hserving.posted, hserving.listening, hafter ▸ hserving.grip⟩
  | awaiting p hphase hawaiting => exact .awaiting p hphase ⟨hawaiting.mark, hafter ▸ hawaiting.grip⟩

/-- What the transmitter takes, it need not look at again. -/
theorem gripAfter_take {x : Station} {e : Posting} {rest : List Posting} (hposted : x.posted = e :: rest)
    (now : Instant) : gripAfter { x with posted := rest, transmitter := take now x.transmitter e } = x.gripAfter := by
  unfold gripAfter
  rw [hposted, grip_take, List.foldl_cons]

theorem Stage.take {x : Station} (h : x.Stage) {e : Posting} {rest : List Posting} (hposted : x.posted = e :: rest)
    (hmark : ∀ p, e ≠ .barrier p) (now : Instant) :
    Stage { x with posted := rest, transmitter := take now x.transmitter e } := by
  have hafter := gripAfter_take hposted now
  cases h with
  | bare hphase hnone hbare =>
    have hidle := hbare.posted
    rw [hposted] at hidle
    refine .bare hphase hnone ⟨hbare.drained, fun e' he' => hidle e' (List.mem_cons_of_mem _ he'), ?_⟩
    have hfirst : ∀ e' ∈ [e], Idle e' := by simpa using hidle e (by simp)
    have hkeep := regrip_idle hfirst (grip x.transmitter)
    show grip (Station.take now x.transmitter e) = _
    rw [grip_take, ← hbare.grip]
    exact hkeep
  | serving c hphase hc hserving =>
    refine .serving c hphase hc ⟨hserving.drained, fun p hp => ?_, hserving.listening, hafter ▸ hserving.grip⟩
    refine hserving.posted p ?_
    rw [hposted]
    exact List.mem_cons_of_mem _ hp
  | awaiting p hphase hawaiting =>
    refine .awaiting p hphase ⟨?_, hafter ▸ hawaiting.grip⟩
    rcases hawaiting.mark with ⟨hdrained, hidle⟩ | ⟨hdrained, before, behind, hsplit, hbefore, hbehind⟩
    · rw [hposted] at hidle
      exact Or.inl ⟨hdrained, fun e' he' => hidle e' (List.mem_cons_of_mem _ he')⟩
    · rw [hposted] at hsplit
      cases before with
      | nil => exact absurd (List.cons.inj hsplit).1 (hmark p)
      | cons e' before =>
        refine Or.inr ⟨hdrained, before, behind, (List.cons.inj hsplit).2, fun q hq => ?_, hbehind⟩
        exact hbefore q (List.mem_cons_of_mem _ hq)

/-- A mark that is passed becomes a report. -/
theorem Stage.pass {x : Station} (h : x.Stage) {p : DisconnectPhase} {rest : List Posting}
    (hposted : x.posted = .barrier p :: rest) : Stage { x with posted := rest, drained := x.drained ++ [p] } := by
  have hmem : .barrier p ∈ x.posted := by rw [hposted]; exact List.mem_cons_self
  have hafter : gripAfter { x with posted := rest, drained := x.drained ++ [p] } = x.gripAfter := by
    unfold gripAfter
    rw [hposted]
    rfl
  cases h with
  | bare hphase hnone hbare => exact (hbare.posted _ hmem).elim
  | serving c hphase hc hserving => exact (hserving.posted p hmem).elim
  | awaiting q hphase hawaiting =>
    refine .awaiting q hphase ⟨?_, hafter ▸ hawaiting.grip⟩
    rcases hawaiting.mark with ⟨hdrained, hidle⟩ | ⟨hdrained, before, behind, hsplit, hbefore, hbehind⟩
    · exact (hidle _ hmem).elim
    · rw [hposted] at hsplit
      cases before with
      | nil =>
        obtain ⟨hp, rfl⟩ := List.cons.inj hsplit
        obtain rfl : p = q := by simpa using hp
        exact Or.inl ⟨by simp [hdrained], hbehind⟩
      | cons e' before =>
        obtain ⟨rfl, -⟩ := List.cons.inj hsplit
        exact absurd List.mem_cons_self (hbefore p)

theorem Stage.transmit {x : Station} (h : x.Stage) (now : Instant) : (x.step (.transmit now)).Stage := by
  unfold step
  dsimp only
  split
  · exact h
  · next hposted => exact h.pass hposted
  · next e rest hmark hposted => exact h.take hposted (fun p hp => hmark p hp) now

/-! ### Steps of the control -/

theorem carryOut_append (x : Station) (env : Surroundings) (l l' : PublisherLink) (effects effects' : List Effect) :
    x.carryOut env (l', effects ++ effects') = (x.carryOut env (l, effects)).carryOut env (l', effects') := by
  simp [carryOut]

/-- Effects that are neither for the transmitter nor open anything are of no account. -/
theorem carryOut_quiet (x : Station) (env : Surroundings) (l : PublisherLink) {effects : List Effect}
    (h : ∀ e ∈ effects, e.Quiet) : x.carryOut env (l, effects) = { x with link := l } := by
  have hposting : effects.filterMap posting? = [] := by
    refine List.filterMap_eq_nil_iff.2 (fun e he => ?_)
    have := h e he
    cases e <;> first | rfl | exact this.elim
  have hopened : effects.filterMap (opened? env) = [] := by
    refine List.filterMap_eq_nil_iff.2 (fun e he => ?_)
    have := h e he
    cases e <;> first | rfl | exact this.elim
  simp [carryOut, hposting, hopened]

theorem Stage.of_alike {x : Station} (h : x.Stage) {l' : PublisherLink} (ha : PublisherLink.Alike x.link l') :
    Stage { x with link := l' } := by
  have hconnection := ha.connection
  cases h with
  | bare hphase hnone hbare =>
    rw [hnone] at hconnection
    exact .bare (ha.phase.trans hphase) (by simpa using hconnection) ⟨hbare.drained, hbare.posted, hbare.grip⟩
  | serving c hphase hc hserving =>
    rw [hc] at hconnection
    obtain ⟨c', hc', hbare⟩ := Option.map_eq_some_iff.1 hconnection
    have hgeneration : c'.generation = c.generation := congrArg (·.generation) hbare
    have hendpoints : c'.endpoints = c.endpoints := congrArg (·.endpoints) hbare
    have hlistening : c'.listening = c.listening := congrArg (·.listening) hbare
    refine .serving c' (ha.phase.trans hphase) hc' ⟨hserving.drained, hserving.posted, ?_, ?_⟩
    · rw [hlistening]
      exact hserving.listening
    · rw [hgeneration, hendpoints]
      exact hserving.grip
  | awaiting p hphase hawaiting => exact .awaiting p (ha.phase.trans hphase) ⟨hawaiting.mark, hawaiting.grip⟩

/-- Without a disconnect there is no mark anywhere. -/
theorem Stage.unmarked {x : Station} (h : x.Stage) (hphase : x.link.phase = none) :
    x.drained = [] ∧ ∀ p, .barrier p ∉ x.posted := by
  cases h with
  | bare _ _ hbare => exact ⟨hbare.drained, not_barrier_of_idle hbare.posted⟩
  | serving c _ _ hserving => exact ⟨hserving.drained, hserving.posted⟩
  | awaiting p hp => rw [hphase] at hp; cases hp

theorem Stage.unconnected {x : Station} (h : x.Stage) (hphase : x.link.phase = none)
    (hnone : x.link.connection = none) : x.Bare := by
  cases h with
  | bare _ _ hbare => exact hbare
  | serving c _ hc => rw [hnone] at hc; cases hc
  | awaiting p hp => rw [hphase] at hp; cases hp

theorem Stage.move {x : Station} (h : x.Stage) {env : Surroundings} {effects : List Effect} {l' : PublisherLink}
    (hm : PublisherLink.Move env x.link effects l') : (x.carryOut env (l', effects)).Stage := by
  cases hm with
  | stay ha hquiet =>
    rw [carryOut_quiet x env l' hquiet]
    exact h.of_alike ha
  | @fail _ effects endpoints hnone hphase ha hquiet =>
    show (x.carryOut env (l', effects)).Stage
    rw [carryOut_quiet x env l' hquiet]
    exact h.of_alike ha
  | connect endpoints data resend shard hnone hphase hlisten hgeneration hphase' hc heffects =>
    subst heffects
    have hbare := h.unconnected hphase hnone
    have hsockets : (x.carryOut env (l', [.listen l'.generation endpoints,
        .transmit (.attach ⟨data, endpoints.udp, resend, shard⟩)])).sockets =
          (l'.generation, data, resend) :: x.sockets := by
      simp [carryOut, opened?, hlisten, Except.toOption]
    refine .serving _ hphase' hc ⟨hbare.drained, fun p hp => ?_, rfl, ⟨data, endpoints.udp, resend, shard⟩, ?_, ?_, rfl⟩
    · rcases List.mem_append.1 hp with hp | hp
      · exact hbare.posted _ hp
      · simp [posting?] at hp
    · unfold gripAfter carryOut
      rw [List.foldl_append]
      rfl
    · rw [hsockets]
      simp
  | detach hphase hgeneration hdetaching hconnection =>
    obtain ⟨hdrained, hunmarked⟩ := h.unmarked hphase
    refine .awaiting .detaching hdetaching ⟨Or.inr ⟨hdrained, x.posted ++ [.task .detach], [], ?_, fun q hq => ?_, ?_⟩, ?_⟩
    · simp [carryOut, posting?]
    · rcases List.mem_append.1 hq with hq | hq
      · exact hunmarked q hq
      · simp at hq
    · simp
    · simp

theorem Stage.moves {x : Station} (h : x.Stage) {env : Surroundings} {effects : List Effect} {l' : PublisherLink}
    (hm : PublisherLink.Moves env x.link effects l') : (x.carryOut env (l', effects)).Stage := by
  generalize hl : x.link = l at hm
  induction hm generalizing x with
  | refl l =>
    rw [carryOut_quiet x env l (by simp), ← hl]
    exact h
  | @step l l₁ l' effects effects' first rest ih =>
    rw [carryOut_append x env l₁]
    exact ih (h.move (hl ▸ first)) rfl

theorem Orderly.command {x : Station} (h : x.Orderly) (env : Surroundings) {task : Task}
    (hreport : ∀ p, task ≠ .drained p) (hover : ¬x.link.Overtakes task) :
    (x.carryOut env (x.link.onTask env task)).Orderly :=
  have hsettles := PublisherLink.settles_onTask h.link env hreport hover
  ⟨hsettles.consistent, h.stage.moves hsettles.moves⟩

/-- Where there is a report, it is the one that the control waits for. -/
theorem Stage.reported {x : Station} (h : x.Stage) {place : Nat} {p : DisconnectPhase}
    (hp : x.drained[place]? = some p) : x.link.phase = some p ∧ x.drained.eraseIdx place = [] ∧
      (∀ e ∈ x.posted, Idle e) ∧ (p = .releasing → grip x.transmitter = (none, false)) := by
  have hne : x.drained ≠ [] := by
    intro hnil
    simp [hnil] at hp
  cases h with
  | bare _ _ hbare => exact absurd hbare.drained hne
  | serving c _ _ hserving => exact absurd hserving.drained hne
  | awaiting q hphase hawaiting =>
    rcases hawaiting.mark with ⟨hdrained, hidle⟩ | ⟨hdrained, -⟩
    · rw [hdrained] at hp ⊢
      obtain ⟨rfl, rfl⟩ : place = 0 ∧ q = p := by
        cases place <;> simp_all
      refine ⟨hphase, rfl, hidle, fun hreleasing => ?_⟩
      rw [← hawaiting.grip hreleasing]
      exact (regrip_idle hidle _).symm
    · exact absurd hdrained hne

theorem quiet_closing (c : Option PublisherLink.Connection) : ∀ e ∈ PublisherLink.closing c, e.Quiet := by
  cases c <;> simp [PublisherLink.closing, Effect.Quiet]

/-- The control takes up a report, and goes on to the next phase or ends the disconnect. -/
theorem orderly_report {x : Station} (h : x.link.Consistent) (env : Surroundings) {p : DisconnectPhase}
    (hphase : x.link.phase = some p) (hdrained : x.drained = []) (hidle : ∀ e ∈ x.posted, Idle e)
    (hgrip : p = .releasing → grip x.transmitter = (none, false)) :
    (x.carryOut env (x.link.onTask env (.drained p))).Orderly := by
  have hsettled := h.settled
  rw [hphase] at hsettled
  show (x.carryOut env (x.link.onDrained env p)).Orderly
  unfold PublisherLink.onDrained
  rw [if_neg (by simp [hphase])]
  cases p with
  | detaching =>
    refine ⟨⟨h.fit, hsettled⟩, .awaiting .draining rfl ⟨Or.inr ⟨hdrained, x.posted, [], ?_, ?_, ?_⟩, ?_⟩⟩
    · cases hc : x.link.connection <;>
        simp [carryOut, PublisherLink.closing, PublisherLink.enterPhase, posting?, List.filterMap_cons]
    · exact not_barrier_of_idle hidle
    · simp
    · simp
  | draining =>
    refine ⟨⟨h.fit, hsettled⟩, .awaiting .releasing rfl
      ⟨Or.inr ⟨hdrained, x.posted ++ [.task .release], [], ?_, fun q hq => ?_, ?_⟩, fun _ => ?_⟩⟩
    · simp [carryOut, PublisherLink.enterPhase, posting?]
    · rcases List.mem_append.1 hq with hq | hq
      · exact hidle _ hq
      · simp at hq
    · simp
    · unfold gripAfter carryOut
      rw [List.foldl_append]
      rfl
  | releasing =>
    have hgone : Stage { x with link := { x.link with phase := none, connection := none } } :=
      .bare rfl rfl ⟨hdrained, hidle, hgrip rfl⟩
    have hsettles := PublisherLink.settles_released h hphase env
    refine ⟨hsettles.consistent, ?_⟩
    have hclosed : x.carryOut env (x.link, PublisherLink.closing x.link.connection) = { x with link := x.link } :=
      carryOut_quiet x env x.link (quiet_closing _)
    show (x.carryOut env (_, PublisherLink.closing x.link.connection ++ _)).Stage
    rw [carryOut_append x env x.link, hclosed]
    exact hgone.moves hsettles.moves

/-! ### Runs without overtaking -/

theorem orderly_step {x : Station} (h : x.Orderly) {e : Event} (hover : ¬x.Overtakes e) : (x.step e).Orderly := by
  cases e with
  | command env task =>
    by_cases hreport : ∃ p, task = .drained p
    · obtain ⟨p, rfl⟩ := hreport
      exact h
    · have htask : x.task? (.command env task) = some (env, task) := by
        cases task <;> first | rfl | exact absurd ⟨_, rfl⟩ hreport
      show (x.obey (x.task? (.command env task))).Orderly
      rw [htask]
      exact h.command env (fun p hp => hreport ⟨p, hp⟩) (fun ho => hover ⟨_, htask, ho⟩)
  | report env place =>
    show (obey { x with drained := x.drained.eraseIdx place } (x.task? (.report env place))).Orderly
    cases hp : x.drained[place]? with
    | none =>
      have htask : x.task? (.report env place) = none := by simp [task?, hp]
      rw [htask, List.eraseIdx_of_length_le (List.getElem?_eq_none_iff.1 hp)]
      exact h
    | some p =>
      have htask : x.task? (.report env place) = some (env, .drained p) := by simp [task?, hp]
      obtain ⟨hphase, hdrained, hidle, hgrip⟩ := h.stage.reported hp
      rw [htask]
      exact orderly_report (x := { x with drained := x.drained.eraseIdx place }) h.link env hphase hdrained hidle hgrip
  | send f => exact ⟨h.link, h.stage.push trivial⟩
  | resend seq count dest => exact ⟨h.link, h.stage.push trivial⟩
  | transmit now =>
    refine ⟨?_, h.stage.transmit now⟩
    unfold step
    dsimp only
    split <;> exact h.link
  | heartbeatTick now stamp =>
    refine ⟨h.link, h.stage.of_grip ?_⟩
    unfold Transmitter.onHeartbeatTick
    split <;> rfl
  | trimTick => exact ⟨h.link, h.stage.of_grip rfl⟩

theorem not_opens_closing (c : Option PublisherLink.Connection) : ∀ e ∈ PublisherLink.closing c, ¬e.Opens :=
  fun e he => (quiet_closing c e he).not_opens

/-- Of the reports only the last one of a disconnect makes the control connect. -/
theorem releasing_of_opens {l : PublisherLink} {env : Surroundings} {p : DisconnectPhase} (hphase : l.phase = some p)
    (ho : ∃ e ∈ (l.onTask env (.drained p)).2, e.Opens) : p = .releasing := by
  obtain ⟨e, he, hopens⟩ := ho
  change e ∈ (l.onDrained env p).2 at he
  unfold PublisherLink.onDrained at he
  rw [if_neg (by simp [hphase])] at he
  cases p with
  | detaching =>
    rcases List.mem_append.1 he with he | he
    · exact absurd hopens (not_opens_closing _ e he)
    · rw [List.mem_singleton.1 he] at hopens
      exact hopens.elim
  | draining =>
    simp only [PublisherLink.enterPhase, List.mem_cons, List.not_mem_nil, or_false] at he
    rcases he with rfl | rfl <;> exact hopens.elim
  | releasing => rfl

theorem Bare.released {x : Station} (h : x.Bare) (hphase : x.link.phase = none) (hnone : x.link.connection = none)
    (e : Event) : x.Released e :=
  ⟨Or.inl ⟨hphase, hnone⟩, congrArg Prod.fst h.grip, fun _ ho => h.posted _ ho⟩

/-- A step without overtaking connects only where everything is released. -/
theorem Orderly.released {x : Station} (h : x.Orderly) {e : Event} (hover : ¬x.Overtakes e) (hc : x.Connects e) :
    x.Released e := by
  obtain ⟨⟨env, task⟩, htask, hopens⟩ := hc
  cases e with
  | command env' task' =>
    have hreport : ∀ p, task' ≠ .drained p := by
      rintro p rfl
      cases htask
    have hsame : x.task? (.command env' task') = some (env', task') := by
      cases task' <;> first | rfl | exact absurd rfl (hreport _)
    obtain ⟨rfl, rfl⟩ : env' = env ∧ task' = task := by
      rw [hsame] at htask
      simpa using htask
    have hsettles := PublisherLink.settles_onTask h.link env' hreport (fun ho => hover ⟨_, htask, ho⟩)
    obtain ⟨hphase, hnone⟩ := hsettles.moves.unconnected hopens
    exact (h.stage.unconnected hphase hnone).released hphase hnone _
  | report env' place =>
    obtain ⟨p, hp, hsame⟩ := Option.map_eq_some_iff.1 htask
    obtain ⟨rfl, rfl⟩ : env' = env ∧ .drained p = task := by simpa using hsame
    obtain ⟨hphase, -, hidle, hgrip⟩ := h.stage.reported hp
    obtain rfl := releasing_of_opens hphase hopens
    exact ⟨Or.inr ⟨hphase, env', htask⟩, congrArg Prod.fst (hgrip rfl), fun _ ho => hidle _ ho⟩
  | _ => cases htask

/-- And a step that overtakes a disconnect does connect during it. -/
theorem Orderly.released_iff {x : Station} (h : x.Orderly) (e : Event) :
    (x.Connects e → x.Released e) ↔ ¬x.Overtakes e := by
  refine ⟨fun hreleased => ?_, fun hover hc => h.released hover hc⟩
  rintro ⟨⟨env, task⟩, htask, hover⟩
  have hopens := PublisherLink.opens_of_overtakes h.link.fit hover env
  rcases (hreleased ⟨_, htask, hopens⟩).link with ⟨hphase, -⟩ | ⟨-, env', hreleasing⟩
  · exact hover.phase_ne_none hphase
  · rw [Option.mem_def.1 htask] at hreleasing
    obtain ⟨-, rfl⟩ : env = env' ∧ task = .drained .releasing := by simpa using hreleasing
    exact hover

theorem Orderly.run {x : Station} (h : x.Orderly) {es : List Event}
    (hover : Throughout (fun x e => ¬x.Overtakes e) x es) : (x.run es).Orderly := by
  induction es generalizing x with
  | nil => exact h
  | cons e rest ih => exact ih (orderly_step h hover.1) hover.2

theorem Orderly.throughout_iff {x : Station} (h : x.Orderly) (es : List Event) :
    Throughout (fun x e => x.Connects e → x.Released e) x es ↔ Throughout (fun x e => ¬x.Overtakes e) x es := by
  induction es generalizing x with
  | nil => exact Iff.rfl
  | cons e rest ih =>
    constructor
    · rintro ⟨hfirst, hrest⟩
      have hover := (h.released_iff e).1 hfirst
      exact ⟨hover, (ih (orderly_step h hover)).1 hrest⟩
    · rintro ⟨hover, hrest⟩
      exact ⟨(h.released_iff e).2 hover, (ih (orderly_step h hover)).2 hrest⟩

theorem Orderly.serves {x : Station} (h : x.Orderly) (hup : x.link.state = .up) : ∃ c, x.Serves c := by
  have hsettled := h.link.settled
  have hstate : x.link.control.machine.state = .up := hup
  cases h.stage with
  | bare hphase hnone _ =>
    rw [hphase, hnone] at hsettled
    simp [PublisherLink.Settled, hstate] at hsettled
  | serving c hphase hc hserving =>
    obtain ⟨o, hgrip, hsockets, hto⟩ := hserving.grip
    refine ⟨c, hphase, hc, hserving.listening, fun now => ?_, fun now => ⟨o, ?_, hsockets, hto⟩⟩
    · exact congrArg Prod.snd ((grip_processed x now).trans hgrip)
    · exact congrArg Prod.fst ((grip_processed x now).trans hgrip)
  | awaiting p hphase _ =>
    rw [hphase] at hsettled
    simp [PublisherLink.Settled, PublisherLink.Leaving, hstate] at hsettled

/-! ### New stations -/

def begin (channel : Channel) (settings : Settings) (now : Instant) : Station :=
  ⟨(PublisherLink.new channel settings).1, .new settings now, [], [], []⟩

theorem orderly_begin (channel : Channel) (settings : Settings) (now : Instant) :
    (begin channel settings now).Orderly := by
  obtain ⟨hlink, hphase, hnone⟩ := PublisherLink.consistent_new channel settings
  exact ⟨hlink, .bare hphase hnone ⟨rfl, by rintro e ⟨⟩, rfl⟩⟩

/-- Connections are opened only where the earlier one is wholly released exactly if no task overtakes a disconnect. And
without that, a link that is up serves its connection, with the transmitter on the sockets of just that connection. -/
theorem released_iff_not_overtakes (channel : Channel) (settings : Settings) (start : Instant) (es : List Event) :
    let x := begin channel settings start
    (Throughout (fun x e => x.Connects e → x.Released e) x es ↔ Throughout (fun x e => ¬x.Overtakes e) x es) ∧
      (Throughout (fun x e => ¬x.Overtakes e) x es → (x.run es).link.state = .up → ∃ c, (x.run es).Serves c) := by
  intro x
  have hx : x.Orderly := orderly_begin channel settings start
  exact ⟨hx.throughout_iff es, fun hover hup => (hx.run hover).serves hup⟩

/-! ### Both kinds of runs -/

/-- Surroundings in which every socket can be opened. -/
def allOpen : Surroundings := ⟨0, fun _ => .ok (1, 2)⟩

def channelAt (port : UInt16) : Channel :=
  .new "md1" ⟨⟨10, 0, 0, 1⟩, port⟩ ⟨⟨239, 1, 1, 1⟩, port⟩ ⟨⟨10, 0, 0, 3⟩, port⟩

/-- All three phases of a disconnect, for a transmitter that has nothing else to do. -/
def phases : List Event :=
  [.transmit 1, .transmit 1, .report allOpen 0, .transmit 2, .report allOpen 0, .transmit 3, .transmit 3,
    .report allOpen 0]

/-- The channel moves to other ports while the link is up. -/
def moved : List Event :=
  [.command allOpen .up, .transmit 0, .command allOpen (.update (channelAt 9100))] ++ phases

theorem serves_moved :
    let x := begin (channelAt 9000) .default 0
    Throughout (fun x e => ¬x.Overtakes e) x moved ∧ Throughout (fun x e => x.Connects e → x.Released e) x moved ∧
      (x.run moved).link.state = .up ∧ ∃ c, (x.run moved).Serves c := by
  intro x
  have hover : Throughout (fun x e => ¬x.Overtakes e) x moved := by decide
  have hup : (x.run moved).link.state = .up := by decide
  obtain ⟨hiff, hserves⟩ := released_iff_not_overtakes (channelAt 9000) .default 0 moved
  exact ⟨hover, hiff.2 hover, hup, hserves hover hup⟩

/-- The channel is disabled, and enabled again on other ports before the disconnect has got anywhere. -/
def overtaken : List Event :=
  [.command allOpen .up, .transmit 0, .command allOpen (.update { channelAt 9000 with enabled := false }),
    .command allOpen (.update (channelAt 9100)), .transmit 1] ++ phases

/-- The disconnect that was overtaken takes the new connection down, and the link goes on to say that it is up. -/
theorem up_without_connection :
    let x := begin (channelAt 9000) .default 0
    ¬Throughout (fun x e => x.Connects e → x.Released e) x overtaken ∧ (x.run overtaken).link.state = .up ∧
      (x.run overtaken).link.phase = none ∧ (x.run overtaken).link.connection = none ∧
        (x.run overtaken).transmitter.outlets = none ∧ (x.run overtaken).posted = [] := by
  intro x
  have hover : ¬Throughout (fun x e => ¬x.Overtakes e) x overtaken := by decide
  refine ⟨fun h => hover ((Orderly.throughout_iff (orderly_begin _ _ _) _).1 h), ?_⟩
  decide

end Station

end ReliableMulticast
