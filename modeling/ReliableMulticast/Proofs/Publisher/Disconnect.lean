import ReliableMulticast.Proofs.Publisher.Heading
import ReliableMulticast.Proofs.Publisher.Station

/-!
# No disconnect is left behind

* `Steady m phase`: what holds of a publisher's link between two tasks, also after a task that overtook a disconnect. A
  machine that waits for the end of a disconnect has one under way;
* `Begins` and `Turns`: how a task moves the disconnect on, and which drains it asks for on the way. Between two reports
  it can only begin, and a report leads to the phase that follows;
* `Rounds`: the drains that were asked for are whole rounds of the three phases, and those of the disconnect under way.

Main statement (`accounted_run`): along every run of a station, the one drain that is outstanding is that of the phase, so
that every report is the one that the control waits for; and the link is heading where the operator wants it.
-/

namespace ReliableMulticast

/-- A state that waits for the end of a disconnect. -/
def Link.State.Waits : Link.State → Prop
  | .disconnecting => True
  | .connectPending => True
  | .reconnecting => True
  | .disconnectPending => True
  | _ => False

/-- The phase that follows in a disconnect. -/
def DisconnectPhase.next? : DisconnectPhase → Option DisconnectPhase
  | .detaching => some .draining
  | .draining => some .releasing
  | .releasing => none

namespace PublisherLink

open Link (State Input Action Machine)

/-! ### Between two tasks -/

structure Steady (m : Machine) (phase : Option DisconnectPhase) : Prop where
  awake : m.state ≠ .connecting
  waits : m.state.Waits → phase ≠ none
  begun : m.state = .disconnectPending → m.begun = true

/-- What holds when an action is still to be carried out. -/
def Expects (m : Machine) (phase : Option DisconnectPhase) : Action → Prop
  | .none => Steady m phase
  | .connect => m.state = .connecting
  | .disconnect => Leaving m
  | .scheduleReconnect _ => m.state = .reconnectPending
  | .cancelReconnect => m.state = .down ∨ m.state = .disabled ∨ m.state = .failed

theorem steady_iff (m : Machine) (phase : Option DisconnectPhase) :
    Steady m phase ↔ m.state ≠ .connecting ∧ (m.state.Waits → phase ≠ none) ∧
      (m.state = .disconnectPending → m.begun = true) := by
  constructor
  · intro h
    exact ⟨h.awake, h.waits, h.begun⟩
  · rintro ⟨hawake, hwaits, hbegun⟩
    exact ⟨hawake, hwaits, hbegun⟩

theorem steady_of_leaving {m : Machine} (h : Leaving m) {phase : Option DisconnectPhase} (hphase : phase ≠ none) :
    Steady m phase := by
  rw [steady_iff]
  rcases h with h | h | h | h | ⟨h, hbegun⟩ <;> simp_all [State.Waits]

theorem expects_command {m : Machine} {phase : Option DisconnectPhase} (h : Steady m phase) {input : Input}
    (hi : input.IsCommand) : Expects (m.step input).1 phase (m.step input).2 := by
  rw [steady_iff] at h
  obtain ⟨state, reconnects, immediate, begun⟩ := m
  cases state <;> rcases input with _ | _ | _ | _ | _ | _ | _ | (_ | _) <;>
    simp_all [Input.IsCommand, Machine.step, Machine.onUp, Machine.onDown, Machine.onReconnect, Machine.onReconnectDue,
      Machine.onFailed, Machine.onEnable, Machine.retire, Machine.goTo, Machine.stay, Expects, Leaving, State.Waits,
      steady_iff]

/-- The end of a disconnect lets a machine wait no longer. -/
theorem expects_disconnected {m : Machine} {phase : Option DisconnectPhase} (h : Steady m phase) :
    Expects (m.step .disconnected).1 none (m.step .disconnected).2 := by
  rw [steady_iff] at h
  obtain ⟨state, reconnects, immediate, begun⟩ := m
  cases state <;>
    simp_all [Machine.step, Machine.onDisconnected, Machine.goTo, Machine.stay, Expects, State.Waits, steady_iff]

/-! ### Drains -/

def Effect.drain? : Effect → Option DisconnectPhase
  | .drain phase => some phase
  | _ => none

def drains (effects : List Effect) : List DisconnectPhase := effects.filterMap Effect.drain?

theorem drains_append (effects effects' : List Effect) : drains (effects ++ effects') = drains effects ++ drains effects' :=
  List.filterMap_append

theorem drains_eq_nil {effects : List Effect} (h : ∀ e ∈ effects, e.Quiet) : drains effects = [] := by
  refine List.filterMap_eq_nil_iff.2 (fun e he => ?_)
  have hquiet := h e he
  cases e <;> first | rfl | exact hquiet.elim

theorem drains_drive (l : PublisherLink) (input : Input) : drains (l.drive input).2.1 = [] :=
  drains_eq_nil (quiet_drive l input)

theorem drains_closing (c : Option Connection) : drains (closing c) = [] := by
  cases c <;> rfl

/-- A disconnect that may begin, with the drains that are asked for. -/
inductive Begins : Option DisconnectPhase → List DisconnectPhase → Option DisconnectPhase → Prop
  | not (phase : Option DisconnectPhase) : Begins phase [] phase
  | begin : Begins none [.detaching] (some .detaching)

theorem Begins.trans {p p' p'' : Option DisconnectPhase} {ds ds' : List DisconnectPhase} (h : Begins p ds p')
    (h' : Begins p' ds' p'') : Begins p (ds ++ ds') p'' := by
  cases h with
  | not => exact h'
  | begin =>
    cases h' with
    | not => exact .begin

/-- A disconnect that begins asks for the drain that it waits for. -/
theorem Begins.toList {p p' : Option DisconnectPhase} {ds : List DisconnectPhase} (h : Begins p ds p') :
    p.toList ++ ds = p'.toList := by
  cases h with
  | not => exact List.append_nil _
  | begin => rfl

/-! ### Actions -/

/-- Where an action leads: what it answers is expected, and there is less to do. -/
structure Pursued (l : PublisherLink) (action : Action) (p : PublisherLink × List Effect × Action) : Prop where
  expects : Expects p.1.control.machine p.1.phase p.2.2
  less : rank p.2.2 < rank action
  begins : Begins l.phase (drains p.2.1) p.1.phase

variable {env : Surroundings}

/-- An input that the machine answers with less to do, fed to a link whose disconnect is where it was. -/
theorem pursued_drive {l : PublisherLink} {action action' : Action} {input : Input} {m : Machine}
    (l' : PublisherLink) (effects : List Effect) (hquiet : drains effects = []) (hphase : l'.phase = l.phase)
    (hstep : l'.control.machine.step input = (m, action')) (hexpects : Expects m l.phase action')
    (hless : rank action' < rank action) :
    Pursued l action ((l'.drive input).1, effects ++ (l'.drive input).2.1, (l'.drive input).2.2) := by
  refine ⟨?_, ?_, ?_⟩
  · show Expects (l'.control.machine.step input).1 l'.phase (l'.control.machine.step input).2
    rw [hstep, hphase]
    exact hexpects
  · show rank (l'.control.machine.step input).2 < rank action
    rw [hstep]
    exact hless
  · show Begins l.phase (drains (effects ++ (l'.drive input).2.1)) l'.phase
    rw [drains_append, hquiet, drains_drive, hphase]
    exact .not l.phase

theorem pursued_connect {l : PublisherLink} (h : l.control.machine.state = .connecting) :
    Pursued l .connect (l.connect env) := by
  unfold PublisherLink.connect
  split
  · next fault hfault =>
    have hfailed : l.control.machine.step .failed = ({ l.control.machine with state := .failed }, .disconnect) := by
      simp [Machine.step, Machine.onFailed, Machine.retire, Machine.goTo, h]
    have hleaving : Leaving { l.control.machine with state := .failed } := Or.inr (Or.inr (Or.inr (Or.inl rfl)))
    exact pursued_drive l [l.alert .error fault.report] rfl rfl hfailed hleaving (by simp [rank])
  · dsimp only
    split
    · next data resend hlisten =>
      have hup : l.control.machine.step .connected =
          ({ l.control.machine with reconnects := 0, state := .up }, .none) := by
        simp [Machine.step, Machine.onConnected, Machine.goTo, h]
      have hsteady : Steady { l.control.machine with reconnects := 0, state := .up } l.phase := by
        simp [steady_iff, State.Waits]
      have hless : rank .none < rank .connect := by simp [rank]
      have hquiet : drains (l.establish (l.channel.endpoints l.control.isSecondary) data resend).2 = [] :=
        drains_closing l.connection
      exact pursued_drive (l := l) _ _ hquiet rfl hup hsteady hless
    · next e hlisten =>
      have hleave : l.control.machine.step (.reconnect false) =
          ({ l.control.machine with
              state := .reconnecting
              reconnects := l.control.machine.reconnects + 1
              immediate := false }, .disconnect) := by
        simp [Machine.step, Machine.onReconnect, Machine.goTo, h]
      have hleaving : Leaving { l.control.machine with
          state := .reconnecting
          reconnects := l.control.machine.reconnects + 1
          immediate := false } := Or.inl rfl
      exact pursued_drive l [.listenInVain _, l.alert .warning _] rfl rfl hleave hleaving (by simp [rank])

theorem pursued_disconnect {l : PublisherLink} (h : Leaving l.control.machine) :
    Pursued l .disconnect (l.perform env .disconnect) := by
  show Pursued l .disconnect (l.startDisconnect.1, l.startDisconnect.2, .none)
  unfold startDisconnect
  split
  · next p hphase =>
    refine ⟨steady_of_leaving h (by simp [hphase]), by simp [rank], ?_⟩
    exact .not l.phase
  · next hphase =>
    refine ⟨steady_of_leaving h (by simp [enterPhase]), by simp [rank], ?_⟩
    rw [hphase]
    exact .begin

theorem pursued {l : PublisherLink} {action : Action} (h : Expects l.control.machine l.phase action)
    (ha : action ≠ .none) : Pursued l action (l.perform env action) := by
  cases action with
  | none => exact absurd rfl ha
  | connect => exact pursued_connect h
  | disconnect => exact pursued_disconnect h
  | scheduleReconnect immediate =>
    have hstate : l.control.machine.state = .reconnectPending := h
    cases immediate with
    | true =>
      have hdue : l.control.machine.step .reconnectDue =
          ({ l.control.machine with state := .connecting }, .connect) := by
        simp [Machine.step, Machine.onReconnectDue, Machine.goTo, hstate]
      exact pursued_drive l [] rfl rfl hdue rfl (by simp [rank])
    | false =>
      refine ⟨?_, by simp [perform, rank], .not l.phase⟩
      show Steady l.control.machine l.phase
      rw [steady_iff, hstate]
      simp [State.Waits]
  | cancelReconnect =>
    refine ⟨?_, by simp [perform, rank], .not l.phase⟩
    show Steady l.control.machine l.phase
    rw [steady_iff]
    rcases h with h | h | h <;> simp [h, State.Waits]

/-- A task, or the rest of one, that leaves the link steady, and at most begins a disconnect where `phase` was under way. -/
structure Keeps (phase : Option DisconnectPhase) (p : PublisherLink × List Effect) : Prop where
  steady : Steady p.1.control.machine p.1.phase
  begins : Begins phase (drains p.2) p.1.phase

section Keeps

variable {l : PublisherLink} {phase phase' : Option DisconnectPhase} {p : PublisherLink × List Effect}

theorem Keeps.after (h' : Keeps phase' p) {effects : List Effect} (h : Begins phase (drains effects) phase') :
    Keeps phase (p.1, effects ++ p.2) where
  steady := h'.steady
  begins := by
    rw [drains_append]
    exact h.trans h'.begins

/-- Effects that ask for no drain may stand before others. -/
theorem Keeps.behind (h : Keeps phase p) {effects : List Effect} (hquiet : drains effects = []) :
    Keeps phase (p.1, effects ++ p.2) := by
  refine h.after ?_
  rw [hquiet]
  exact .not phase

theorem keeps_of_quiet (h : Steady l.control.machine l.phase) {effects : List Effect} (hquiet : drains effects = []) :
    Keeps l.phase (l, effects) := by
  refine ⟨h, ?_⟩
  rw [hquiet]
  exact .not l.phase

theorem keeps_act {action : Action} (h : Expects l.control.machine l.phase action) {fuel : Nat}
    (hf : rank action ≤ fuel) : Keeps l.phase (act env fuel l action) := by
  induction fuel generalizing l action with
  | zero =>
    cases action <;> simp [rank] at hf
    exact keeps_of_quiet h rfl
  | succ fuel ih =>
    by_cases ha : action = .none
    · subst ha
      exact keeps_of_quiet h rfl
    · have step : Pursued l action (l.perform env action) := pursued h ha
      rw [act_succ l ha]
      exact (ih step.expects (by have := step.less; omega)).after step.begins

theorem keeps_driveAndAct {input : Input}
    (h : Expects (l.control.machine.step input).1 l.phase (l.control.machine.step input).2) :
    Keeps l.phase (l.driveAndAct env input) := by
  have hact : Keeps l.phase (act env actLimit (l.drive input).1 (l.drive input).2.2) :=
    keeps_act (l := (l.drive input).1) h (rank_le_actLimit _)
  rw [driveAndAct_eq]
  exact hact.behind (drains_drive l input)

theorem keeps_command (h : Steady l.control.machine l.phase) {input : Input} (hi : input.IsCommand) :
    Keeps l.phase (l.driveAndAct env input) :=
  keeps_driveAndAct (expects_command h hi)

/-! ### Tasks -/

theorem keeps_revive (h : Steady l.control.machine l.phase) : Keeps l.phase (l.revive env) := by
  have henable : (Input.enable true).IsCommand := trivial
  have hup : Input.up.IsCommand := trivial
  have hexpects := expects_command h henable
  rw [Machine.step_enable_true] at hexpects
  have hsteady : Steady (l.drive (.enable true)).1.control.machine (l.drive (.enable true)).1.phase := hexpects
  unfold PublisherLink.revive
  dsimp only
  split
  · exact (keeps_command hsteady hup).behind (drains_drive l (.enable true))
  · exact keeps_of_quiet (l := (l.drive (.enable true)).1) hsteady (drains_drive l (.enable true))

theorem keeps_onUpdate (h : Steady l.control.machine l.phase) (channel : Channel) :
    Keeps l.phase (l.onUpdate env channel) := by
  have hfailed : Input.failed.IsCommand := trivial
  have hdisable : (Input.enable false).IsCommand := trivial
  have hreconnect : (Input.reconnect true).IsCommand := trivial
  unfold PublisherLink.onUpdate
  split
  · exact keeps_of_quiet h rfl
  dsimp only
  split
  · next fault hfault =>
    have hexpects := expects_command h hfailed
    have hact : Keeps l.phase (act env actLimit (PublisherLink.drive { l with channel := channel } .failed).1
        (PublisherLink.drive { l with channel := channel } .failed).2.2) :=
      keeps_act (l := (PublisherLink.drive { l with channel := channel } .failed).1) hexpects (rank_le_actLimit _)
    exact hact.behind (drains_drive { l with channel := channel } .failed)
  · split
    · exact keeps_command (l := { l with channel := channel }) h hdisable
    split
    · exact keeps_revive (l := { l with channel := channel }) h
    · exact keeps_command (l := { l with channel := channel }) h hreconnect

/-- Every task of the control but the report of a phase. -/
theorem keeps_onTask (h : Steady l.control.machine l.phase) (env : Surroundings) {task : Task}
    (hreport : ∀ p, task ≠ .drained p) : Keeps l.phase (l.onTask env task) := by
  cases task with
  | up =>
    have hcommand : Input.up.IsCommand := trivial
    exact keeps_command (l := { l with wantsUp := true }) h hcommand
  | down =>
    have hcommand : Input.down.IsCommand := trivial
    exact keeps_command (l := { l with wantsUp := false }) h hcommand
  | update channel => exact keeps_onUpdate h channel
  | accepted generation conn peer =>
    obtain ⟨ha, hcontrol, -, hquiet⟩ := alike_onAccepted l generation conn peer
    have hsteady : Steady (l.onAccepted generation conn peer).1.control.machine
        (l.onAccepted generation conn peer).1.phase := by
      rw [hcontrol, ha.phase]
      exact h
    exact ha.phase ▸ keeps_of_quiet hsteady (drains_eq_nil hquiet)
  | listenerFailed generation error =>
    have hcommand : (Input.reconnect false).IsCommand := trivial
    have halert : drains [l.alert .warning ("TCP listener failed: " ++ error.message)] = [] := rfl
    unfold PublisherLink.onTask
    dsimp only
    split
    · exact (keeps_command h hcommand).behind halert
    · exact keeps_of_quiet h rfl
  | sessionState generation session state =>
    have hsteady : Steady (l.onSessionState generation session state).control.machine
        (l.onSessionState generation session state).phase := h
    exact keeps_of_quiet hsteady rfl
  | sessionClosed generation session result =>
    obtain ⟨ha, hcontrol, -, hquiet⟩ := alike_onSessionClosed l generation session result
    have hsteady : Steady (l.onSessionClosed generation session result).1.control.machine
        (l.onSessionClosed generation session result).1.phase := by
      rw [hcontrol, ha.phase]
      exact h
    exact ha.phase ▸ keeps_of_quiet hsteady (drains_eq_nil hquiet)
  | drained p => exact absurd rfl (hreport p)
  | reconnectDue =>
    have hcommand : Input.reconnectDue.IsCommand := trivial
    exact keeps_command (l := { l with reconnectAt := none }) h hcommand

end Keeps

/-- The report of a phase leads to the next one, and after the last one another disconnect may begin. -/
theorem turns_onDrained {l : PublisherLink} (h : Steady l.control.machine l.phase) {p : DisconnectPhase}
    (hphase : l.phase = some p) (env : Surroundings) :
    Steady (l.onDrained env p).1.control.machine (l.onDrained env p).1.phase ∧
      ∃ ds, drains (l.onDrained env p).2 = p.next?.toList ++ ds ∧ Begins p.next? ds (l.onDrained env p).1.phase := by
  unfold PublisherLink.onDrained
  rw [if_neg (by simp [hphase])]
  cases p with
  | detaching =>
    refine ⟨⟨h.awake, fun _ => by simp [enterPhase], h.begun⟩, [], ?_, .not _⟩
    show drains (closing l.connection ++ [.drain .draining]) = _
    rw [drains_append, drains_closing]
    rfl
  | draining => exact ⟨⟨h.awake, fun _ => by simp [enterPhase], h.begun⟩, [], rfl, .not _⟩
  | releasing =>
    have hgone : Keeps none (driveAndAct { l with phase := none, connection := none } env .disconnected) :=
      keeps_driveAndAct (l := { l with phase := none, connection := none }) (expects_disconnected h)
    refine ⟨hgone.steady, _, ?_, hgone.begins⟩
    rw [drains_append, drains_closing]
    rfl

theorem steady_new (channel : Channel) (settings : Settings) :
    Steady (new channel settings).1.control.machine (new channel settings).1.phase := by
  obtain ⟨hconsistent, hphase, hnone⟩ := consistent_new channel settings
  have hsettled := hconsistent.settled
  rw [hphase, hnone] at hsettled
  rw [steady_iff]
  rcases hsettled with h | h | h | h <;> simp [h, State.Waits]

end PublisherLink

/-! ### Rounds -/

namespace DisconnectPhase

def round : List DisconnectPhase := [.detaching, .draining, .releasing]

/-- The drains that a disconnect has asked for when it is in a phase. -/
def upTo : Option DisconnectPhase → List DisconnectPhase
  | none => []
  | some .detaching => [.detaching]
  | some .draining => [.detaching, .draining]
  | some .releasing => round

/-- Whole disconnects, and the one under way. -/
def Rounds (ds : List DisconnectPhase) (phase : Option DisconnectPhase) : Prop :=
  ∃ k, ds = (List.replicate k round).flatten ++ upTo phase

variable {ds : List DisconnectPhase}

theorem Rounds.begins {phase phase' : Option DisconnectPhase} {more : List DisconnectPhase} (h : Rounds ds phase)
    (hb : PublisherLink.Begins phase more phase') : Rounds (ds ++ more) phase' := by
  obtain ⟨k, rfl⟩ := h
  cases hb with
  | not => exact ⟨k, by simp⟩
  | begin => exact ⟨k, by simp [upTo]⟩

theorem Rounds.next {p : DisconnectPhase} (h : Rounds ds (some p)) : Rounds (ds ++ p.next?.toList) p.next? := by
  obtain ⟨k, rfl⟩ := h
  cases p with
  | detaching => exact ⟨k, by simp [upTo, next?]⟩
  | draining => exact ⟨k, by simp [upTo, next?, round]⟩
  | releasing => exact ⟨k + 1, by simp [upTo, next?, List.replicate_succ']⟩

end DisconnectPhase

namespace Station

open PublisherLink (Surroundings Task Effect Steady)
open DisconnectPhase (Rounds)

/-! ### Outstanding drains -/

def barrier? : Posting → Option DisconnectPhase
  | .barrier phase => some phase
  | _ => none

/-- The drains that the control has asked for and not been told of, the first one first. -/
def outstanding (x : Station) : List DisconnectPhase := x.drained ++ x.posted.filterMap barrier?

/-- The drains that the control asks for in a step. -/
def requested (x : Station) (e : Event) : List DisconnectPhase :=
  match x.task? e with
  | some (env, task) => PublisherLink.drains (x.link.onTask env task).2
  | none => []

/-- The drain that the control is told of in a step. -/
def reported (x : Station) (e : Event) : List DisconnectPhase :=
  match x.task? e with
  | some (_, .drained phase) => [phase]
  | _ => []

/-- What the steps of a run come with, one after the other. -/
def along (f : Station → Event → List DisconnectPhase) : Station → List Event → List DisconnectPhase
  | _, [] => []
  | x, e :: rest => f x e ++ along f (x.step e) rest

/-- The control waits for the drain that is outstanding, and for nothing else. -/
structure Attentive (x : Station) : Prop where
  steady : Steady x.link.control.machine x.link.phase
  outstanding : x.outstanding = x.link.phase.toList

/-- What a step does to the disconnect. -/
structure Passes (x : Station) (e : Event) : Prop where
  attentive : (x.step e).Attentive
  rounds : ∀ ds, Rounds ds x.link.phase → Rounds (ds ++ x.requested e) (x.step e).link.phase
  reports : x.outstanding ++ x.requested e = x.reported e ++ (x.step e).outstanding

theorem barriers_postings (effects : List Effect) :
    (effects.filterMap posting?).filterMap barrier? = PublisherLink.drains effects := by
  unfold PublisherLink.drains
  rw [List.filterMap_filterMap]
  have hdrain : (fun e => (posting? e).bind barrier?) = Effect.drain? := by
    funext e
    cases e <;> rfl
  rw [hdrain]

theorem outstanding_carryOut (x : Station) (env : Surroundings) (p : PublisherLink × List Effect) :
    (x.carryOut env p).outstanding = x.outstanding ++ PublisherLink.drains p.2 := by
  unfold outstanding carryOut
  rw [List.filterMap_append, barriers_postings, List.append_assoc]

/-- A step that hands the control no task. -/
theorem Attentive.passes_idle {x : Station} (h : x.Attentive) {e : Event} (htask : x.task? e = none)
    (hlink : (x.step e).link = x.link) (hout : (x.step e).outstanding = x.outstanding) : x.Passes e := by
  have hrequested : x.requested e = [] := by simp [requested, htask]
  have hreported : x.reported e = [] := by simp [reported, htask]
  refine ⟨⟨hlink ▸ h.steady, ?_⟩, fun ds hds => ?_, ?_⟩
  · rw [hout, hlink]
    exact h.outstanding
  · rw [hrequested, hlink, List.append_nil]
    exact hds
  · rw [hrequested, hreported, hout, List.append_nil, List.nil_append]

/-- A task other than a report. -/
theorem Attentive.passes_command {x : Station} (h : x.Attentive) (env : Surroundings) {task : Task}
    (hreport : ∀ p, task ≠ .drained p) : x.Passes (.command env task) := by
  have htask : x.task? (.command env task) = some (env, task) := by
    cases task <;> first | rfl | exact absurd rfl (hreport _)
  have hstep : x.step (.command env task) = x.carryOut env (x.link.onTask env task) := by
    show x.obey (x.task? (.command env task)) = _
    rw [htask]
    rfl
  have hrequested : x.requested (.command env task) = PublisherLink.drains (x.link.onTask env task).2 := by
    simp [requested, htask]
  have hreported : x.reported (.command env task) = [] := by
    unfold reported
    rw [htask]
    cases task <;> first | rfl | exact absurd rfl (hreport _)
  have hkeeps := PublisherLink.keeps_onTask h.steady env hreport
  have hout : (x.step (.command env task)).outstanding = x.outstanding ++ x.requested (.command env task) := by
    rw [hstep, outstanding_carryOut, hrequested]
  refine ⟨⟨?_, ?_⟩, fun ds hds => ?_, ?_⟩
  · rw [hstep]
    exact hkeeps.steady
  · rw [hout, h.outstanding, hrequested, hstep]
    exact hkeeps.begins.toList
  · rw [hrequested, hstep]
    exact hds.begins hkeeps.begins
  · rw [hout, hreported]
    rfl

/-- The control is told of the drain that it waits for. -/
theorem Attentive.phase_of_mem {x : Station} (h : x.Attentive) {p : DisconnectPhase} (hp : p ∈ x.drained) :
    x.link.phase = some p := by
  have hmem : p ∈ x.outstanding := List.mem_append_left _ hp
  rw [h.outstanding] at hmem
  simpa using hmem

theorem Attentive.passes_report {x : Station} (h : x.Attentive) (env : Surroundings) {place : Nat} {p : DisconnectPhase}
    (hp : x.drained[place]? = some p) : x.Passes (.report env place) := by
  have htask : x.task? (.report env place) = some (env, .drained p) := by simp [task?, hp]
  have hphase := h.phase_of_mem (List.mem_of_getElem? hp)
  have hout : x.drained ++ x.posted.filterMap barrier? = [p] := by
    have hout := h.outstanding
    rwa [hphase] at hout
  obtain ⟨hdrained, hposted⟩ : x.drained = [p] ∧ x.posted.filterMap barrier? = [] := by
    cases hd : x.drained with
    | nil => simp [hd] at hp
    | cons q rest =>
      rw [hd] at hout
      simp only [List.cons_append, List.cons.injEq, List.append_eq_nil_iff] at hout
      obtain ⟨rfl, rfl, hposted⟩ := hout
      exact ⟨rfl, hposted⟩
  have hplace : x.drained.eraseIdx place = [] := by
    rw [hdrained] at hp ⊢
    cases place with
    | zero => rfl
    | succ place => simp at hp
  have hstep : x.step (.report env place) =
      carryOut { x with drained := [] } env (x.link.onTask env (.drained p)) := by
    show obey { x with drained := x.drained.eraseIdx place } (x.task? (.report env place)) = _
    rw [htask, hplace]
    rfl
  have hrequested : x.requested (.report env place) = PublisherLink.drains (x.link.onDrained env p).2 := by
    unfold requested
    rw [htask]
    rfl
  have hreported : x.reported (.report env place) = [p] := by
    unfold reported
    rw [htask]
  have hafter : (x.step (.report env place)).outstanding = x.requested (.report env place) := by
    rw [hstep, outstanding_carryOut, hrequested]
    show x.posted.filterMap barrier? ++ _ = _
    rw [hposted]
    rfl
  obtain ⟨hsteady, ds', hdrains, hbegins⟩ := PublisherLink.turns_onDrained h.steady hphase env
  have hlink : (x.step (.report env place)).link = (x.link.onDrained env p).1 := by
    rw [hstep]
    rfl
  refine ⟨⟨hlink ▸ hsteady, ?_⟩, fun ds hds => ?_, ?_⟩
  · rw [hafter, hrequested, hdrains, hlink]
    exact hbegins.toList
  · rw [hphase] at hds
    rw [hrequested, hdrains, ← List.append_assoc, hlink]
    exact hds.next.begins hbegins
  · rw [hafter, hreported, h.outstanding, hphase]
    rfl

theorem Attentive.passes {x : Station} (h : x.Attentive) (e : Event) : x.Passes e := by
  cases e with
  | command env task =>
    by_cases hreport : ∃ p, task = .drained p
    · obtain ⟨p, rfl⟩ := hreport
      exact h.passes_idle rfl rfl rfl
    · exact h.passes_command env (fun p hp => hreport ⟨p, hp⟩)
  | report env place =>
    cases hp : x.drained[place]? with
    | some p => exact h.passes_report env hp
    | none =>
      have hlength : x.drained.length ≤ place := List.getElem?_eq_none_iff.1 hp
      have htask : x.task? (.report env place) = none := by simp [task?, hp]
      have hstep : x.step (.report env place) = x := by
        show obey { x with drained := x.drained.eraseIdx place } (x.task? (.report env place)) = x
        rw [htask, List.eraseIdx_of_length_le hlength]
        rfl
      exact h.passes_idle htask (by rw [hstep]) (by rw [hstep])
  | send f => exact h.passes_idle rfl rfl (by simp [Station.outstanding, step, List.filterMap_append, barrier?])
  | resend seq count dest => exact h.passes_idle rfl rfl (by simp [Station.outstanding, step, List.filterMap_append, barrier?])
  | transmit now =>
    have hstep : (x.step (.transmit now)).link = x.link ∧ (x.step (.transmit now)).outstanding = x.outstanding := by
      unfold step
      dsimp only
      split
      · exact ⟨rfl, rfl⟩
      · next phase rest hposted => exact ⟨rfl, by simp [Station.outstanding, hposted, barrier?]⟩
      · next envelope rest hmark hposted =>
        refine ⟨rfl, ?_⟩
        cases envelope with
        | barrier phase => exact absurd rfl (hmark phase)
        | task task => simp [Station.outstanding, hposted, List.filterMap_cons, barrier?]
        | request task caller => simp [Station.outstanding, hposted, List.filterMap_cons, barrier?]
    exact h.passes_idle rfl hstep.1 hstep.2
  | heartbeatTick now stamp => exact h.passes_idle rfl rfl rfl
  | trimTick => exact h.passes_idle rfl rfl rfl

/-! ### Whole runs -/

theorem Attentive.run {x : Station} (h : x.Attentive) (es : List Event) : (x.run es).Attentive := by
  induction es generalizing x with
  | nil => exact h
  | cons e rest ih => exact ih (h.passes e).attentive

theorem Attentive.rounds {x : Station} (h : x.Attentive) {ds : List DisconnectPhase} (hds : Rounds ds x.link.phase)
    (es : List Event) : Rounds (ds ++ along requested x es) (x.run es).link.phase := by
  induction es generalizing x ds with
  | nil =>
    rw [along, List.append_nil]
    exact hds
  | cons e rest ih =>
    have hstep := h.passes e
    rw [along, ← List.append_assoc]
    exact ih hstep.attentive (hstep.rounds ds hds)

theorem Attentive.reports {x : Station} (h : x.Attentive) (es : List Event) :
    x.outstanding ++ along requested x es = along reported x es ++ (x.run es).outstanding := by
  induction es generalizing x with
  | nil => simp [along, Station.run]
  | cons e rest ih =>
    have hstep := h.passes e
    calc x.outstanding ++ along requested x (e :: rest)
        = (x.outstanding ++ x.requested e) ++ along requested (x.step e) rest := by rw [along, List.append_assoc]
      _ = x.reported e ++ ((x.step e).outstanding ++ along requested (x.step e) rest) := by
        rw [hstep.reports, List.append_assoc]
      _ = x.reported e ++ (along reported (x.step e) rest ++ ((x.step e).run rest).outstanding) := by
        rw [ih hstep.attentive]
      _ = along reported x (e :: rest) ++ (x.run (e :: rest)).outstanding := by
        rw [along, List.append_assoc]
        rfl

namespace Event

def wish? : Event → Option Bool
  | .command _ task => task.wish?
  | _ => none

def channel? : Event → Option Channel
  | .command _ task => task.channel?
  | _ => none

end Event

theorem obeys_step {x : Station} {given : Channel} {wants : Bool} (h : x.link.Obeys given wants) (e : Event) :
    (x.step e).link.Obeys (e.channel?.getD given) (e.wish?.getD wants) := by
  cases e with
  | command env task =>
    by_cases hreport : ∃ p, task = .drained p
    · obtain ⟨p, rfl⟩ := hreport
      exact h
    · have htask : x.task? (.command env task) = some (env, task) := by
        cases task <;> first | rfl | exact absurd ⟨_, rfl⟩ hreport
      show (x.obey (x.task? (.command env task))).link.Obeys _ _
      rw [htask]
      exact h.onTask env task
  | report env place =>
    show (obey { x with drained := x.drained.eraseIdx place } (x.task? (.report env place))).link.Obeys given wants
    cases hp : x.drained[place]? with
    | none =>
      rw [show x.task? (.report env place) = none by simp [task?, hp]]
      exact h
    | some p =>
      rw [show x.task? (.report env place) = some (env, .drained p) by simp [task?, hp]]
      exact h.onTask env (.drained p)
  | transmit now =>
    have hlink : (x.step (.transmit now)).link = x.link := by
      unfold step
      dsimp only
      split <;> rfl
    rw [hlink]
    exact h
  | _ => exact h

theorem obeys_run {x : Station} {given : Channel} {wants : Bool} (h : x.link.Obeys given wants) (es : List Event) :
    (x.run es).link.Obeys (lastGiven Event.channel? given es) (lastGiven Event.wish? wants es) := by
  induction es generalizing x given wants with
  | nil => exact h
  | cons e rest ih =>
    rw [lastGiven_cons, lastGiven_cons]
    exact ih (obeys_step h e)

/-- A station at any time, after the drains that were asked for and reported so far, with the channel that it was given
and the operator's wish. -/
structure Accounted (x : Station) (requests reports : List DisconnectPhase) (given : Channel) (wants : Bool) : Prop where
  outstanding : x.outstanding = x.link.phase.toList
  /-- No report is unexpected. -/
  expected : ∀ e env p, x.task? e = some (env, .drained p) → x.link.phase = some p
  rounds : Rounds requests x.link.phase
  reports : requests = reports ++ x.outstanding
  waits : x.link.state.Waits → x.link.phase ≠ none
  awake : x.link.state ≠ .connecting
  channel : x.link.channel = given
  rest : x.link.state = .disabled ∨ x.link.state = .failed ↔ given.enabled = false ∨ given.fault? ≠ none
  wanted : given.Open →
    (x.link.state = .up ∨ x.link.state = .reconnecting ∨ x.link.state = .reconnectPending ∨
      x.link.state = .connectPending ↔ wants = true)

theorem Attentive.expected {x : Station} (h : x.Attentive) {e : Event} {env : Surroundings} {p : DisconnectPhase}
    (htask : x.task? e = some (env, .drained p)) : x.link.phase = some p := by
  cases e with
  | command env' task => cases task <;> cases htask
  | report env' place =>
    obtain ⟨q, hq, heq⟩ := Option.map_eq_some_iff.1 htask
    cases heq
    exact h.phase_of_mem (List.mem_of_getElem? hq)
  | _ => cases htask

theorem wanted_of_heading {s : Link.State} {wants : Bool} (h : s.wish = some wants) (hawake : s ≠ .connecting) :
    s = .up ∨ s = .reconnecting ∨ s = .reconnectPending ∨ s = .connectPending ↔ wants = true := by
  cases s <;> simp_all [Link.State.wish]

/-- Whatever a publisher's link is told to do, and whenever the transmitter gets to what is posted: the drain that is
outstanding is that of the phase, so that a machine that waits for the end of a disconnect is not left behind; and the link
is heading where the operator wants it. -/
theorem accounted_run (channel : Channel) (settings : Settings) (start : Instant) (es : List Event) :
    let x := begin channel settings start
    (x.run es).Accounted (along requested x es) (along reported x es) (lastGiven Event.channel? channel es)
      (lastGiven Event.wish? false es) := by
  intro x
  have hphase : x.link.phase = none := (PublisherLink.consistent_new channel settings).2.1
  have hnone : x.outstanding = [] := rfl
  have hx : x.Attentive := ⟨PublisherLink.steady_new channel settings, by rw [hphase]; rfl⟩
  have hbegin : Rounds [] x.link.phase := ⟨0, by rw [hphase]; rfl⟩
  have hrun := hx.run es
  have hnew : x.link.Obeys channel false := PublisherLink.obeys_new channel settings
  have hobeys := obeys_run hnew es
  refine ⟨hrun.outstanding, fun e env p htask => hrun.expected htask, ?_, ?_, hrun.steady.waits, hrun.steady.awake,
    hobeys.channel, ?_, fun hopen => ?_⟩
  · have hrounds := hx.rounds hbegin es
    rwa [List.nil_append] at hrounds
  · have hreports := hx.reports es
    rwa [hnone, List.nil_append] at hreports
  · rw [← Link.State.wish_eq_none_iff, hobeys.heading]
    exact Channel.wish_eq_none_iff _ _
  · refine wanted_of_heading ?_ hrun.steady.awake
    rw [hobeys.heading]
    exact Channel.wish_of_open hopen _

end Station

end ReliableMulticast
