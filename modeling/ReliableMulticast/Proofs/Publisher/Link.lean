import ReliableMulticast.Proofs.Link.Machine
import ReliableMulticast.Publisher.Link

/-!
# The moves of a publisher's link

* `Consistent l`: what holds of a link between two tasks as long as no task has connected during a disconnect. The link
  is up exactly while it has a connection that is not being given up;
* `Overtakes l task`: the two ways for a task to connect during a disconnect. The operator asks a link to come up that
  was enabled again during the disconnect, or enables a link again that is to be up;
* `Move`: the few ways in which a task changes the connection and the phase, each with the effects that it has.

Main statement (`settles_onTask`): a task that does not overtake the disconnect leaves the link consistent, and connects
only where there is neither a connection nor a disconnect.
-/

namespace ReliableMulticast.PublisherLink

open Link (State Input Action Machine)

/-! ### Between two tasks -/

/-- The channel can be served, unless the link is at rest because of it. -/
def Fit (l : PublisherLink) : Prop := ¬l.control.machine.AtRest → l.channel.fault? = none

/-- States in which a disconnect is wanted. -/
def Leaving (m : Machine) : Prop :=
  m.state = .reconnecting ∨ m.state = .disconnecting ∨ m.state = .disabled ∨ m.state = .failed ∨
    (m.state = .disconnectPending ∧ m.begun = true)

/-- The machine agrees with the connection and the disconnect, and nothing is left to do. -/
def Settled (m : Machine) (connection : Option Connection) : Option DisconnectPhase → Prop
  | none =>
    match connection with
    | none => m.state = .down ∨ m.state = .disabled ∨ m.state = .failed ∨ m.state = .reconnectPending
    | some _ => m.state = .up
  | some _ => Leaving m ∨ m.state = .connectPending ∨ m.state = .down

structure Consistent (l : PublisherLink) : Prop where
  fit : l.Fit
  settled : Settled l.control.machine l.connection l.phase

/-- What holds when an action is still to be carried out. -/
def Owes (m : Machine) (connection : Option Connection) (phase : Option DisconnectPhase) : Action → Prop
  | .none => Settled m connection phase
  | .connect => m.state = .connecting ∧ connection = none ∧ phase = none
  | .disconnect => Leaving m
  | .scheduleReconnect _ => m.state = .reconnectPending ∧ connection = none ∧ phase = none
  | .cancelReconnect =>
    (m.state = .down ∨ m.state = .disabled ∨ m.state = .failed) ∧ connection = none ∧ phase = none

/-- A task that connects during a disconnect. -/
def Overtakes (l : PublisherLink) : Task → Prop
  | .up => l.phase ≠ none ∧ l.state = .down
  | .update channel =>
    l.phase ≠ none ∧ channel ≠ l.channel ∧ channel.fault? = none ∧ channel.enabled = true ∧
      (l.state = .disabled ∨ l.state = .failed) ∧ l.wantsUp = true
  | _ => False

instance (l : PublisherLink) : DecidablePred l.Overtakes := fun task => by
  cases task <;> unfold Overtakes <;> infer_instance

theorem owes_command {m : Machine} {connection : Option Connection} {phase : Option DisconnectPhase}
    (h : Settled m connection phase) (input : Input) (hi : input.IsCommand)
    (hup : input = .up → m.state = .down → phase = none) :
    Owes (m.step input).1 connection phase (m.step input).2 := by
  obtain ⟨state, reconnects, immediate, begun⟩ := m
  cases phase with
  | none =>
    cases connection with
    | none =>
      rcases h with h | h | h | h <;> dsimp only at h <;> subst h <;>
        rcases input with _ | _ | _ | _ | _ | _ | _ | (_ | _) <;>
          simp_all [Input.IsCommand, Machine.step, Machine.onUp, Machine.onDown, Machine.onReconnect,
            Machine.onReconnectDue, Machine.onFailed, Machine.onEnable, Machine.retire, Machine.goTo, Machine.stay,
            Owes, Settled]
    | some c =>
      obtain rfl : state = .up := h
      rcases input with _ | _ | _ | _ | _ | _ | _ | (_ | _) <;>
        simp_all [Input.IsCommand, Machine.step, Machine.onUp, Machine.onDown, Machine.onReconnect,
          Machine.onReconnectDue, Machine.onFailed, Machine.onEnable, Machine.retire, Machine.goTo, Machine.stay, Owes,
          Settled, Leaving]
  | some p =>
    rcases h with (h | h | h | h | ⟨h, hbegun⟩) | h | h <;> dsimp only at h <;> subst h <;>
      rcases input with _ | _ | _ | _ | _ | _ | _ | (_ | _) <;>
        simp_all [Input.IsCommand, Machine.step, Machine.onUp, Machine.onDown, Machine.onReconnect,
          Machine.onReconnectDue, Machine.onFailed, Machine.onEnable, Machine.retire, Machine.goTo, Machine.stay, Owes,
          Settled, Leaving]

theorem Fit.drive {l : PublisherLink} (h : l.Fit) (input : Input)
    (hi : input ≠ .enable true ∨ l.channel.fault? = none) : (l.drive input).1.Fit := by
  intro hawake
  rcases hi with hi | hvalid
  · exact h (fun hrest => hawake (Machine.rest_of_step hi hrest))
  · exact hvalid

/-! ### Moves -/

/-- Neither an attempt to open a connection nor anything for the transmitter. -/
def Effect.Quiet : Effect → Prop
  | .listen .. => False
  | .listenInVain _ => False
  | .transmit _ => False
  | .drain _ => False
  | _ => True

theorem quiet_drive (l : PublisherLink) (input : Input) : ∀ e ∈ (l.drive input).2.1, e.Quiet := by
  intro e he
  obtain ⟨event, -, rfl⟩ := List.mem_map.1 he
  trivial

/-- A connection without its sessions. -/
def Connection.bare (c : Connection) : Connection := { c with sessions := [] }

/-- The same number of connections, the same disconnect and the same connection, its sessions apart. -/
structure Alike (l l' : PublisherLink) : Prop where
  generation : l'.generation = l.generation
  phase : l'.phase = l.phase
  connection : l'.connection.map Connection.bare = l.connection.map Connection.bare

inductive Move (env : Surroundings) : PublisherLink → List Effect → PublisherLink → Prop
  | stay {l l' : PublisherLink} {effects : List Effect} :
    Alike l l' → (∀ e ∈ effects, e.Quiet) → Move env l effects l'
  /-- A connect in vain. -/
  | fail {l l' : PublisherLink} {effects : List Effect} (endpoints : Endpoints) :
    l.connection = none → l.phase = none → Alike l l' → (∀ e ∈ effects, e.Quiet) →
      Move env l (.listenInVain endpoints :: effects) l'
  | connect {l l' : PublisherLink} {effects : List Effect} (endpoints : Endpoints) (data resend : SocketId)
    (shard : Option UInt8) :
    l.connection = none → l.phase = none → env.listen? endpoints = .ok (data, resend) →
      l'.generation = l.generation + 1 → l'.phase = none →
        l'.connection = some ⟨l'.generation, endpoints, true, []⟩ →
          effects = [.listen l'.generation endpoints, .transmit (.attach ⟨data, endpoints.udp, resend, shard⟩)] →
            Move env l effects l'
  | detach {l l' : PublisherLink} :
    l.phase = none → l'.generation = l.generation → l'.phase = some .detaching → l'.connection = l.connection →
      Move env l [.transmit .detach, .drain .detaching] l'

abbrev Moves (env : Surroundings) : PublisherLink → List Effect → PublisherLink → Prop := Link.Chain (Move env)

variable {env : Surroundings}

theorem Move.moves {l l' : PublisherLink} {effects : List Effect} (h : Move env l effects l') :
    Moves env l effects l' :=
  .single h

theorem move_drive (l : PublisherLink) (input : Input) : Move env l (l.drive input).2.1 (l.drive input).1 :=
  .stay ⟨rfl, rfl, rfl⟩ (quiet_drive l input)

/-! ### Actions -/

/-- The most actions that follow from this one, itself included. -/
def rank : Action → Nat
  | .none => 0
  | .disconnect => 1
  | .cancelReconnect => 1
  | .connect => 2
  | .scheduleReconnect _ => 3

/-- Where an action leads: what it answers is owed, and there is less to do. -/
structure Performed (env : Surroundings) (l : PublisherLink) (action : Action)
    (p : PublisherLink × List Effect × Action) : Prop where
  fit : p.1.Fit
  owes : Owes p.1.control.machine p.1.connection p.1.phase p.2.2
  less : rank p.2.2 < rank action
  moves : Moves env l p.2.1 p.1

theorem performed_connect {l : PublisherLink} (h : l.Fit)
    (ho : Owes l.control.machine l.connection l.phase .connect) : Performed env l .connect (l.connect env) := by
  obtain ⟨hstate, hnone, hphase⟩ := ho
  have hvalid : l.channel.fault? = none := h (by simp [Machine.AtRest, hstate])
  unfold PublisherLink.connect
  rw [hvalid]
  dsimp only
  split
  · next data resend hlisten =>
    have hup : l.control.machine.step .connected =
        ({ l.control.machine with reconnects := 0, state := .up }, .none) := by
      simp [Machine.step, Machine.onConnected, Machine.goTo, hstate]
    have hopened : Move env l (l.establish (l.channel.endpoints l.control.isSecondary) data resend).2
        (l.establish (l.channel.endpoints l.control.isSecondary) data resend).1 := by
      refine .connect _ data resend l.channel.shard hnone hphase hlisten rfl hphase rfl ?_
      simp [establish, hnone, closing]
    refine ⟨fun _ => hvalid, ?_, ?_, .step hopened (move_drive _ .connected).moves⟩
    · show Owes (l.control.machine.step .connected).1 _ l.phase (l.control.machine.step .connected).2
      rw [hup, hphase]
      rfl
    · show rank (l.control.machine.step .connected).2 < _
      rw [hup]
      simp [rank]
  · next e hlisten =>
    have hleave : l.control.machine.step (.reconnect false) =
        ({ l.control.machine with
            state := .reconnecting
            reconnects := l.control.machine.reconnects + 1
            immediate := false }, .disconnect) := by
      simp [Machine.step, Machine.onReconnect, Machine.goTo, hstate]
    refine ⟨h.drive (.reconnect false) (Or.inl (by simp)), ?_, ?_, Move.moves ?_⟩
    · show Owes (l.control.machine.step (.reconnect false)).1 _ _ (l.control.machine.step (.reconnect false)).2
      rw [hleave]
      exact Or.inl rfl
    · show rank (l.control.machine.step (.reconnect false)).2 < _
      rw [hleave]
      simp [rank]
    · refine .fail _ hnone hphase ⟨rfl, rfl, rfl⟩ (fun e' he' => ?_)
      rcases List.mem_cons.1 he' with rfl | he'
      · trivial
      · exact quiet_drive l (.reconnect false) e' he'

theorem performed_disconnect {l : PublisherLink} (h : l.Fit) (ho : Leaving l.control.machine) :
    Performed env l .disconnect (l.perform env .disconnect) := by
  show Performed env l .disconnect (l.startDisconnect.1, l.startDisconnect.2, .none)
  unfold startDisconnect
  split
  · next p hphase =>
    refine ⟨h, ?_, by simp [rank], .refl l⟩
    show Settled _ _ l.phase
    rw [hphase]
    exact Or.inl ho
  · next hphase => exact ⟨h, Or.inl ho, by simp [rank], Move.moves (.detach hphase rfl rfl rfl)⟩

theorem performed {l : PublisherLink} (h : l.Fit) {action : Action}
    (ho : Owes l.control.machine l.connection l.phase action) (ha : action ≠ .none) :
    Performed env l action (l.perform env action) := by
  cases action with
  | none => exact absurd rfl ha
  | connect => exact performed_connect h ho
  | disconnect => exact performed_disconnect h ho
  | scheduleReconnect immediate =>
    obtain ⟨hstate, hnone, hphase⟩ := ho
    cases immediate with
    | true =>
      have hdue : l.control.machine.step .reconnectDue =
          ({ l.control.machine with state := .connecting }, .connect) := by
        simp [Machine.step, Machine.onReconnectDue, Machine.goTo, hstate]
      refine ⟨h.drive .reconnectDue (Or.inl (by simp)), ?_, ?_, (move_drive l .reconnectDue).moves⟩
      · show Owes (l.control.machine.step .reconnectDue).1 _ _ (l.control.machine.step .reconnectDue).2
        rw [hdue]
        exact ⟨rfl, hnone, hphase⟩
      · show rank (l.control.machine.step .reconnectDue).2 < _
        rw [hdue]
        simp [rank]
    | false =>
      refine ⟨h, ?_, by simp [perform, rank], ?_⟩
      · show Settled l.control.machine l.connection l.phase
        rw [hnone, hphase]
        exact Or.inr (Or.inr (Or.inr hstate))
      · exact Move.moves (.stay ⟨rfl, rfl, rfl⟩ (by simp [perform]))
  | cancelReconnect =>
    obtain ⟨hstate, hnone, hphase⟩ := ho
    refine ⟨h, ?_, by simp [perform, rank], ?_⟩
    · show Settled l.control.machine l.connection l.phase
      rw [hnone, hphase]
      rcases hstate with hstate | hstate | hstate
      · exact Or.inl hstate
      · exact Or.inr (Or.inl hstate)
      · exact Or.inr (Or.inr (Or.inl hstate))
    · exact Move.moves (.stay ⟨rfl, rfl, rfl⟩ (by simp [perform]))

/-- A task, or the rest of one, that does nothing but moves and leaves the link consistent. -/
structure Settles (env : Surroundings) (l : PublisherLink) (p : PublisherLink × List Effect) : Prop where
  consistent : p.1.Consistent
  moves : Moves env l p.2 p.1

theorem Settles.after {l l' : PublisherLink} {effects : List Effect} {p : PublisherLink × List Effect}
    (h' : Settles env l' p) (h : Moves env l effects l') : Settles env l (p.1, effects ++ p.2) :=
  ⟨h'.consistent, h.trans h'.moves⟩

theorem Consistent.settles {l : PublisherLink} (h : l.Consistent) : Settles env l (l, []) := ⟨h, .refl l⟩

/-- An action, and then those that follow from it. -/
theorem act_succ (l : PublisherLink) {action : Action} (ha : action ≠ .none) (fuel : Nat) :
    act env (fuel + 1) l action =
      ((act env fuel (l.perform env action).1 (l.perform env action).2.2).1,
        (l.perform env action).2.1 ++ (act env fuel (l.perform env action).1 (l.perform env action).2.2).2) := by
  cases action <;> first | exact absurd rfl ha | rfl

theorem settles_act {l : PublisherLink} (h : l.Fit) {action : Action}
    (ho : Owes l.control.machine l.connection l.phase action) {fuel : Nat} (hf : rank action ≤ fuel) :
    Settles env l (act env fuel l action) := by
  induction fuel generalizing l action with
  | zero =>
    cases action <;> simp [rank] at hf
    exact Consistent.settles ⟨h, ho⟩
  | succ fuel ih =>
    by_cases ha : action = .none
    · subst ha
      exact Consistent.settles ⟨h, ho⟩
    · have step : Performed env l action (l.perform env action) := performed h ho ha
      rw [act_succ l ha]
      exact (ih step.fit step.owes (by have := step.less; omega)).after step.moves

theorem rank_le_actLimit (action : Action) : rank action ≤ actLimit := by
  cases action <;> simp [rank, actLimit]

theorem driveAndAct_eq (l : PublisherLink) (env : Surroundings) (input : Input) :
    l.driveAndAct env input =
      ((act env actLimit (l.drive input).1 (l.drive input).2.2).1,
        (l.drive input).2.1 ++ (act env actLimit (l.drive input).1 (l.drive input).2.2).2) := by
  unfold driveAndAct
  rcases l.drive input with ⟨l', effects, action⟩
  dsimp only

theorem settles_driveAndAct {l : PublisherLink} (input : Input) (h : (l.drive input).1.Fit)
    (ho : Owes (l.drive input).1.control.machine (l.drive input).1.connection (l.drive input).1.phase
      (l.drive input).2.2) : Settles env l (l.driveAndAct env input) := by
  rw [driveAndAct_eq]
  exact (settles_act h ho (rank_le_actLimit _)).after (move_drive l input).moves

theorem settles_command {l : PublisherLink} (h : l.Consistent) (input : Input) (hi : input.IsCommand)
    (hr : input ≠ .enable true) (hup : input = .up → l.state = .down → l.phase = none) :
    Settles env l (l.driveAndAct env input) :=
  settles_driveAndAct input (h.fit.drive input (Or.inl hr)) (owes_command h.settled input hi hup)

/-! ### Tasks -/

/-- Nothing but wishes, timers and sessions is different. -/
theorem Consistent.of_alike {l l' : PublisherLink} (h : l.Consistent) (ha : Alike l l')
    (hcontrol : l'.control = l.control) (hchannel : l'.channel = l.channel) : l'.Consistent := by
  refine ⟨?_, ?_⟩
  · unfold Fit
    rw [hcontrol, hchannel]
    exact h.fit
  · have hsettled := h.settled
    rw [hcontrol, ha.phase]
    cases hphase : l.phase with
    | some p =>
      rw [hphase] at hsettled
      exact hsettled
    | none =>
      rw [hphase] at hsettled
      have hconnection := ha.connection
      cases hc : l.connection <;> cases hc' : l'.connection <;> rw [hc, hc'] at hconnection <;>
        simp_all [Settled]

theorem Alike.moves {l l' : PublisherLink} (ha : Alike l l') : Moves env l [] l' :=
  Move.moves (.stay ha (by simp))

theorem settles_revive {l : PublisherLink} (h : l.Consistent) (hvalid : l.channel.fault? = none)
    (hphase : l.wantsUp = true → l.phase = none) : Settles env l (l.revive env) := by
  have howes : Owes _ _ _ (l.control.machine.step (.enable true)).2 :=
    owes_command h.settled (.enable true) trivial (by simp)
  rw [Machine.step_enable_true] at howes
  have henabled : (l.drive (.enable true)).1.Consistent := ⟨h.fit.drive (.enable true) (Or.inr hvalid), howes⟩
  have hmove : Moves env l _ (l.drive (.enable true)).1 := (move_drive l (.enable true)).moves
  unfold PublisherLink.revive
  dsimp only
  split
  · next hwants =>
    exact (settles_command henabled .up trivial (by simp) (fun _ _ => hphase hwants)).after hmove
  · exact ⟨henabled, hmove⟩

theorem settles_onUpdate {l : PublisherLink} (h : l.Consistent) {channel : Channel}
    (hover : ¬Overtakes l (.update channel)) : Settles env l (l.onUpdate env channel) := by
  have hmove : Moves env l [] { l with channel := channel } := Alike.moves ⟨rfl, rfl, rfl⟩
  unfold PublisherLink.onUpdate
  split
  · exact h.settles
  dsimp only
  split
  · next fault hfault =>
    have hfit : (PublisherLink.drive { l with channel := channel } .failed).1.Fit :=
      fun hawake => absurd (Machine.rest_of_failed l.control.machine) hawake
    have howes : Owes _ l.connection l.phase _ := owes_command h.settled .failed trivial (by simp)
    refine (settles_act hfit howes (rank_le_actLimit _)).after (Move.moves (.stay ⟨rfl, rfl, rfl⟩ (fun e he => ?_)))
    rcases List.mem_cons.1 he with rfl | he
    · trivial
    · exact quiet_drive _ .failed e he
  · next hne _ hvalid =>
    have hnew : Consistent { l with channel := channel } := ⟨fun _ => hvalid, h.settled⟩
    split
    · exact (settles_command hnew (.enable false) trivial (by simp) (by simp)).after hmove
    split
    · next henabled hrest =>
      refine (settles_revive hnew hvalid (fun hwants => Classical.byContradiction fun hphase => ?_)).after hmove
      exact hover ⟨hphase, hne, hvalid, by simpa using henabled, hrest, hwants⟩
    · exact (settles_command hnew (.reconnect true) trivial (by simp) (by simp)).after hmove

/-- The last phase of a disconnect ends it. -/
theorem settles_released {l : PublisherLink} (h : l.Consistent) (hphase : l.phase = some .releasing)
    (env : Surroundings) :
    Settles env { l with phase := none, connection := none }
      (driveAndAct { l with phase := none, connection := none } env .disconnected) := by
  have hfit : Fit { l with phase := none, connection := none } := h.fit
  have hsettled := h.settled
  rw [hphase] at hsettled
  have howes : Owes (l.control.machine.step .disconnected).1 none none (l.control.machine.step .disconnected).2 := by
    generalize l.control.machine = m at hsettled
    obtain ⟨state, reconnects, immediate, begun⟩ := m
    rcases hsettled with (h | h | h | h | ⟨h, -⟩) | h | h <;> dsimp only at h <;> subst h <;>
      simp [Machine.step, Machine.onDisconnected, Machine.goTo, Machine.stay, Owes, Settled]
  exact settles_driveAndAct .disconnected (hfit.drive .disconnected (Or.inl (by simp))) howes

theorem alike_onAccepted (l : PublisherLink) (generation : Nat) (conn : ConnId) (peer : Endpoint) :
    Alike l (l.onAccepted generation conn peer).1 ∧ (l.onAccepted generation conn peer).1.control = l.control ∧
      (l.onAccepted generation conn peer).1.channel = l.channel ∧
        ∀ e ∈ (l.onAccepted generation conn peer).2, e.Quiet := by
  unfold PublisherLink.onAccepted
  split
  · next c hc =>
    split
    · exact ⟨⟨rfl, rfl, by simp [hc, Connection.bare]⟩, rfl, rfl, by simp [Effect.Quiet]⟩
    · exact ⟨⟨rfl, rfl, rfl⟩, rfl, rfl, by simp [Effect.Quiet]⟩
  · exact ⟨⟨rfl, rfl, rfl⟩, rfl, rfl, by simp [Effect.Quiet]⟩

theorem alike_onSessionState (l : PublisherLink) (generation : Nat) (session : SessionId) (state : Link.TcpState) :
    Alike l (l.onSessionState generation session state) := by
  refine ⟨rfl, rfl, ?_⟩
  unfold PublisherLink.onSessionState
  cases l.connection with
  | none => rfl
  | some c =>
    simp only [Option.map_some]
    split <;> simp [Connection.bare]

theorem alike_onSessionClosed (l : PublisherLink) (generation : Nat) (session : SessionId)
    (result : Except SessionFailure Bool) :
    Alike l (l.onSessionClosed generation session result).1 ∧
      (l.onSessionClosed generation session result).1.control = l.control ∧
        (l.onSessionClosed generation session result).1.channel = l.channel ∧
          ∀ e ∈ (l.onSessionClosed generation session result).2, e.Quiet := by
  unfold PublisherLink.onSessionClosed
  split
  · next c hc =>
    split
    · split
      · next entry hentry =>
        refine ⟨⟨rfl, rfl, by simp [hc, Connection.bare]⟩, rfl, rfl, fun e he => ?_⟩
        cases hm : closedMessage? entry.peer result <;> simp [hm] at he
        subst he
        trivial
      · exact ⟨⟨rfl, rfl, rfl⟩, rfl, rfl, by simp⟩
    · exact ⟨⟨rfl, rfl, rfl⟩, rfl, rfl, by simp⟩
  · exact ⟨⟨rfl, rfl, rfl⟩, rfl, rfl, by simp⟩

/-- Every task of the control but the report of a phase. -/
theorem settles_onTask {l : PublisherLink} (h : l.Consistent) (env : Surroundings) {task : Task}
    (hreport : ∀ p, task ≠ .drained p) (hover : ¬Overtakes l task) : Settles env l (l.onTask env task) := by
  cases task with
  | up =>
    have ha : Alike l { l with wantsUp := true } := ⟨rfl, rfl, rfl⟩
    refine (settles_command (h.of_alike ha rfl rfl) .up trivial (by simp) (fun _ hdown => ?_)).after ha.moves
    exact Classical.byContradiction fun hphase => hover ⟨hphase, hdown⟩
  | down =>
    have ha : Alike l { l with wantsUp := false } := ⟨rfl, rfl, rfl⟩
    exact (settles_command (h.of_alike ha rfl rfl) .down trivial (by simp) (by simp)).after ha.moves
  | update channel => exact settles_onUpdate h hover
  | accepted generation conn peer =>
    obtain ⟨ha, hcontrol, hchannel, hquiet⟩ := alike_onAccepted l generation conn peer
    exact ⟨h.of_alike ha hcontrol hchannel, Move.moves (.stay ha hquiet)⟩
  | listenerFailed generation error =>
    unfold PublisherLink.onTask
    dsimp only
    split
    · have halert : Moves env l [l.alert .warning ("TCP listener failed: " ++ error.message)] l :=
        Move.moves (.stay ⟨rfl, rfl, rfl⟩ (by simp [alert, Effect.Quiet]))
      exact (settles_command h (.reconnect false) trivial (by simp) (by simp)).after halert
    · exact h.settles
  | sessionState generation session state =>
    have ha := alike_onSessionState l generation session state
    exact ⟨h.of_alike ha rfl rfl, ha.moves⟩
  | sessionClosed generation session result =>
    obtain ⟨ha, hcontrol, hchannel, hquiet⟩ := alike_onSessionClosed l generation session result
    exact ⟨h.of_alike ha hcontrol hchannel, Move.moves (.stay ha hquiet)⟩
  | drained p => exact absurd rfl (hreport p)
  | reconnectDue =>
    have ha : Alike l { l with reconnectAt := none } := ⟨rfl, rfl, rfl⟩
    exact (settles_command (h.of_alike ha rfl rfl) .reconnectDue trivial (by simp) (by simp)).after ha.moves

theorem consistent_new (channel : Channel) (settings : Settings) :
    (new channel settings).1.Consistent ∧ (new channel settings).1.phase = none ∧
      (new channel settings).1.connection = none := by
  unfold PublisherLink.new
  dsimp only
  split
  · next fault hfault =>
    have hrest := Machine.rest_of_failed (Machine.new channel.enabled)
    refine ⟨⟨fun hawake => absurd hrest hawake, Or.inr ?_⟩, rfl, rfl⟩
    rcases hrest with hrest | hrest
    · exact Or.inl hrest
    · exact Or.inr (Or.inl hrest)
  · next hvalid =>
    refine ⟨⟨fun _ => hvalid, ?_⟩, rfl, rfl⟩
    cases henabled : channel.enabled with
    | true => exact Or.inl (by simp [Link.Control.new, Machine.new])
    | false => exact Or.inr (Or.inl (by simp [Link.Control.new, Machine.new]))

/-! ### Opening a connection -/

/-- An attempt to open a connection, in vain or not. -/
def Effect.Opens : Effect → Prop
  | .listen .. => True
  | .listenInVain _ => True
  | _ => False

theorem Effect.Quiet.not_opens {e : Effect} (h : e.Quiet) : ¬e.Opens := by
  cases e <;> first | exact h.elim | exact id

/-- Moves open a connection only where there is neither a connection nor a disconnect. -/
theorem Moves.unconnected {l l' : PublisherLink} {effects : List Effect} (h : Moves env l effects l')
    (ho : ∃ e ∈ effects, e.Opens) : l.phase = none ∧ l.connection = none := by
  induction h with
  | refl l => simp at ho
  | @step l l' l'' effects effects' first rest ih =>
    obtain ⟨e, he, hopens⟩ := ho
    rcases List.mem_append.1 he with he | he
    · cases first with
      | stay ha hquiet => exact absurd hopens (hquiet e he).not_opens
      | fail endpoints hnone hphase ha hquiet => exact ⟨hphase, hnone⟩
      | connect endpoints data resend shard hnone hphase => exact ⟨hphase, hnone⟩
      | detach hphase => simp at he; rcases he with rfl | rfl <;> exact hopens.elim
    · obtain ⟨hphase', hnone'⟩ := ih ⟨e, he, hopens⟩
      cases first with
      | stay ha hquiet =>
        have hconnection := ha.connection
        rw [hnone'] at hconnection
        exact ⟨ha.phase ▸ hphase', by simpa using hconnection.symm⟩
      | fail endpoints hnone hphase ha hquiet => exact ⟨hphase, hnone⟩
      | connect endpoints data resend shard hnone hphase => exact ⟨hphase, hnone⟩
      | detach hphase hgeneration hdetaching => rw [hdetaching] at hphase'; cases hphase'

theorem opens_connect {l : PublisherLink} (h : l.channel.fault? = none) (env : Surroundings) :
    ∃ e ∈ (l.connect env).2.1, e.Opens := by
  unfold PublisherLink.connect
  rw [h]
  dsimp only
  split
  · exact ⟨_, List.mem_append_left _ (List.mem_cons_self), trivial⟩
  · exact ⟨_, List.mem_cons_self, trivial⟩

theorem opens_driveAndAct_up {l : PublisherLink} (h : l.channel.fault? = none) (hdown : l.state = .down)
    (env : Surroundings) :
    ∃ e ∈ (l.driveAndAct env .up).2, e.Opens := by
  have hup : l.control.machine.step .up = ({ l.control.machine with state := .connecting }, .connect) := by
    have hstate : l.control.machine.state = .down := hdown
    simp [Machine.step, Machine.onUp, Machine.goTo, hstate]
  obtain ⟨e, he, hopens⟩ := opens_connect (l := (l.drive .up).1) h env
  refine ⟨e, ?_, hopens⟩
  rw [driveAndAct_eq, show (l.drive .up).2.2 = .connect from congrArg Prod.snd hup]
  exact List.mem_append_right _ (List.mem_append_left _ he)

/-- A task that overtakes a disconnect does connect. -/
theorem opens_of_overtakes {l : PublisherLink} (h : l.Fit) {task : Task} (ho : Overtakes l task)
    (env : Surroundings) :
    ∃ e ∈ (l.onTask env task).2, e.Opens := by
  cases task with
  | up =>
    obtain ⟨-, hdown⟩ := ho
    have hstate : l.control.machine.state = .down := hdown
    exact opens_driveAndAct_up (l := { l with wantsUp := true }) (h (by simp [Machine.AtRest, hstate])) hdown env
  | update channel =>
    obtain ⟨-, hne, hvalid, henabled, hrest, hwants⟩ := ho
    have hdown : (l.control.machine.step (.enable true)).1.state = .down := by
      rcases hrest with hrest | hrest <;>
        · have hstate : l.control.machine.state = _ := hrest
          simp [Machine.step, Machine.onEnable, Machine.goTo, hstate]
    obtain ⟨e, he, hopens⟩ := opens_driveAndAct_up
      (l := (PublisherLink.drive { l with channel := channel } (.enable true)).1) hvalid hdown env
    refine ⟨e, ?_, hopens⟩
    show e ∈ (l.onUpdate env channel).2
    unfold PublisherLink.onUpdate
    rw [if_neg hne]
    dsimp only
    rw [hvalid]
    dsimp only
    rw [if_neg (by simp [henabled]), if_pos (by exact hrest)]
    unfold PublisherLink.revive
    dsimp only
    rw [if_pos (by exact hwants)]
    exact List.mem_append_right _ he
  | _ => exact ho.elim

theorem Overtakes.phase_ne_none {l : PublisherLink} {task : Task} (h : Overtakes l task) : l.phase ≠ none := by
  cases task <;> first | exact h.1 | exact h.elim

end ReliableMulticast.PublisherLink
