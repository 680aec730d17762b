import ReliableMulticast.Proofs.Link.Machine
import ReliableMulticast.Proofs.Subscriber.Window

/-!
# The moves of a subscriber's link

* `Consistent l`: what holds of a link between two tasks. A link is connected exactly in the states `connecting`, `up`
  and `disconnectPending`, and it is up exactly after the login was acknowledged;
* `Owes`: what holds in the middle of a task, when the machine has asked for an action that is still to be carried out;
* `Move`: the few ways in which a task changes the connection, each with the effects that it has.

Main statement (`settles_onTask`): a task that finds the link consistent leaves it so, and all that it does is moves.
-/

namespace ReliableMulticast.SubscriberLink

open Link (State Input Action Machine)

/-! ### Between two tasks -/

/-- What holds of a link at any time, also in the middle of a task. -/
structure Sound (l : SubscriberLink) : Prop where
  /-- The channel can be followed, unless the link is at rest because of it. -/
  channel : ¬l.control.machine.AtRest → l.channel.fault? = none
  generation : ∀ c, l.connection = some c → c.generation = l.generation
  /-- A receiver is queuing until the TCP connection has done its work. -/
  window : ∀ c, l.connection = some c → c.Window (fun _ => True) (fun _ => True)

/-- The machine and the connection agree, and nothing is left to do. -/
def Settled (m : Machine) : Option Connection → Prop
  | none => m.state = .down ∨ m.state = .disabled ∨ m.state = .failed ∨ m.state = .reconnectPending
  | some c =>
    (m.state = .up ∧ c.tcpState ≠ .login) ∨
      ((m.state = .connecting ∨ (m.state = .disconnectPending ∧ m.begun = false)) ∧ c.tcpState = .login)

structure Consistent (l : SubscriberLink) : Prop where
  sound : l.Sound
  settled : Settled l.control.machine l.connection

/-- What holds of the machine and the connection when an action is still to be carried out. -/
def Owes (m : Machine) (connection : Option Connection) : Action → Prop
  | .none => Settled m connection
  | .connect => m.state = .connecting ∧ connection = none
  | .disconnect =>
    m.state = .reconnecting ∨ m.state = .disconnecting ∨ m.state = .disabled ∨ m.state = .failed ∨
      (m.state = .disconnectPending ∧ m.begun = true)
  | .scheduleReconnect _ => m.state = .reconnectPending ∧ connection = none
  | .cancelReconnect => (m.state = .down ∨ m.state = .disabled ∨ m.state = .failed) ∧ connection = none

theorem owes_command {m : Machine} {connection : Option Connection} (h : Settled m connection) (input : Input)
    (hi : input.IsCommand) : Owes (m.step input).1 connection (m.step input).2 := by
  obtain ⟨state, reconnects, immediate, begun⟩ := m
  cases connection with
  | none =>
    rcases h with h | h | h | h <;> dsimp only at h <;> subst h <;>
      rcases input with _ | _ | _ | _ | _ | _ | _ | (_ | _) <;>
        simp_all [Input.IsCommand, Machine.step, Machine.onUp, Machine.onDown, Machine.onReconnect, Machine.onReconnectDue,
          Machine.onFailed, Machine.onEnable, Machine.retire, Machine.goTo, Machine.stay, Owes, Settled]
  | some c =>
    rcases h with ⟨h, hlogin⟩ | ⟨h | ⟨h, hbegun⟩, hlogin⟩ <;> dsimp only at h <;> subst h <;>
      rcases input with _ | _ | _ | _ | _ | _ | _ | (_ | _) <;>
        simp_all [Input.IsCommand, Machine.step, Machine.onUp, Machine.onDown, Machine.onReconnect, Machine.onReconnectDue,
          Machine.onFailed, Machine.onEnable, Machine.retire, Machine.goTo, Machine.stay, Owes, Settled]

theorem Sound.drive {l : SubscriberLink} (h : l.Sound) (input : Input)
    (hi : input ≠ .enable true ∨ l.channel.fault? = none) : (l.drive input).1.Sound where
  channel := by
    intro hawake
    rcases hi with hi | hvalid
    · refine h.channel (fun hrest => hawake ?_)
      exact Machine.rest_of_step hi hrest
    · exact hvalid
  generation := h.generation
  window := h.window

/-! ### Effects -/

/-- Neither a connect nor a call to the application. -/
def Effect.Quiet : Effect → Prop
  | .deliver _ => False
  | .connect .. => False
  | _ => True

/-- The state of a link as those learn it who watch its effects. -/
def Effect.stateAfter (s : State) : Effect → State
  | .notify e =>
    match e.report with
    | .stateChanged _ new _ => new
    | .alert .. => s
  | _ => s

/-- Quiet effects that tell of the way from one state to another. -/
structure Told (s : State) (effects : List Effect) (s' : State) : Prop where
  quiet : ∀ e ∈ effects, e.Quiet
  state : effects.foldl Effect.stateAfter s = s'

theorem told_nil (s : State) : Told s [] s := ⟨by simp, rfl⟩

theorem Told.append {s s' s'' : State} {effects effects' : List Effect} (h : Told s effects s')
    (h' : Told s' effects' s'') : Told s (effects ++ effects') s'' where
  quiet := by
    intro e he
    rcases List.mem_append.1 he with he | he
    · exact h.quiet e he
    · exact h'.quiet e he
  state := by rw [List.foldl_append, h.state, h'.state]

theorem Told.cons {s s' : State} {e : Effect} {effects : List Effect} (hq : e.Quiet) (hs : e.stateAfter s = s)
    (h : Told s effects s') : Told s (e :: effects) s' :=
  have hfirst : Told s [e] s := ⟨by simpa using hq, by simpa using hs⟩
  hfirst.append h

/-- The machine reports its changes of state. -/
theorem told_drive (l : SubscriberLink) (input : Input) :
    Told l.state (l.drive input).2.1 (l.drive input).1.state := by
  unfold SubscriberLink.drive Link.Control.drive
  dsimp only
  split
  · next h => exact ⟨by simp, h.symm⟩
  · refine ⟨?_, rfl⟩
    simp [Effect.Quiet]

/-! ### Moves -/

/-- The calls that a task may make to the receiver of a connection of this generation. -/
inductive Task.Makes : Task → Nat → Receiver.Call → Prop
  | frame (g : Nat) (f : Frame) : Makes (.udp g f) g (.frame f)
  | snapshotFrame (g : Nat) (f : Frame) : f.isControl = false → Makes (.tcpFrame g f) g (.snapshotFrame f)
  | endOfSnapshot (g : Nat) (f : Frame) (id : ChannelId) (seq : UInt64) :
    f.message? = .ok (some (.endOfSnapshot id seq true)) → Makes (.tcpFrame g f) g (.endOfSnapshot seq.toNat)
  | requestTimer (g : Nat) : Makes .requestTimer g .requestTimer
  | livenessTick (g : Nat) : Makes .livenessTick g .livenessTick

inductive Move (now : Instant) (task : Task) : SubscriberLink → List Effect → SubscriberLink → Prop
  /-- The connection stays as it is. -/
  | stay {l l' : SubscriberLink} {effects : List Effect} :
    l'.generation = l.generation → l'.connection.map Connection.bare = l.connection.map Connection.bare →
      Told l.state effects l'.state → Move now task l effects l'
  | leave {l l' : SubscriberLink} {effects : List Effect} :
    l'.generation = l.generation → l'.connection = none → Told l.state effects l'.state → Move now task l effects l'
  | start {l l' : SubscriberLink} {c : Connection} {effects : List Effect} (dest : Endpoint) :
    l'.generation = l.generation + 1 → l'.connection = some c → c.generation = l'.generation →
      c.tcpState = .login → c.receiver = none → l'.state = l.state →
        effects = [.connect l'.generation dest] → Move now task l effects l'
  /-- A receiver for a data socket, in the place of an earlier one. -/
  | listen {l l' : SubscriberLink} {c : Connection} {effects : List Effect} (peer : Option Endpoint)
    (socket : SocketId) (resendTo : Endpoint) :
    l.connection = some c → l'.generation = l.generation →
      l'.connection = some { c with peer := peer, receiver := some (socket, .new l.settings resendTo) } →
        Told l.state effects l'.state → Move now task l effects l'
  | acknowledge {l l' : SubscriberLink} {c : Connection} :
    l.connection = some c → c.tcpState = .login → l'.generation = l.generation →
      l'.connection = some { c with tcpState := .receiving, loginDeadline := none } → l'.state = l.state →
        Move now task l [] l'
  | talk {l l' : SubscriberLink} {c : Connection} {socket : SocketId} {r : Receiver} {call : Receiver.Call} :
    l.connection = some c → c.receiver = some (socket, r) → task.Makes c.generation call →
      (onTcp call = true → c.tcpState = .receiving) → ((r.onCall now call).deliveries ≠ [] → l.state = .up) →
        l'.generation = l.generation → l'.connection = some (c.after socket call (r.onCall now call)) →
          l'.state = l.state →
            Move now task l
              ((r.onCall now call).outputs.map (ofOutput socket) ++
                if closes call then [.closeTcp c.generation] else []) l'

abbrev Moves (now : Instant) (task : Task) : SubscriberLink → List Effect → SubscriberLink → Prop :=
  Link.Chain (Move now task)

variable {now : Instant} {task : Task}

theorem Move.moves {l l' : SubscriberLink} {effects : List Effect} (h : Move now task l effects l') :
    Moves now task l effects l' :=
  .single h

/-- A connection's generation is never used again. -/
theorem Move.generation_le {l l' : SubscriberLink} {effects : List Effect} (h : Move now task l effects l') :
    l.generation ≤ l'.generation := by
  cases h <;> omega

theorem Moves.generation_le {l l' : SubscriberLink} {effects : List Effect} (h : Moves now task l effects l') :
    l.generation ≤ l'.generation := by
  induction h with
  | refl l => exact Nat.le_refl _
  | step first rest ih => exact Nat.le_trans first.generation_le ih

theorem move_drive (l : SubscriberLink) (input : Input) :
    Move now task l (l.drive input).2.1 (l.drive input).1 :=
  .stay rfl rfl (told_drive l input)

/-! ### Actions -/

/-- The most actions that follow from this one, itself included. -/
def rank : Action → Nat
  | .none => 0
  | .connect => 1
  | .cancelReconnect => 1
  | .scheduleReconnect _ => 2
  | .disconnect => 3

/-- Where an action leads: what it answers is owed, and there is less to do. -/
structure Performed (now : Instant) (task : Task) (l : SubscriberLink) (action : Action)
    (p : SubscriberLink × List Effect × Action) : Prop where
  sound : p.1.Sound
  owes : Owes p.1.control.machine p.1.connection p.2.2
  less : rank p.2.2 < rank action
  moves : Moves now task l p.2.1 p.1

theorem performed_connect {l : SubscriberLink} (h : l.Sound) (ho : Owes l.control.machine l.connection .connect)
    (env : Surroundings) : Performed now task l .connect (l.connect env) := by
  obtain ⟨hstate, -⟩ := ho
  have hvalid : l.channel.fault? = none := h.channel (by simp [Machine.AtRest, hstate])
  unfold SubscriberLink.connect
  rw [hvalid]
  dsimp only
  refine ⟨⟨fun _ => hvalid, ?_, ?_⟩, ?_, ?_, ?_⟩
  · rintro c ⟨⟩
    rfl
  · rintro c ⟨⟩
    exact Connection.window_of_receiver_eq_none rfl _ _
  · exact Or.inr ⟨Or.inl hstate, rfl⟩
  · simp [rank]
  · exact Move.moves (.start (l.channel.endpoints l.control.isSecondary).tcp rfl rfl rfl rfl rfl rfl rfl)

theorem owes_disconnected {m : Machine} {connection : Option Connection} (h : Owes m connection .disconnect) :
    Owes (m.step .disconnected).1 none (m.step .disconnected).2 ∧ rank (m.step .disconnected).2 < rank .disconnect := by
  obtain ⟨state, reconnects, immediate, begun⟩ := m
  rcases h with h | h | h | h | ⟨h, -⟩ <;> dsimp only at h <;> subst h <;>
    simp [Machine.step, Machine.onDisconnected, Machine.goTo, Machine.stay, Owes, Settled, rank]

theorem performed_disconnect {l : SubscriberLink} (h : l.Sound)
    (ho : Owes l.control.machine l.connection .disconnect) : Performed now task l .disconnect l.disconnect := by
  have hgone : Sound { l with connection := none } := ⟨h.channel, by rintro c ⟨⟩, by rintro c ⟨⟩⟩
  have hclosing : Told l.state ((l.connection.map fun c => Effect.close c.generation).toList ++ [.clearManual])
      l.state := by
    cases l.connection <;> exact ⟨by simp [Effect.Quiet], by simp [Effect.stateAfter]⟩
  have htold := hclosing.append (told_drive { l with connection := none } .disconnected)
  rw [List.append_assoc] at htold
  obtain ⟨hnext, hless⟩ := owes_disconnected ho
  exact ⟨hgone.drive .disconnected (Or.inl (by simp)), hnext, hless, Move.moves (.leave rfl rfl htold)⟩

theorem performed {l : SubscriberLink} (h : l.Sound) {action : Action}
    (ho : Owes l.control.machine l.connection action) (ha : action ≠ .none) (env : Surroundings) :
    Performed now task l action (l.perform env action) := by
  cases action with
  | none => exact absurd rfl ha
  | connect => exact performed_connect h ho env
  | disconnect => exact performed_disconnect h ho
  | scheduleReconnect immediate =>
    obtain ⟨hstate, hnone⟩ := ho
    cases immediate with
    | true =>
      have hdue : l.control.machine.step .reconnectDue =
          ({ l.control.machine with state := .connecting }, .connect) := by
        simp [Machine.step, Machine.onReconnectDue, Machine.goTo, hstate]
      refine ⟨h.drive .reconnectDue (Or.inl (by simp)), ?_, ?_, (move_drive l .reconnectDue).moves⟩
      · show Owes (l.control.machine.step .reconnectDue).1 l.connection (l.control.machine.step .reconnectDue).2
        rw [hdue]
        exact ⟨rfl, hnone⟩
      · show rank (l.control.machine.step .reconnectDue).2 < _
        rw [hdue]
        simp [rank]
    | false =>
      refine ⟨⟨h.channel, h.generation, h.window⟩, ?_, by simp [perform, rank], ?_⟩
      · show Settled l.control.machine l.connection
        rw [hnone]
        exact Or.inr (Or.inr (Or.inr hstate))
      · exact Move.moves (.stay rfl rfl (told_nil l.state))
  | cancelReconnect =>
    obtain ⟨hstate, hnone⟩ := ho
    refine ⟨⟨h.channel, h.generation, h.window⟩, ?_, by simp [perform, rank], ?_⟩
    · show Settled l.control.machine l.connection
      rw [hnone]
      rcases hstate with hstate | hstate | hstate
      · exact Or.inl hstate
      · exact Or.inr (Or.inl hstate)
      · exact Or.inr (Or.inr (Or.inl hstate))
    · exact Move.moves (.stay rfl rfl (told_nil l.state))

/-- A task, or the rest of one, that does nothing but moves and leaves the link consistent. -/
structure Settles (now : Instant) (task : Task) (l : SubscriberLink) (p : SubscriberLink × List Effect) : Prop where
  consistent : p.1.Consistent
  moves : Moves now task l p.2 p.1

theorem Settles.after {l l' : SubscriberLink} {effects : List Effect} {p : SubscriberLink × List Effect}
    (h' : Settles now task l' p) (h : Moves now task l effects l') : Settles now task l (p.1, effects ++ p.2) :=
  ⟨h'.consistent, h.trans h'.moves⟩

theorem Consistent.settles {l : SubscriberLink} (h : l.Consistent) : Settles now task l (l, []) := ⟨h, .refl l⟩

/-- An action, and then those that follow from it. -/
theorem act_succ (l : SubscriberLink) {action : Action} (ha : action ≠ .none) (env : Surroundings) (fuel : Nat) :
    act env (fuel + 1) l action =
      ((act env fuel (l.perform env action).1 (l.perform env action).2.2).1,
        (l.perform env action).2.1 ++ (act env fuel (l.perform env action).1 (l.perform env action).2.2).2) := by
  cases action <;> first | exact absurd rfl ha | rfl

theorem settles_act {l : SubscriberLink} (h : l.Sound) {action : Action}
    (ho : Owes l.control.machine l.connection action) {fuel : Nat} (hf : rank action ≤ fuel) (env : Surroundings) :
    Settles now task l (act env fuel l action) := by
  induction fuel generalizing l action with
  | zero =>
    cases action <;> simp [rank] at hf
    exact Consistent.settles ⟨h, ho⟩
  | succ fuel ih =>
    by_cases ha : action = .none
    · subst ha
      exact Consistent.settles ⟨h, ho⟩
    · have step : Performed now task l action (l.perform env action) := performed h ho ha env
      rw [act_succ l ha env]
      exact (ih step.sound step.owes (by have := step.less; omega)).after step.moves

theorem rank_le_actLimit (action : Action) : rank action ≤ actLimit := by
  cases action <;> simp [rank, actLimit]

theorem driveAndAct_eq (l : SubscriberLink) (env : Surroundings) (input : Input) :
    l.driveAndAct env input =
      ((act env actLimit (l.drive input).1 (l.drive input).2.2).1,
        (l.drive input).2.1 ++ (act env actLimit (l.drive input).1 (l.drive input).2.2).2) := by
  unfold driveAndAct
  rcases l.drive input with ⟨l', effects, action⟩
  dsimp only

theorem settles_driveAndAct {l : SubscriberLink} (input : Input) (h : (l.drive input).1.Sound)
    (ho : Owes (l.drive input).1.control.machine (l.drive input).1.connection (l.drive input).2.2)
    (env : Surroundings) : Settles now task l (l.driveAndAct env input) := by
  rw [driveAndAct_eq]
  exact (settles_act h ho (rank_le_actLimit _) env).after (move_drive l input).moves

theorem settles_command {l : SubscriberLink} (h : l.Consistent) (input : Input) (hi : input.IsCommand)
    (hr : input ≠ .enable true ∨ l.channel.fault? = none) (env : Surroundings) :
    Settles now task l (l.driveAndAct env input) :=
  settles_driveAndAct input (h.sound.drive input hr) (owes_command h.settled input hi) env

/-- A single effect that says nothing about the state. -/
theorem move_aside (l : SubscriberLink) {e : Effect} (hq : e.Quiet) (hs : e.stateAfter l.state = l.state) :
    Move now task l [e] l :=
  .stay rfl rfl (Told.cons hq hs (told_nil l.state))

/-- Links that differ in nothing but wishes, deadlines and addresses. -/
structure Alike (l l' : SubscriberLink) : Prop where
  control : l'.control = l.control
  channel : l'.channel = l.channel
  generation : l'.generation = l.generation
  connection : l'.connection.map Connection.bare = l.connection.map Connection.bare

theorem Alike.state {l l' : SubscriberLink} (h : Alike l l') : l'.state = l.state := congrArg Link.Control.state h.control

theorem Alike.exists_connection {l l' : SubscriberLink} (h : Alike l l') {c' : Connection}
    (hc : l'.connection = some c') : ∃ c, l.connection = some c ∧ c'.generation = c.generation ∧
      c'.tcpState = c.tcpState ∧ c'.receiver = c.receiver := by
  have hbare := h.connection
  rw [hc] at hbare
  obtain ⟨c, hc, hb⟩ := Option.map_eq_some_iff.1 hbare.symm
  exact ⟨c, hc, Connection.eq_of_bare hb.symm⟩

theorem Consistent.of_alike {l l' : SubscriberLink} (h : l.Consistent) (ha : Alike l l') : l'.Consistent := by
  refine ⟨⟨fun hawake => ?_, fun c' hc' => ?_, fun c' hc' => ?_⟩, ?_⟩
  · rw [ha.channel]
    rw [ha.control] at hawake
    exact h.sound.channel hawake
  · obtain ⟨c, hc, hgeneration, -, -⟩ := ha.exists_connection hc'
    rw [hgeneration, ha.generation]
    exact h.sound.generation c hc
  · obtain ⟨c, hc, -, htcp, hreceiver⟩ := ha.exists_connection hc'
    exact (h.sound.window c hc).of_eq htcp hreceiver
  · have hsettled := h.settled
    rw [ha.control]
    cases hc' : l'.connection with
    | none =>
      have hnone : l.connection = none := by simpa [hc'] using ha.connection.symm
      rwa [hnone] at hsettled
    | some c' =>
      obtain ⟨c, hc, -, htcp, -⟩ := ha.exists_connection hc'
      rw [hc] at hsettled
      simpa only [Settled, htcp] using hsettled

theorem Alike.moves {l l' : SubscriberLink} (ha : Alike l l') : Moves now task l [] l' := by
  have htold := told_nil l.state
  nth_rewrite 2 [← ha.state] at htold
  exact Move.moves (.stay ha.generation ha.connection htold)

/-- A command after a note of something else. -/
theorem Alike.settles_command {l l' : SubscriberLink} (ha : Alike l l') (h : l.Consistent) (input : Input)
    (hi : input.IsCommand) (hr : input ≠ .enable true) (env : Surroundings) :
    Settles now task l (l'.driveAndAct env input) :=
  (SubscriberLink.settles_command (h.of_alike ha) input hi (Or.inl hr) env).after ha.moves

theorem settles_failWith {l : SubscriberLink} (h : l.Consistent) (env : Surroundings) (message : String)
    (immediate : Bool) : Settles now task l (l.failWith env message immediate) :=
  (settles_command h (.reconnect immediate) trivial (Or.inl (by simp)) env).after
    (move_aside l (e := l.alert .warning message) trivial rfl).moves

/-! ### The channel -/

theorem settles_revive {l : SubscriberLink} (h : l.Consistent) (hvalid : l.channel.fault? = none)
    (env : Surroundings) : Settles now task l (l.revive env) := by
  have howes : Owes _ _ (l.control.machine.step (.enable true)).2 := owes_command h.settled (.enable true) trivial
  rw [Machine.step_enable_true] at howes
  have henabled : (l.drive (.enable true)).1.Consistent := ⟨h.sound.drive (.enable true) (Or.inr hvalid), howes⟩
  have hmove : Moves now task l _ (l.drive (.enable true)).1 := (move_drive l (.enable true)).moves
  unfold SubscriberLink.revive
  dsimp only
  split
  · exact (settles_command henabled .up trivial (Or.inl (by simp)) env).after hmove
  · exact ⟨henabled, hmove⟩

theorem settles_onUpdate {l : SubscriberLink} (h : l.Consistent) (env : Surroundings) (channel : Channel) :
    Settles now task l (l.onUpdate env channel) := by
  have hmove : Moves now task l [] { l with channel := channel } := Move.moves (.stay rfl rfl (told_nil _))
  unfold SubscriberLink.onUpdate
  split
  · exact h.settles
  dsimp only
  split
  · next fault hfault =>
    have hsound : (SubscriberLink.drive { l with channel := channel } .failed).1.Sound := by
      refine ⟨fun hawake => ?_, h.sound.generation, h.sound.window⟩
      exact absurd (Machine.rest_of_failed l.control.machine) hawake
    have howes : Owes _ l.connection _ := owes_command h.settled .failed trivial
    have halert : Told l.state _ _ :=
      Told.cons (e := SubscriberLink.alert { l with channel := channel } .error fault.report) trivial rfl
        (told_drive { l with channel := channel } .failed)
    exact (settles_act hsound howes (rank_le_actLimit _) env).after (Move.moves (.stay rfl rfl halert))
  · next hvalid =>
    have hnew : Consistent { l with channel := channel } :=
      ⟨⟨fun _ => hvalid, h.sound.generation, h.sound.window⟩, h.settled⟩
    split
    · exact (settles_command hnew (.enable false) trivial (Or.inl (by simp)) env).after hmove
    split
    · exact (settles_revive hnew hvalid env).after hmove
    · exact (settles_command hnew (.reconnect true) trivial (Or.inl (by simp)) env).after hmove

/-! ### The receiver -/

theorem current?_eq_some {l : SubscriberLink} {generation : Nat} {c : Connection} (h : l.current? generation = some c) :
    l.connection = some c ∧ c.generation = generation := by
  simpa [current?, Option.filter_eq_some_iff] using h

section Connected

variable {l : SubscriberLink} {c : Connection}

theorem Consistent.up_of_ne_login (h : l.Consistent) (hc : l.connection = some c) (hstate : c.tcpState ≠ .login) :
    l.state = .up := by
  have hsettled := h.settled
  rw [hc] at hsettled
  rcases hsettled with ⟨hup, -⟩ | ⟨-, hlogin⟩
  · exact hup
  · exact absurd hlogin hstate

variable {socket : SocketId} {r : Receiver} {call : Receiver.Call}

theorem Consistent.up_of_deliveries (h : l.Consistent) (hc : l.connection = some c)
    (hr : c.receiver = some (socket, r)) (htcp : onTcp call = true → c.tcpState = .receiving)
    (hd : (r.onCall now call).deliveries ≠ []) : l.state = .up := by
  refine h.up_of_ne_login hc (fun hlogin => hd ?_)
  cases hcall : onTcp call with
  | true => simp [htcp hcall] at hlogin
  | false => exact (h.sound.window c hc).deliveries_eq_nil hr now hcall (by simp [hlogin])

theorem Consistent.after (h : l.Consistent) (now : Instant) (hc : l.connection = some c) (hr : c.receiver = some (socket, r))
    (htcp : onTcp call = true → c.tcpState = .receiving) :
    Consistent { l with connection := some (c.after socket call (r.onCall now call)) } := by
  have hsettled := h.settled
  rw [hc] at hsettled
  refine ⟨⟨h.sound.channel, ?_, ?_⟩, ?_⟩
  · rintro c' ⟨⟩
    exact h.sound.generation c hc
  · rintro c' ⟨⟩
    exact (h.sound.window c hc).call hr now call
  · rcases hsettled with ⟨hup, hlogin⟩ | ⟨hstate, hlogin⟩
    · refine Or.inl ⟨hup, ?_⟩
      cases hcall : closes call <;> simp [Connection.after_tcpState, hcall, hlogin]
    · refine Or.inr ⟨hstate, ?_⟩
      cases hcall : closes call with
      | true => simp [htcp (onTcp_of_closes hcall)] at hlogin
      | false => simpa [Connection.after_tcpState, hcall] using hlogin

end Connected

theorem settles_onReceiver {l : SubscriberLink} (h : l.Consistent) (env : Surroundings) (call : Receiver.Call)
    (hmakes : ∀ c, l.connection = some c → task.Makes c.generation call)
    (htcp : ∀ c, l.connection = some c → onTcp call = true → c.tcpState = .receiving) :
    Settles env.now task l (l.onReceiver env (closes call) (·.onCall env.now call)) := by
  unfold SubscriberLink.onReceiver
  split
  · exact h.settles
  · next c hc =>
    split
    · exact h.settles
    · next socket r hr =>
      have hnew := h.after env.now hc hr (htcp c hc)
      have hmove : Moves env.now task l _ { l with connection := some (c.after socket call (r.onCall env.now call)) } :=
        Move.moves (.talk hc hr (hmakes c hc) (htcp c hc) (h.up_of_deliveries hc hr (htcp c hc)) rfl rfl rfl)
      dsimp only
      split
      · exact ⟨hnew, hmove⟩
      · next e he => exact (settles_failWith hnew env e.message e.isImmediate).after hmove

/-! ### TCP -/

theorem settles_onTcpConnected {l : SubscriberLink} (h : l.Consistent) (env : Surroundings) (generation : Nat)
    (peer : Endpoint) : Settles now task l (l.onTcpConnected env generation peer) := by
  unfold SubscriberLink.onTcpConnected
  split
  · exact h.settles
  · next c hcurrent =>
    obtain ⟨hc, -⟩ := current?_eq_some hcurrent
    dsimp only
    split
    · next e he =>
      exact (settles_failWith h env _ false).after
        (move_aside l (e := .openUdpInVain c.endpoints.udp) trivial rfl).moves
    · next socket hsocket =>
      refine ⟨⟨⟨h.sound.channel, ?_, ?_⟩, ?_⟩, ?_⟩
      · rintro c' ⟨⟩
        exact h.sound.generation c hc
      · rintro c' ⟨⟩
        exact .of_new l.settings c.endpoints.resend rfl
      · have hsettled := h.settled
        rw [hc] at hsettled
        exact hsettled
      · have htold : Told l.state
            [.openUdp generation c.endpoints.udp l.channel, .login generation (loginFrame l.channel)] l.state :=
          Told.cons trivial rfl (Told.cons trivial rfl (told_nil _))
        exact Move.moves (.listen (some peer) socket c.endpoints.resend hc rfl rfl htold)

/-- The acknowledgement of the login brings the link up, or down if that is what was asked for in the meantime. -/
theorem settles_acknowledged {l : SubscriberLink} (h : l.Consistent) {c : Connection} (hc : l.connection = some c)
    (hlogin : c.tcpState = .login) (env : Surroundings) :
    Settles now task l (driveAndAct
      { l with connection := some { c with tcpState := .receiving, loginDeadline := none } } env .connected) := by
  have hsound : Sound { l with connection := some { c with tcpState := .receiving, loginDeadline := none } } := by
    refine ⟨h.sound.channel, ?_, ?_⟩
    · rintro c' ⟨⟩
      exact h.sound.generation c hc
    · rintro c' ⟨⟩
      exact (h.sound.window c hc).of_queuing (by simp [hlogin]) rfl
  have howes : Owes (l.control.machine.step .connected).1
      (some { c with tcpState := .receiving, loginDeadline := none }) (l.control.machine.step .connected).2 := by
    have hsettled := h.settled
    rw [hc] at hsettled
    rcases hsettled with ⟨-, hlogin'⟩ | ⟨hstate | ⟨hstate, hbegun⟩, -⟩
    · exact absurd hlogin hlogin'
    · simp [Machine.step, Machine.onConnected, Machine.goTo, hstate, Owes, Settled]
    · simp [Machine.step, Machine.onConnected, Machine.goTo, hstate, hbegun, Owes]
  exact (settles_driveAndAct .connected (hsound.drive .connected (Or.inl (by simp))) howes env).after
    (Move.moves (.acknowledge hc hlogin rfl rfl rfl))

theorem settles_onLoginAnswer {l : SubscriberLink} (h : l.Consistent) {c : Connection} (hc : l.connection = some c)
    (hlogin : c.tcpState = .login) (env : Surroundings) (f : Frame) :
    Settles now task l (l.onLoginAnswer env c f) := by
  unfold SubscriberLink.onLoginAnswer
  split
  · exact settles_acknowledged h hc hlogin env
  · exact settles_failWith h env _ false

theorem settles_onSnapshot {l : SubscriberLink} (h : l.Consistent) {c : Connection} (hc : l.connection = some c)
    (hstate : c.tcpState = .receiving) (env : Surroundings) (f : Frame) :
    Settles env.now (.tcpFrame c.generation f) l (l.onSnapshot env f) := by
  have hreceiving : ∀ c', l.connection = some c' → c' = c := by
    intro c' hc'
    rw [hc] at hc'
    exact (Option.some.inj hc').symm
  unfold SubscriberLink.onSnapshot
  split
  · next hm =>
    refine settles_onReceiver h env (.snapshotFrame f) (fun c' hc' => ?_) (fun c' hc' _ => ?_)
    · rw [hreceiving c' hc']
      exact .snapshotFrame _ f ((Frame.message?_eq_none_iff f).1 hm)
    · rw [hreceiving c' hc', hstate]
  · next id seq ok hm =>
    split
    · exact settles_failWith h env _ false
    split
    · exact settles_failWith h env _ false
    · next hok _ =>
      obtain rfl : ok = true := by simpa using hok
      refine settles_onReceiver h env (.endOfSnapshot seq.toNat) (fun c' hc' => ?_) (fun c' hc' _ => ?_)
      · rw [hreceiving c' hc']
        exact .endOfSnapshot _ f id seq hm
      · rw [hreceiving c' hc', hstate]
  · exact settles_failWith h env _ false
  · next e _ =>
    exact ⟨h, (move_aside l (e := .warn ("undecodable snapshot frame - dropping: " ++ e.message)) trivial rfl).moves⟩

/-! ### Tasks -/

theorem settles_onTcpFrame {l : SubscriberLink} (h : l.Consistent) (env : Surroundings) (generation : Nat) (f : Frame) :
    Settles env.now (.tcpFrame generation f) l (l.onTcpFrame env generation f) := by
  unfold SubscriberLink.onTcpFrame
  split
  · exact h.settles
  · next c hcurrent =>
    obtain ⟨hc, rfl⟩ := current?_eq_some hcurrent
    split
    · next hlogin => exact settles_onLoginAnswer h hc hlogin env f
    · next hreceiving => exact settles_onSnapshot h hc hreceiving env f
    · exact h.settles
    · exact h.settles

theorem settles_onTcpClosed {l : SubscriberLink} (h : l.Consistent) (env : Surroundings) (generation : Nat)
    (error : Option TcpFailure) : Settles now task l (l.onTcpClosed env generation error) := by
  unfold SubscriberLink.onTcpClosed
  split
  · exact h.settles
  split
  · exact h.settles
  · exact settles_failWith h env _ false

theorem settles_onUdp {l : SubscriberLink} (h : l.Consistent) (env : Surroundings) (generation : Nat) (f : Frame) :
    Settles env.now (.udp generation f) l (l.onUdp env generation f) := by
  unfold SubscriberLink.onUdp
  split
  · exact h.settles
  · next c hcurrent =>
    obtain ⟨hc, rfl⟩ := current?_eq_some hcurrent
    refine settles_onReceiver h env (.frame f) (fun c' hc' => ?_) (fun _ _ => by simp [onTcp])
    rw [hc] at hc'
    obtain rfl := Option.some.inj hc'
    exact .frame _ f

theorem told_onManualResend (l : SubscriberLink) (call : Nat) (gap : Gap) :
    Told l.state (l.onManualResend call gap) l.state := by
  unfold SubscriberLink.onManualResend
  split
  · exact Told.cons trivial rfl (told_nil _)
  split
  · exact Told.cons trivial rfl (Told.cons trivial rfl (told_nil _))
  · exact Told.cons trivial rfl (told_nil _)

theorem settles_onLoginTimeout {l : SubscriberLink} (h : l.Consistent) (env : Surroundings) :
    Settles now task l (l.onLoginTimeout env) := by
  have ha : Alike l l.forgetDeadline := by
    refine ⟨rfl, rfl, rfl, ?_⟩
    cases hc : l.connection <;> simp [forgetDeadline, hc, Connection.bare]
  exact (settles_failWith (h.of_alike ha) env _ false).after ha.moves

theorem settles_onLivenessTick {l : SubscriberLink} (h : l.Consistent) (env : Surroundings) :
    Settles env.now .livenessTick l (l.onLivenessTick env) := by
  unfold SubscriberLink.onLivenessTick
  split
  · exact settles_onReceiver h env .livenessTick (fun _ _ => .livenessTick _) (fun _ _ => by simp [onTcp])
  · exact h.settles

/-- Whatever the task, a link that it finds consistent stays so, and does nothing but moves. -/
theorem settles_onTask {l : SubscriberLink} (h : l.Consistent) (env : Surroundings) (task : Task) :
    Settles env.now task l (l.onTask env task) := by
  cases task with
  | up =>
    have ha : Alike l { l with wantsUp := true } := ⟨rfl, rfl, rfl, rfl⟩
    exact ha.settles_command h .up trivial (by simp) env
  | down =>
    have ha : Alike l { l with wantsUp := false } := ⟨rfl, rfl, rfl, rfl⟩
    exact ha.settles_command h .down trivial (by simp) env
  | update channel => exact settles_onUpdate h env channel
  | tcpConnected generation peer => exact settles_onTcpConnected h env generation peer
  | tcpFrame generation f => exact settles_onTcpFrame h env generation f
  | tcpClosed generation error => exact settles_onTcpClosed h env generation error
  | udp generation f => exact settles_onUdp h env generation f
  | manualResend call gap => exact ⟨h, Move.moves (.stay rfl rfl (told_onManualResend l call gap))⟩
  | reconnectDue =>
    have ha : Alike l { l with reconnectAt := none } := ⟨rfl, rfl, rfl, rfl⟩
    exact ha.settles_command h .reconnectDue trivial (by simp) env
  | loginTimeout => exact settles_onLoginTimeout h env
  | requestTimer =>
    exact settles_onReceiver h env .requestTimer (fun _ _ => .requestTimer _) (fun _ _ => by simp [onTcp])
  | livenessTick => exact settles_onLivenessTick h env

/-! ### New links -/

theorem consistent_new (channel : Channel) (settings : Settings) : (new channel settings).1.Consistent := by
  unfold SubscriberLink.new
  dsimp only
  split
  · next fault hfault =>
    have hrest := Machine.rest_of_failed (Machine.new channel.enabled)
    refine ⟨⟨fun hawake => absurd hrest hawake, by rintro c ⟨⟩, by rintro c ⟨⟩⟩, Or.inr ?_⟩
    · rcases hrest with hrest | hrest
      · exact Or.inl hrest
      · exact Or.inr (Or.inl hrest)
  · next hvalid =>
    refine ⟨⟨fun _ => hvalid, by rintro c ⟨⟩, by rintro c ⟨⟩⟩, ?_⟩
    cases henabled : channel.enabled with
    | true => exact Or.inl (by simp [Link.Control.new, Machine.new])
    | false => exact Or.inr (Or.inl (by simp [Link.Control.new, Machine.new]))

theorem new_effects (channel : Channel) (settings : Settings) :
    Told (Machine.new channel.enabled).state (new channel settings).2 (new channel settings).1.state := by
  let l : SubscriberLink :=
    ⟨channel, settings, .new .subscriber channel.id channel.enabled, false, 0, none, none⟩
  have htold := told_drive l .failed
  unfold SubscriberLink.new
  dsimp only
  split
  · exact Told.cons trivial rfl htold
  · exact told_nil l.state

theorem new_connection (channel : Channel) (settings : Settings) : (new channel settings).1.connection = none := by
  unfold SubscriberLink.new
  dsimp only
  split <;> rfl

end ReliableMulticast.SubscriberLink
