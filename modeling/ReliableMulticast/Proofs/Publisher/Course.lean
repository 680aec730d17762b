import ReliableMulticast.Proofs.Link.Course

/-!
# The course of a publisher's attempts

An attempt of a publisher's link is to open the listener and the sockets of a connection, which succeeds at once or not at
all. A disconnect takes several tasks, so that the first of them leaves the link with an action that is begun, and the last
one lets the machine go on from there.

Main statement (`lawful_helm`): all tasks of a publisher's link are courses.
-/

namespace ReliableMulticast.PublisherLink

open Link (State Input Action Machine Bearing Watch Scope Kind Helm Chain Leg Course Prompts)

/-! ### The helm -/

def Effect.change? : Effect → Option (State × State)
  | .notify e =>
    match e.report with
    | .stateChanged old new _ => some (old, new)
    | .alert .. => none
  | _ => none

def Effect.attempt : Effect → Bool
  | .listen .. => true
  | .listenInVain _ => true
  | _ => false

def Effect.aims (e : Effect) (places : Endpoints) : Prop :=
  (∃ generation, e = .listen generation places) ∨ e = .listenInVain places

def Task.kind : Task → Kind
  | .up => .up
  | .down => .down
  | .update channel => .update channel
  | .reconnectDue => .ring
  | _ => .report

def bearing (l : PublisherLink) : Bearing :=
  ⟨l.control.machine, l.channel, l.reconnectAt, l.settings.reconnectInterval.nanos⟩

def helm : Helm PublisherLink Surroundings Task Effect where
  toCore := core
  change? := Effect.change?
  attempt := Effect.attempt
  aims := Effect.aims
  bearing := bearing
  now := Surroundings.now
  kind := Task.kind
  disarm := fun l => { l with reconnectAt := none }

/-- Effects that neither make an attempt nor show a change. -/
abbrev Silent (effects : List Effect) : Prop := helm.Silent effects

/-- A task, or the rest of one, that is a course. -/
abbrev Steers (s : Scope) (l : PublisherLink) (p : PublisherLink × List Effect) : Prop :=
  Course helm.toWatch s (l.bearing, .none) p.2 (p.1.bearing, .none)

theorem silent_alert (l : PublisherLink) (severity : Link.Severity) (message : String) :
    Silent [l.alert severity message] := by
  simp [Watch.Silent, helm, alert, Effect.attempt, Effect.change?, Link.Control.alert, Link.Control.event]

theorem silent_closing (c : Option Connection) : Silent (closing c) := by
  cases c <;> simp [Watch.Silent, helm, closing, Effect.attempt, Effect.change?]

theorem shows_drive (l : PublisherLink) (input : Input) :
    helm.Shows l.state (l.drive input).2.1 (l.control.machine.step input).1.state := by
  by_cases h : (l.control.machine.step input).1.state = l.control.machine.state
  · have hnothing : (l.drive input).2.1 = [] := by simp [drive, Link.Control.drive, h]
    rw [hnothing, h]
    exact .same
  · unfold drive Link.Control.drive
    dsimp only
    rw [if_neg h]
    exact .change h rfl rfl

/-- What becomes of an input, whatever it was fed for. -/
theorem leg_drive {s : Scope} (l : PublisherLink) (action : Action) (input : Input)
    (hprompts : Prompts s l.channel action input) :
    Leg helm.toWatch s (l.bearing, action) (l.drive input).2.1 ((l.drive input).1.bearing, (l.drive input).2.2) :=
  .feed hprompts (shows_drive l input)

theorem course_rejectChannel {s : Scope} (l : PublisherLink) {action : Action} (fault : ChannelFault)
    (hprompts : Prompts s l.channel action .failed) :
    Course helm.toWatch s (l.bearing, action) (l.rejectChannel fault).2.1
      ((l.rejectChannel fault).1.bearing, (l.rejectChannel fault).2.2) :=
  Chain.step (Leg.aside (silent_alert l .error fault.report)) (.single (leg_drive l action .failed hprompts))

/-! ### Actions -/

/-- What an input leads to besides connecting anew is one action at most. -/
theorem rank_step_le (m : Machine) {input : Input} (h : input = .failed ∨ input = .connected ∨ ∃ i, input = .reconnect i) :
    rank (m.step input).2 ≤ 1 := by
  obtain ⟨state, reconnects, immediate, begun⟩ := m
  rcases h with rfl | rfl | ⟨i, rfl⟩ <;> cases state <;> cases begun <;> simp [Machine.step, Machine.onFailed,
    Machine.onConnected, Machine.onReconnect, Machine.retire, Machine.goTo, Machine.stay, rank]

theorem rank_reconnectDue (m : Machine) : rank (m.step .reconnectDue).2 ≤ 2 := by
  cases hstate : m.state <;> simp [Machine.step, Machine.onReconnectDue, Machine.goTo, Machine.stay, hstate, rank]

variable {env : Surroundings}

theorem rank_perform (env : Surroundings) (l : PublisherLink) {action : Action} (ha : action ≠ .none) :
    rank (l.perform env action).2.2 < rank action := by
  rcases action with _ | _ | _ | (_ | _) | _
  · exact absurd rfl ha
  · show rank (l.connect env).2.2 < 2
    refine Nat.lt_succ_of_le ?_
    unfold PublisherLink.connect
    split
    · exact rank_step_le l.control.machine (Or.inl rfl)
    dsimp only
    split
    · exact rank_step_le l.control.machine (Or.inr (Or.inl rfl))
    · exact rank_step_le l.control.machine (Or.inr (Or.inr ⟨false, rfl⟩))
  · exact Nat.zero_lt_one
  · exact Nat.zero_lt_succ 2
  · exact Nat.lt_succ_of_le (rank_reconnectDue l.control.machine)
  · exact Nat.zero_lt_one

theorem course_establish {s : Scope} (l : PublisherLink) (data resend : SocketId) :
    Course helm.toWatch s (l.bearing, .connect)
      (l.establish (l.channel.endpoints l.control.isSecondary) data resend).2 (l.bearing, .none) := by
  let places := l.channel.endpoints l.control.isSecondary
  have hlaunch : Leg helm.toWatch s (l.bearing, .connect) [.listen (l.generation + 1) places] (l.bearing, .none) :=
    .launch rfl rfl (Or.inl ⟨_, rfl⟩)
  have hattach : Silent [.transmit (.attach ⟨data, places.udp, resend, l.channel.shard⟩)] := by
    simp [Watch.Silent, helm, Effect.attempt, Effect.change?]
  exact Chain.step hlaunch (Chain.step (Leg.aside hattach) (.single (Leg.aside (silent_closing l.connection))))

theorem course_connect {k : Kind} {m : Machine} (l : PublisherLink) :
    Course helm.toWatch (k.scope m env.now) (l.bearing, .connect) (l.connect env).2.1
      ((l.connect env).1.bearing, (l.connect env).2.2) := by
  unfold PublisherLink.connect
  split
  · next fault hfault => exact course_rejectChannel l fault (.rejected hfault)
  dsimp only
  split
  · next data resend hlisten =>
    have hconnected := leg_drive (s := k.scope m env.now) (l.establish (l.channel.endpoints l.control.isSecondary) data
      resend).1 .none .connected (.task trivial (by simp))
    exact (course_establish l data resend).trans (.single hconnected)
  · next e hlisten =>
    let places := l.channel.endpoints l.control.isSecondary
    have hlaunch : Leg helm.toWatch (k.scope m env.now) (l.bearing, .connect) [.listenInVain places] (l.bearing, .none) :=
      .launch rfl rfl (Or.inr rfl)
    have hfailed := leg_drive (s := k.scope m env.now) l .none (.reconnect false)
      (.task trivial (by simp))
    exact .step hlaunch (.step (Leg.aside (silent_alert l .warning _)) (.single hfailed))

theorem course_perform {k : Kind} {m : Machine} (l : PublisherLink) (action : Action) :
    Course helm.toWatch (k.scope m env.now) (l.bearing, action) (l.perform env action).2.1
      ((l.perform env action).1.bearing, (l.perform env action).2.2) := by
  rcases action with _ | _ | _ | (_ | _) | _
  · exact .refl _
  · exact course_connect l
  · have hbegin : Course helm.toWatch (k.scope m env.now) (l.bearing, .disconnect) [] (l.bearing, .none) := .single .begin
    show Course helm.toWatch _ _ l.startDisconnect.2 (l.startDisconnect.1.bearing, .none)
    unfold startDisconnect
    split
    · exact hbegin
    · have hasks : Silent [.transmit .detach, .drain .detaching] := by
        simp [Watch.Silent, helm, Effect.attempt, Effect.change?]
      exact hbegin.trans (.single (.aside hasks))
  · exact .single (.putOff rfl)
  · exact .single (leg_drive l (.scheduleReconnect true) .reconnectDue .resumed)
  · exact .single .cancel

theorem course_act {k : Kind} {m : Machine} (l : PublisherLink) {action : Action} {fuel : Nat} (hfuel : rank action ≤ fuel) :
    Course helm.toWatch (k.scope m env.now) (l.bearing, action) (act env fuel l action).2
      ((act env fuel l action).1.bearing, .none) := by
  induction fuel generalizing l action with
  | zero =>
    have hnone : action = .none := by
      by_contra ha
      have hless := rank_perform env l ha
      omega
    subst hnone
    exact .refl _
  | succ fuel ih =>
    by_cases ha : action = .none
    · subst ha
      exact .refl _
    · rw [act_succ l ha]
      have hless := rank_perform env l ha
      exact (course_perform l action).trans (ih _ (by omega))

/-! ### Tasks -/

section Tasks

variable {k : Kind} {m : Machine}

theorem steers_silent {s : Scope} {l l' : PublisherLink} (hbearing : l'.bearing = l.bearing) {effects : List Effect}
    (h : Silent effects) : Steers s l (l', effects) := by
  show Course helm.toWatch s (l.bearing, .none) effects (l'.bearing, .none)
  rw [hbearing]
  exact .single (.aside h)

/-- What the machine asks for in answer to an input. -/
theorem steers_driveAndAct (l : PublisherLink) (input : Input) (hfeeds : k.Feeds m input) (hne : input ≠ .reconnectDue) :
    Steers (k.scope m env.now) l (l.driveAndAct env input) := by
  rw [driveAndAct_eq]
  exact .step (leg_drive l .none _ (.task hfeeds hne)) (course_act _ (rank_le_actLimit _))

theorem steers_revive (l : PublisherLink) (hrest : m.AtRest) (hupdate : k.Updates fun _ => True) :
    Steers (k.scope m env.now) l (l.revive env) := by
  have henable : Leg helm.toWatch (k.scope m env.now) (l.bearing, .none) (l.drive (.enable true)).2.1
      ((l.drive (.enable true)).1.bearing, .none) := by
    have hdrive := leg_drive (s := k.scope m env.now) l .none (.enable true) (.task ⟨hrest, hupdate⟩ (by simp))
    have hnothing : (l.drive (.enable true)).2.2 = .none := Machine.step_enable_true l.control.machine
    rwa [hnothing] at hdrive
  unfold revive
  rcases hd : l.drive (.enable true) with ⟨l', effects, action⟩
  rw [hd] at henable
  dsimp only
  split
  · exact .step henable (steers_driveAndAct l' .up (Or.inr ⟨hrest, hupdate⟩) (by simp))
  · exact .single henable

/-- The link with the channel that the task comes with. -/
def noted (l : PublisherLink) : Task → PublisherLink
  | .update channel => { l with channel := channel }
  | _ => l

theorem steers_onUpdate (l : PublisherLink) (channel : Channel) :
    Steers ((Kind.update channel).scope l.control.machine env.now) { l with channel := channel }
      (l.onUpdate env channel) := by
  unfold onUpdate
  split
  · next hsame =>
    subst hsame
    exact .refl _
  dsimp only
  split
  · next fault hfault =>
    have hfaulty : (Kind.update channel).Feeds l.control.machine .failed := ⟨channel, rfl, by simp [hfault]⟩
    exact (course_rejectChannel _ fault (.task hfaulty (by simp))).trans (course_act _ (rank_le_actLimit _))
  split
  · next henabled => exact steers_driveAndAct _ (.enable false) ⟨channel, rfl, by simpa using henabled⟩ (by simp)
  split
  · next hrest => exact steers_revive _ hrest ⟨channel, rfl, trivial⟩
  · exact steers_driveAndAct _ (.reconnect true) trivial (by simp)

theorem steers_onDrained (l : PublisherLink) (phase : DisconnectPhase) :
    Steers (k.scope m env.now) l (l.onDrained env phase) := by
  unfold onDrained
  split
  · exact steers_silent rfl ((by simp [Watch.Silent, helm, Effect.attempt, Effect.change?]))
  cases phase with
  | detaching =>
    have hasks : Silent [.drain .draining] := by simp [Watch.Silent, helm, Effect.attempt, Effect.change?]
    exact steers_silent rfl ((silent_closing l.connection).append hasks)
  | draining => exact steers_silent rfl (by simp [Watch.Silent, helm, enterPhase, Effect.attempt, Effect.change?])
  | releasing =>
    exact .step (Leg.aside (silent_closing l.connection))
      (steers_driveAndAct { l with phase := none, connection := none } .disconnected trivial (by simp))

theorem steers_onAccepted (l : PublisherLink) (generation : Nat) (conn : ConnId) (peer : Endpoint) :
    Steers (k.scope m env.now) l (l.onAccepted generation conn peer) := by
  have hrefuse : Silent [.refuse conn] := by simp [Watch.Silent, helm, Effect.attempt, Effect.change?]
  unfold onAccepted
  split
  · split
    · exact steers_silent rfl ((by simp [Watch.Silent, helm, Effect.attempt, Effect.change?]))
    · exact steers_silent rfl hrefuse
  · exact steers_silent rfl hrefuse

theorem steers_onSessionClosed (l : PublisherLink) (generation : Nat) (session : SessionId)
    (result : Except SessionFailure Bool) : Steers (k.scope m env.now) l (l.onSessionClosed generation session result) := by
  unfold onSessionClosed
  split
  · split
    · split
      · next s hs =>
        refine steers_silent rfl ?_
        cases closedMessage? s.peer result with
        | none => simp [Watch.Silent]
        | some message => exact silent_alert l .warning message
      · exact .refl _
    · exact .refl _
  · exact .refl _

theorem steers_onTask (l : PublisherLink) (task : Task) :
    Steers (task.kind.scope l.control.machine env.now) (l.noted task) (l.onTask env task) := by
  cases task with
  | up => exact steers_driveAndAct { l with wantsUp := true } .up (Or.inl rfl) (by simp)
  | down => exact steers_driveAndAct { l with wantsUp := false } .down rfl (by simp)
  | update channel => exact steers_onUpdate l channel
  | accepted generation conn peer => exact steers_onAccepted l generation conn peer
  | listenerFailed generation error =>
    dsimp only [onTask]
    split
    · exact Chain.step (Leg.aside (silent_alert l .warning ("TCP listener failed: " ++ error.message)))
        (steers_driveAndAct l (.reconnect false) trivial (by simp))
    · exact .refl _
  | sessionState generation session state => exact steers_silent rfl (fun _ he => absurd he List.not_mem_nil)
  | sessionClosed generation session result => exact steers_onSessionClosed l generation session result
  | drained phase => exact steers_onDrained l phase
  | reconnectDue =>
    have hring : Leg helm.toWatch (Task.reconnectDue.kind.scope l.control.machine env.now) (l.bearing, .none) _
        ({ l.bearing with reconnectAt := none }.fed .reconnectDue) := .ring rfl (shows_drive l .reconnectDue)
    show Steers _ l ({ l with reconnectAt := none }.driveAndAct env .reconnectDue)
    rw [driveAndAct_eq]
    exact .step hring (course_act ({ l with reconnectAt := none }.drive .reconnectDue).1 (rank_le_actLimit _))

end Tasks

theorem lawful_helm : helm.Lawful where
  course := by
    intro l env task
    have hnoted : (l.noted task).bearing = task.kind.note l.bearing := by
      cases task <;> rfl
    have hsteers : Steers _ (l.noted task) (l.onTask env task) := steers_onTask l task
    show Course helm.toWatch _ (task.kind.note l.bearing, .none) _ _
    rw [← hnoted]
    exact hsteers
  expires := by
    intro l env task htask hstate
    have hring : task = .reconnectDue := by
      cases task <;> first | rfl | cases htask
    subst hring
    have hstays : l.control.machine.onReconnectDue = (l.control.machine, .none) := by
      unfold Machine.onReconnectDue
      split
      · next hpending => exact absurd hpending hstate
      · rfl
    simp [helm, core, onTask, driveAndAct, drive, Link.Control.drive, Machine.step, hstays, act, actLimit]

end ReliableMulticast.PublisherLink
