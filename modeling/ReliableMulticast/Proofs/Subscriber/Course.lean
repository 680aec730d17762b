import ReliableMulticast.Proofs.Link.Course

/-!
# The course of a subscriber's attempts

An attempt of a subscriber's link is a TCP connection that it starts. Whatever the link is asked for, the actions that follow
from one another come to an end (`toil_perform`), so that no task leaves an action behind.

Main statement (`lawful_helm`): all tasks of a subscriber's link are courses. An attempt is the last thing that a
task does, and the connection that it leaves is the one that it was made for (`launches_onTask`).
-/

namespace ReliableMulticast.SubscriberLink

open Link (State Input Action Machine Bearing Watch Scope Kind Helm Chain Leg Course Prompts)

/-! ### The helm -/

def Effect.change? : Effect → Option (State × State)
  | .notify e =>
    match e.report with
    | .stateChanged old new _ => some (old, new)
    | .alert .. => none
  | _ => none

def Effect.attempt : Effect → Bool
  | .connect .. => true
  | _ => false

/-- A connection is started at the place for logins; the others are where its data is. -/
def Effect.aims (e : Effect) (places : Endpoints) : Prop := ∃ generation, e = .connect generation places.tcp

def Task.kind : Task → Kind
  | .up => .up
  | .down => .down
  | .update channel => .update channel
  | .reconnectDue => .ring
  | _ => .report

def bearing (l : SubscriberLink) : Bearing :=
  ⟨l.control.machine, l.channel, l.reconnectAt, l.settings.reconnectInterval.nanos⟩

def helm : Helm SubscriberLink Surroundings Task Effect where
  toCore := core
  change? := Effect.change?
  attempt := Effect.attempt
  aims := Effect.aims
  bearing := bearing
  now := Surroundings.now
  kind := Task.kind
  disarm := fun l => { l with reconnectAt := none }

/-- Effects that neither make an attempt nor show a change. -/
abbrev Silent (effects : List Effect) : Prop := helm.Silent effects

/-- The last effect may be an attempt, at the places of the connection that it leaves. -/
def Launches (p : SubscriberLink × List Effect) : Prop :=
  ∀ pre e post, p.2 = pre ++ e :: post → e.attempt = true → post = [] ∧
    ∃ c, p.1.connection = some c ∧ e = .connect c.generation c.endpoints.tcp ∧
      c.endpoints = p.1.channel.endpoints p.1.control.isSecondary

/-- A task, or the rest of one, that is a course and does nothing after an attempt. -/
structure Steers (s : Scope) (l : SubscriberLink) (p : SubscriberLink × List Effect) : Prop where
  course : Course helm.toWatch s (l.bearing, .none) p.2 (p.1.bearing, .none)
  launches : Launches p

theorem silent_alert (l : SubscriberLink) (severity : Link.Severity) (message : String) :
    Silent [l.alert severity message] := by
  simp [Watch.Silent, helm, alert, Effect.attempt, Effect.change?, Link.Control.alert, Link.Control.event]

theorem shows_drive (l : SubscriberLink) (input : Input) :
    helm.Shows l.state (l.drive input).2.1 (l.control.machine.step input).1.state := by
  by_cases h : (l.control.machine.step input).1.state = l.control.machine.state
  · have hnothing : (l.drive input).2.1 = [] := by simp [drive, Link.Control.drive, h]
    rw [hnothing, h]
    exact .same
  · unfold drive Link.Control.drive
    dsimp only
    rw [if_neg h]
    exact .change h rfl rfl

/-- What becomes of an input, whatever it was fed for. -/
theorem leg_drive {s : Scope} (l : SubscriberLink) (action : Action) (input : Input)
    (hprompts : Prompts s l.channel action input) :
    Leg helm.toWatch s (l.bearing, action) (l.drive input).2.1 ((l.drive input).1.bearing, (l.drive input).2.2) :=
  .feed hprompts (shows_drive l input)

theorem course_rejectChannel {s : Scope} (l : SubscriberLink) {action : Action} (fault : ChannelFault)
    (hprompts : Prompts s l.channel action .failed) :
    Course helm.toWatch s (l.bearing, action) (l.rejectChannel fault).2.1
      ((l.rejectChannel fault).1.bearing, (l.rejectChannel fault).2.2) :=
  Chain.step (Leg.aside (silent_alert l .error fault.report)) (.single (leg_drive l action .failed hprompts))

/-! ### Actions -/

/-- How many actions may follow from this one, itself included. -/
def toil (m : Machine) : Action → Nat
  | .none => 0
  | .cancelReconnect => 1
  | .connect => 2
  | .scheduleReconnect _ => 3
  | .disconnect =>
    match m.state with
    | .reconnecting => 4
    | .connectPending => 3
    | _ => 1

theorem toil_le_actLimit (m : Machine) (action : Action) : toil m action ≤ actLimit := by
  cases action with
  | disconnect => cases hstate : m.state <;> simp [toil, hstate, actLimit]
  | _ => simp [toil, actLimit]

/-- A failure asks for no more than a disconnect that ends the link. -/
theorem toil_failed (m : Machine) : toil (m.step .failed).1 (m.step .failed).2 < 2 := by
  cases hstate : m.state <;>
    simp [Machine.step, Machine.onFailed, Machine.retire, Machine.goTo, Machine.stay, hstate, toil]

theorem toil_disconnected (m : Machine) : toil (m.step .disconnected).1 (m.step .disconnected).2 < toil m .disconnect := by
  cases hstate : m.state <;>
    simp [Machine.step, Machine.onDisconnected, Machine.goTo, Machine.stay, hstate, toil]

theorem toil_reconnectDue (m : Machine) : toil (m.step .reconnectDue).1 (m.step .reconnectDue).2 < 3 := by
  cases hstate : m.state <;>
    simp [Machine.step, Machine.onReconnectDue, Machine.goTo, Machine.stay, hstate, toil]

variable {env : Surroundings}

theorem toil_perform (env : Surroundings) (l : SubscriberLink) {action : Action} (ha : action ≠ .none) :
    toil (l.perform env action).1.control.machine (l.perform env action).2.2 < toil l.control.machine action := by
  rcases action with _ | _ | _ | (_ | _) | _
  · exact absurd rfl ha
  · show toil (l.connect env).1.control.machine (l.connect env).2.2 < 2
    unfold SubscriberLink.connect
    split
    · exact toil_failed l.control.machine
    · exact Nat.zero_lt_two
  · exact toil_disconnected l.control.machine
  · exact Nat.zero_lt_succ 2
  · exact toil_reconnectDue l.control.machine
  · exact Nat.zero_lt_one

theorem disconnect_effects (l : SubscriberLink) :
    l.disconnect.2.1 = ((l.connection.map fun c => Effect.close c.generation).toList ++ [.clearManual]) ++
      ({ l with connection := none }.drive .disconnected).2.1 := by
  rw [List.append_assoc]
  rfl

theorem silent_closing (l : SubscriberLink) :
    Silent ((l.connection.map fun c => Effect.close c.generation).toList ++ [.clearManual]) := by
  cases l.connection <;> simp [Watch.Silent, helm, Effect.attempt, Effect.change?]

theorem course_perform {s : Scope} (hnow : s.time env.now) (l : SubscriberLink) {action : Action} :
    Course helm.toWatch s (l.bearing, action) (l.perform env action).2.1
      ((l.perform env action).1.bearing, (l.perform env action).2.2) := by
  rcases action with _ | _ | _ | (_ | _) | _
  · exact .refl _
  · show Course helm.toWatch s (l.bearing, .connect) (l.connect env).2.1 ((l.connect env).1.bearing, (l.connect env).2.2)
    unfold SubscriberLink.connect
    split
    · next fault hfault => exact course_rejectChannel l fault (.rejected hfault)
    · exact .single (.launch rfl rfl ⟨_, rfl⟩)
  · have hgone := leg_drive (s := s) { l with connection := none } .disconnect .disconnected .released
    show Course helm.toWatch s (l.bearing, .disconnect) l.disconnect.2.1 (l.disconnect.1.bearing, l.disconnect.2.2)
    rw [disconnect_effects]
    exact Chain.step (Leg.aside (silent_closing l)) (.single hgone)
  · exact .single (.putOff hnow)
  · exact .single (leg_drive l (.scheduleReconnect true) .reconnectDue .resumed)
  · exact .single .cancel

theorem course_act {s : Scope} (hnow : s.time env.now) (l : SubscriberLink) {action : Action} {fuel : Nat}
    (hfuel : toil l.control.machine action ≤ fuel) :
    Course helm.toWatch s (l.bearing, action) (act env fuel l action).2 ((act env fuel l action).1.bearing, .none) := by
  induction fuel generalizing l action with
  | zero =>
    have hnone : action = .none := by
      by_contra ha
      have hless := toil_perform env l ha
      omega
    subst hnone
    exact .refl _
  | succ fuel ih =>
    by_cases ha : action = .none
    · subst ha
      exact .refl _
    · rw [act_succ l ha]
      have hless := toil_perform env l ha
      exact (course_perform hnow l).trans (ih _ (by omega))

theorem idle_rejectChannel (l : SubscriberLink) (fault : ChannelFault) :
    ∀ e ∈ (l.rejectChannel fault).2.1, e.attempt = false := by
  intro e he
  rcases List.mem_cons.1 he with rfl | he
  · exact (silent_alert l .error fault.report _ List.mem_cons_self).1
  · exact (shows_drive l .failed).idle e he

theorem launches_of_idle {p : SubscriberLink × List Effect} (h : ∀ e ∈ p.2, e.attempt = false) : Launches p := by
  intro pre e post heffects hattempt
  rw [h e (by simp [heffects])] at hattempt
  cases hattempt

theorem Launches.behind {p : SubscriberLink × List Effect} (h : Launches p) {effects : List Effect}
    (hidle : ∀ e ∈ effects, e.attempt = false) : Launches (p.1, effects ++ p.2) := by
  intro pre e post heffects hattempt
  rcases List.append_eq_append_iff.1 heffects with ⟨others, -, hothers⟩ | ⟨others, rfl, hothers⟩
  · exact h others e post hothers hattempt
  · cases others with
    | nil => exact h [] e post hothers.symm hattempt
    | cons other others =>
      obtain ⟨rfl, -⟩ := List.cons.inj hothers
      rw [hidle e (by simp)] at hattempt
      cases hattempt

/-- An attempt leaves nothing to carry out. -/
theorem launches_perform (env : Surroundings) (l : SubscriberLink) (action : Action) :
    (∀ e ∈ (l.perform env action).2.1, e.attempt = false) ∨
      (l.perform env action).2.2 = .none ∧ Launches ((l.perform env action).1, (l.perform env action).2.1) := by
  rcases action with _ | _ | _ | (_ | _) | _
  · exact Or.inl (by simp [perform])
  · show (∀ e ∈ (l.connect env).2.1, e.attempt = false) ∨
      (l.connect env).2.2 = .none ∧ Launches ((l.connect env).1, (l.connect env).2.1)
    unfold SubscriberLink.connect
    split
    · next fault hfault => exact Or.inl (idle_rejectChannel l fault)
    · refine Or.inr ⟨rfl, fun pre e post heffects hattempt => ?_⟩
      cases pre with
      | nil =>
        obtain ⟨rfl, rfl⟩ := List.cons.inj heffects
        exact ⟨rfl, _, rfl, rfl, rfl⟩
      | cons other rest => simp at heffects
  · refine Or.inl fun e he => ?_
    have he : e ∈ l.disconnect.2.1 := he
    rw [disconnect_effects] at he
    rcases List.mem_append.1 he with he | he
    · exact (silent_closing l e he).1
    · exact (shows_drive _ .disconnected).idle e he
  · exact Or.inl (by simp [perform])
  · exact Or.inl (shows_drive l .reconnectDue).idle
  · exact Or.inl (by simp [perform])

theorem launches_act (fuel : Nat) (l : SubscriberLink) (action : Action) : Launches (act env fuel l action) := by
  induction fuel generalizing l action with
  | zero => exact launches_of_idle (by simp [act])
  | succ fuel ih =>
    by_cases ha : action = .none
    · subst ha
      exact launches_of_idle (by simp [act])
    · rw [act_succ l ha]
      rcases launches_perform env l action with hidle | ⟨hnothing, hlaunches⟩
      · exact (ih _ _).behind hidle
      · rw [hnothing]
        cases fuel <;> simpa [act] using hlaunches

/-! ### Tasks -/

section Tasks

variable {k : Kind} {m : Machine}

theorem Steers.after {s : Scope} {l l' : SubscriberLink} {p : SubscriberLink × List Effect} (h : Steers s l' p)
    {effects : List Effect} (hleg : Leg helm.toWatch s (l.bearing, .none) effects (l'.bearing, .none))
    (hidle : ∀ e ∈ effects, e.attempt = false) : Steers s l (p.1, effects ++ p.2) :=
  ⟨.step hleg h.course, h.launches.behind hidle⟩

theorem Steers.told {s : Scope} {l : SubscriberLink} {p : SubscriberLink × List Effect} (h : Steers s l p)
    {effects : List Effect} (hsilent : Silent effects) : Steers s l (p.1, effects ++ p.2) :=
  h.after (.aside hsilent) fun e he => (hsilent e he).1

theorem Steers.of_bearing {s : Scope} {l l' : SubscriberLink} {p : SubscriberLink × List Effect} (h : Steers s l' p)
    (hbearing : l'.bearing = l.bearing) : Steers s l p := by
  refine ⟨?_, h.launches⟩
  rw [← hbearing]
  exact h.course

theorem steers_silent {s : Scope} {l l' : SubscriberLink} (hbearing : l'.bearing = l.bearing) {effects : List Effect}
    (h : Silent effects) : Steers s l (l', effects) := by
  have hself : Steers s l' (l', effects) := ⟨.single (.aside h), launches_of_idle fun e he => (h e he).1⟩
  exact hself.of_bearing hbearing

theorem steers_self {s : Scope} (l : SubscriberLink) : Steers s l (l, []) := ⟨.refl _, launches_of_idle (by simp)⟩

/-- What the machine asks for in answer to an input. -/
theorem steers_driveAndAct (l : SubscriberLink) (input : Input) (hfeeds : k.Feeds m input) (hne : input ≠ .reconnectDue) :
    Steers (k.scope m env.now) l (l.driveAndAct env input) := by
  rw [driveAndAct_eq]
  refine ⟨?_, (launches_act actLimit _ _).behind (shows_drive l input).idle⟩
  exact .step (leg_drive l .none _ (.task hfeeds hne)) (course_act rfl _ (toil_le_actLimit _ _))

theorem steers_failWith (l : SubscriberLink) (message : String) (immediate : Bool) :
    Steers (k.scope m env.now) l (l.failWith env message immediate) :=
  (steers_driveAndAct (k := k) (m := m) l (.reconnect immediate) trivial (by simp)).told
    (silent_alert l .warning message)

theorem steers_revive (l : SubscriberLink) (hrest : m.AtRest) (hupdate : k.Updates fun _ => True) :
    Steers (k.scope m env.now) l (l.revive env) := by
  have henable : Leg helm.toWatch (k.scope m env.now) (l.bearing, .none) (l.drive (.enable true)).2.1
      ((l.drive (.enable true)).1.bearing, .none) := by
    have hdrive := leg_drive (s := k.scope m env.now) l .none (.enable true) (.task ⟨hrest, hupdate⟩ (by simp))
    have hnothing : (l.drive (.enable true)).2.2 = .none := Machine.step_enable_true l.control.machine
    rwa [hnothing] at hdrive
  have hidle := (shows_drive l (.enable true)).idle
  unfold revive
  rcases hd : l.drive (.enable true) with ⟨l', effects, action⟩
  rw [hd] at henable hidle
  dsimp only
  split
  · exact (steers_driveAndAct l' .up (Or.inr ⟨hrest, hupdate⟩) (by simp)).after henable hidle
  · exact ⟨.single henable, launches_of_idle hidle⟩

/-- The link with the channel that the task comes with. -/
def noted (l : SubscriberLink) : Task → SubscriberLink
  | .update channel => { l with channel := channel }
  | _ => l

theorem steers_onUpdate (l : SubscriberLink) (channel : Channel) :
    Steers ((Kind.update channel).scope l.control.machine env.now) { l with channel := channel }
      (l.onUpdate env channel) := by
  unfold onUpdate
  split
  · next hsame =>
    subst hsame
    exact (steers_self l).of_bearing rfl
  dsimp only
  split
  · next fault hfault =>
    have hfaulty : (Kind.update channel).Feeds l.control.machine .failed := ⟨channel, rfl, by simp [hfault]⟩
    have hreject := course_rejectChannel (s := (Kind.update channel).scope l.control.machine env.now)
      { l with channel := channel } fault (.task hfaulty (by simp))
    have hidle := idle_rejectChannel { l with channel := channel } fault
    exact ⟨hreject.trans (course_act rfl _ (toil_le_actLimit _ _)), (launches_act actLimit _ _).behind hidle⟩
  split
  · next henabled => exact steers_driveAndAct _ (.enable false) ⟨channel, rfl, by simpa using henabled⟩ (by simp)
  split
  · next hrest => exact steers_revive _ hrest ⟨channel, rfl, trivial⟩
  · exact steers_driveAndAct _ (.reconnect true) trivial (by simp)

theorem silent_outputs (socket : SocketId) (outputs : List Receiver.Output) : Silent (outputs.map (ofOutput socket)) := by
  intro e he
  obtain ⟨o, -, rfl⟩ := List.mem_map.1 he
  cases o <;> exact ⟨rfl, rfl⟩

theorem steers_onReceiver (l : SubscriberLink) (thenClose : Bool) (ask : Receiver → Receiver.Answer) :
    Steers (k.scope m env.now) l (l.onReceiver env thenClose ask) := by
  unfold onReceiver
  split
  · exact steers_self l
  · next c hc =>
    split
    · exact steers_self l
    · next socket r hr =>
      have hsilent : Silent ((ask r).outputs.map (ofOutput socket) ++ if thenClose then [.closeTcp c.generation] else []) := by
        refine (silent_outputs socket (ask r).outputs).append ?_
        cases thenClose <;> simp [Watch.Silent, helm, Effect.attempt, Effect.change?]
      dsimp only
      split
      · exact steers_silent (by rfl) hsilent
      · next e he =>
        refine Steers.told (p := failWith _ env e.message e.isImmediate) ?_ hsilent
        exact (steers_failWith _ e.message e.isImmediate).of_bearing rfl

theorem steers_onTcpConnected (l : SubscriberLink) (generation : Nat) (peer : Endpoint) :
    Steers (k.scope m env.now) l (l.onTcpConnected env generation peer) := by
  unfold onTcpConnected
  split
  · exact steers_self l
  · next c hc =>
    dsimp only
    split
    · next e he =>
      have hvain : Silent [.openUdpInVain c.endpoints.udp] := (by simp [Watch.Silent, helm, Effect.attempt, Effect.change?])
      exact (steers_failWith (k := k) (m := m) l _ false).told hvain
    · exact steers_silent (by rfl) ((by simp [Watch.Silent, helm, Effect.attempt, Effect.change?]))

theorem steers_onLoginAnswer (l : SubscriberLink) (c : Connection) (f : Frame) :
    Steers (k.scope m env.now) l (l.onLoginAnswer env c f) := by
  unfold onLoginAnswer
  split
  · exact (steers_driveAndAct { l with connection := some { c with tcpState := .receiving, loginDeadline := none } }
      .connected trivial (by simp)).of_bearing rfl
  · exact steers_failWith l _ false

theorem steers_onSnapshot (l : SubscriberLink) (f : Frame) : Steers (k.scope m env.now) l (l.onSnapshot env f) := by
  unfold onSnapshot
  split
  · exact steers_onReceiver l false _
  · split
    · exact steers_failWith l _ false
    split
    · exact steers_failWith l _ false
    · exact steers_onReceiver l true _
  · exact steers_failWith l _ false
  · exact steers_silent rfl ((by simp [Watch.Silent, helm, Effect.attempt, Effect.change?]))

theorem steers_onTcpFrame (l : SubscriberLink) (generation : Nat) (f : Frame) :
    Steers (k.scope m env.now) l (l.onTcpFrame env generation f) := by
  unfold onTcpFrame
  split
  · exact steers_self l
  · next c hc =>
    split
    · exact steers_onLoginAnswer l c f
    · exact steers_onSnapshot l f
    · exact steers_self l
    · exact steers_self l

theorem steers_onTcpClosed (l : SubscriberLink) (generation : Nat) (error : Option TcpFailure) :
    Steers (k.scope m env.now) l (l.onTcpClosed env generation error) := by
  unfold onTcpClosed
  split
  · exact steers_self l
  split
  · exact steers_self l
  · exact steers_failWith l _ false

theorem steers_onTask (env : Surroundings) (l : SubscriberLink) (task : Task) :
    Steers (task.kind.scope l.control.machine env.now) (l.noted task) (l.onTask env task) := by
  cases task with
  | up => exact (steers_driveAndAct { l with wantsUp := true } .up (Or.inl rfl) (by simp)).of_bearing rfl
  | down => exact (steers_driveAndAct { l with wantsUp := false } .down rfl (by simp)).of_bearing rfl
  | update channel => exact steers_onUpdate l channel
  | tcpConnected generation peer => exact steers_onTcpConnected l generation peer
  | tcpFrame generation f => exact steers_onTcpFrame l generation f
  | tcpClosed generation error => exact steers_onTcpClosed l generation error
  | udp generation f =>
    show Steers _ l (l.onUdp env generation f)
    unfold onUdp
    split
    · exact steers_self l
    · exact steers_onReceiver l false _
  | manualResend call gap =>
    refine steers_silent rfl ?_
    show Silent (l.onManualResend call gap)
    unfold onManualResend
    split
    · simp [Watch.Silent, helm, Effect.attempt, Effect.change?]
    split <;> simp [Watch.Silent, helm, Effect.attempt, Effect.change?, ofOutput, Receiver.request]
  | reconnectDue =>
    have hring : Leg helm.toWatch (Task.reconnectDue.kind.scope l.control.machine env.now) (l.bearing, .none) _
        ({ l.bearing with reconnectAt := none }.fed .reconnectDue) := .ring rfl (shows_drive l .reconnectDue)
    show Steers _ l ({ l with reconnectAt := none }.driveAndAct env .reconnectDue)
    rw [driveAndAct_eq]
    refine ⟨.step hring (course_act rfl ({ l with reconnectAt := none }.drive .reconnectDue).1 (toil_le_actLimit _ _)), ?_⟩
    exact (launches_act actLimit _ _).behind (shows_drive l .reconnectDue).idle
  | loginTimeout =>
    show Steers _ l (l.onLoginTimeout env)
    unfold onLoginTimeout
    exact (steers_failWith l.forgetDeadline _ false).of_bearing rfl
  | requestTimer =>
    show Steers _ l (l.onReceiver env false (·.onRequestTimer env.now))
    exact steers_onReceiver l false _
  | livenessTick =>
    show Steers _ l (l.onLivenessTick env)
    unfold onLivenessTick
    split
    · exact steers_onReceiver l false _
    · exact steers_self l

end Tasks

theorem lawful_helm : helm.Lawful where
  course := by
    intro l env task
    have hnoted : (l.noted task).bearing = task.kind.note l.bearing := by
      cases task <;> rfl
    have hcourse := (steers_onTask env l task).course
    rw [hnoted] at hcourse
    exact hcourse
  expires := by
    intro l env task htask hstate
    have hring : task = .reconnectDue := by
      cases task <;> first | rfl | cases htask
    subst hring
    have hstays : l.control.machine.onReconnectDue = (l.control.machine, .none) := by
      unfold Machine.onReconnectDue
      split
      · next hpending => exact absurd hpending hstate
      · rfl
    simp [helm, core, onTask, driveAndAct, drive, Link.Control.drive, Machine.step, hstays, act, actLimit]

/-- The attempt of a task is its last effect, at the places of the connection that it leaves. -/
theorem launches_onTask (l : SubscriberLink) (env : Surroundings) (task : Task) : Launches (l.onTask env task) :=
  (steers_onTask _ l task).launches

end ReliableMulticast.SubscriberLink
