import ReliableMulticast.Proofs.Link.Intent
import ReliableMulticast.Proofs.Subscriber.Calls

/-!
# Where a subscriber's link is heading

`Obeys l given wants` says that the link has the channel `given`, that the operator wants it up or down as `wants` says, and
that it is heading where the two of them send it.

Every task keeps it, for the channel and the wish that the task brings or else for those that were there
(`Obeys.onTask`), and so does every run (`obeys_onTasks`).
-/

namespace ReliableMulticast.SubscriberLink

open Link (State Input Action Machine)

/-! ### Wishes -/

namespace Task

/-- What the operator wants with a task. -/
def wish? : Task → Option Bool
  | .up => some true
  | .down => some false
  | _ => none

def channel? : Task → Option Channel
  | .update channel => some channel
  | _ => none

end Task

structure Obeys (l : SubscriberLink) (given : Channel) (wants : Bool) : Prop where
  channel : l.channel = given
  wantsUp : l.wantsUp = wants
  heading : l.state.wish = given.wish wants

section Obeys

variable {l : SubscriberLink} {given : Channel} {wants : Bool}

theorem Obeys.of_eq (h : l.Obeys given wants) {l' : SubscriberLink} (hchannel : l'.channel = l.channel)
    (hwants : l'.wantsUp = l.wantsUp) (hcontrol : l'.control = l.control) : l'.Obeys given wants where
  channel := hchannel.trans h.channel
  wantsUp := hwants.trans h.wantsUp
  heading := by
    rw [← h.heading]
    exact congrArg (fun control => control.state.wish) hcontrol

theorem Obeys.drive (h : l.Obeys given wants) {input : Input} (hi : input.IsReport) :
    (l.drive input).1.Obeys given wants where
  channel := h.channel
  wantsUp := h.wantsUp
  heading := (Machine.wish_of_report l.control.machine hi).trans h.heading

theorem Obeys.perform (h : l.Obeys given wants) (env : Surroundings) (action : Action) :
    (l.perform env action).1.Obeys given wants := by
  cases action with
  | none => exact h
  | connect =>
    unfold SubscriberLink.perform SubscriberLink.connect
    dsimp only
    split
    · next fault hfault =>
      -- a channel with a fault puts the link to rest, where it should be already
      have hclosed : given.wish wants = none := Channel.wish_of_fault (h.channel ▸ hfault) wants
      exact ⟨h.channel, h.wantsUp, (Machine.wish_failed l.control.machine).trans hclosed.symm⟩
    · exact h.of_eq rfl rfl rfl
  | disconnect =>
    have hgone : Obeys { l with connection := none } given wants := h.of_eq rfl rfl rfl
    have hreport : Input.disconnected.IsReport := trivial
    exact hgone.drive hreport
  | scheduleReconnect immediate =>
    have hreport : Input.reconnectDue.IsReport := trivial
    cases immediate with
    | true => exact h.drive hreport
    | false => exact h.of_eq rfl rfl rfl
  | cancelReconnect => exact h.of_eq rfl rfl rfl

theorem Obeys.act (h : l.Obeys given wants) (env : Surroundings) (fuel : Nat) (action : Action) :
    (act env fuel l action).1.Obeys given wants := by
  induction fuel generalizing l action with
  | zero => exact h
  | succ fuel ih =>
    cases action with
    | none => exact h
    | connect => exact ih (h.perform env .connect) _
    | disconnect => exact ih (h.perform env .disconnect) _
    | scheduleReconnect immediate => exact ih (h.perform env (.scheduleReconnect immediate)) _
    | cancelReconnect => exact ih (h.perform env .cancelReconnect) _

theorem Obeys.driveAndAct (h : l.Obeys given wants) (env : Surroundings) {input : Input} (hi : input.IsReport) :
    (l.driveAndAct env input).1.Obeys given wants := by
  rw [driveAndAct_eq]
  exact (h.drive hi).act env _ _

theorem Obeys.failWith (h : l.Obeys given wants) (env : Surroundings) (message : String) (immediate : Bool) :
    (l.failWith env message immediate).1.Obeys given wants :=
  have hreport : (Input.reconnect immediate).IsReport := trivial
  h.driveAndAct env hreport

/-- An input that decides where the link is heading. -/
theorem Obeys.turn (h : l.Obeys given wants) (env : Surroundings) (wants' : Bool) {input : Input}
    (hturn : (l.control.machine.step input).1.state.wish = l.control.machine.state.wish.map fun _ => wants') :
    (SubscriberLink.driveAndAct { l with wantsUp := wants' } env input).1.Obeys given wants' := by
  have hobeys : (SubscriberLink.drive { l with wantsUp := wants' } input).1.Obeys given wants' := by
    refine ⟨h.channel, rfl, ?_⟩
    rw [← Channel.map_wish given wants wants', ← h.heading]
    exact hturn
  rw [driveAndAct_eq]
  exact hobeys.act env _ _

/-- A link at rest is down once it is enabled, and from there it goes where the operator wants it. -/
theorem obeys_revive (hopen : l.channel.Open) (hrest : l.state.wish = none) (env : Surroundings) :
    (l.revive env).1.Obeys l.channel l.wantsUp := by
  have hheading := Channel.wish_of_open hopen
  unfold SubscriberLink.revive
  dsimp only
  split
  · next hup =>
    have hwants : l.wantsUp = true := hup
    have hobeys : ((l.drive (.enable true)).1.drive .up).1.Obeys l.channel true :=
      ⟨rfl, hwants, (Machine.wish_enable_up hrest).trans (hheading true).symm⟩
    rw [hwants, driveAndAct_eq]
    exact hobeys.act env _ _
  · next hdown =>
    have hwants : l.wantsUp = false := Bool.eq_false_iff.2 hdown
    refine ⟨rfl, rfl, ?_⟩
    rw [hwants]
    exact (Machine.wish_enable hrest).trans (hheading false).symm

theorem Obeys.onUpdate (h : l.Obeys given wants) (env : Surroundings) (channel : Channel) :
    (l.onUpdate env channel).1.Obeys channel wants := by
  unfold SubscriberLink.onUpdate
  split
  · next hsame =>
    rw [hsame, h.channel]
    exact h
  dsimp only
  split
  · next fault hfault =>
    have hobeys : (SubscriberLink.drive { l with channel := channel } .failed).1.Obeys channel wants :=
      ⟨rfl, h.wantsUp, (Machine.wish_failed l.control.machine).trans (Channel.wish_of_fault hfault wants).symm⟩
    exact hobeys.act env _ _
  · next hvalid =>
    split
    · next hdisabled =>
      have hclosed : channel.wish wants = none := Channel.wish_of_disabled (by simpa using hdisabled) wants
      have hobeys : (SubscriberLink.drive { l with channel := channel } (.enable false)).1.Obeys channel wants :=
        ⟨rfl, h.wantsUp, (Machine.wish_disable l.control.machine).trans hclosed.symm⟩
      rw [driveAndAct_eq]
      exact hobeys.act env _ _
    · next henabled =>
      have hopen : channel.Open := ⟨by simpa using henabled, hvalid⟩
      split
      · next hrest =>
        have hobeys := obeys_revive (l := { l with channel := channel }) hopen ((l.state.wish_eq_none_iff).2 hrest) env
        rw [← h.wantsUp]
        exact hobeys
      · next hawake =>
        have hwas : given.wish wants ≠ none := fun hrest =>
          hawake ((l.state.wish_eq_none_iff).1 (h.heading.trans hrest))
        have hobeys : Obeys { l with channel := channel } channel wants :=
          ⟨rfl, h.wantsUp, h.heading.trans (Channel.wish_eq_of_ne_none hwas hopen)⟩
        have hreport : (Input.reconnect true).IsReport := trivial
        exact hobeys.driveAndAct env hreport

theorem Obeys.onReceiver (h : l.Obeys given wants) (env : Surroundings) (thenClose : Bool)
    (ask : Receiver → Receiver.Answer) : (l.onReceiver env thenClose ask).1.Obeys given wants := by
  unfold SubscriberLink.onReceiver
  split
  · exact h
  · next c hc =>
    split
    · exact h
    · next socket r hr =>
      dsimp only
      have hobeys : Obeys { l with connection := some { c with
          receiver := some (socket, (ask r).receiver)
          tcpState := if thenClose then .disconnect else c.tcpState } } given wants := h.of_eq rfl rfl rfl
      split
      · exact hobeys
      · next e he => exact hobeys.failWith env e.message e.isImmediate

theorem Obeys.onTcpConnected (h : l.Obeys given wants) (env : Surroundings) (generation : Nat) (peer : Endpoint) :
    (l.onTcpConnected env generation peer).1.Obeys given wants := by
  unfold SubscriberLink.onTcpConnected
  split
  · exact h
  dsimp only
  split
  · next e he =>
    have hreport : (Input.reconnect false).IsReport := trivial
    exact h.driveAndAct env hreport
  · exact h.of_eq rfl rfl rfl

theorem Obeys.onTcpFrame (h : l.Obeys given wants) (env : Surroundings) (generation : Nat) (f : Frame) :
    (l.onTcpFrame env generation f).1.Obeys given wants := by
  unfold SubscriberLink.onTcpFrame
  split
  · exact h
  · next c hc =>
    split
    · unfold SubscriberLink.onLoginAnswer
      split
      · have hobeys : Obeys { l with connection := some { c with tcpState := .receiving, loginDeadline := none } }
            given wants := h.of_eq rfl rfl rfl
        have hreport : Input.connected.IsReport := trivial
        exact hobeys.driveAndAct env hreport
      · exact h.failWith env _ false
    · unfold SubscriberLink.onSnapshot
      split
      · exact h.onReceiver env false _
      · split
        · exact h.failWith env _ false
        split
        · exact h.failWith env _ false
        · exact h.onReceiver env true _
      · exact h.failWith env _ false
      · exact h
    · exact h
    · exact h

theorem Obeys.onTcpClosed (h : l.Obeys given wants) (env : Surroundings) (generation : Nat) (error : Option TcpFailure) :
    (l.onTcpClosed env generation error).1.Obeys given wants := by
  unfold SubscriberLink.onTcpClosed
  split
  · exact h
  split
  · exact h
  · exact h.failWith env _ false

/-- Only the tasks that say so change where the link is heading. -/
theorem Obeys.onTask (h : l.Obeys given wants) (env : Surroundings) (task : Task) :
    (l.onTask env task).1.Obeys (task.channel?.getD given) (task.wish?.getD wants) := by
  cases task with
  | up => exact h.turn env true (Machine.wish_up l.control.machine)
  | down => exact h.turn env false (Machine.wish_down l.control.machine)
  | update channel => exact h.onUpdate env channel
  | tcpConnected generation peer => exact h.onTcpConnected env generation peer
  | tcpFrame generation f => exact h.onTcpFrame env generation f
  | tcpClosed generation error => exact h.onTcpClosed env generation error
  | udp generation f =>
    show (l.onUdp env generation f).1.Obeys given wants
    unfold SubscriberLink.onUdp
    split
    · exact h
    · exact h.onReceiver env false _
  | manualResend call gap => exact h
  | reconnectDue =>
    have hobeys : Obeys { l with reconnectAt := none } given wants := h.of_eq rfl rfl rfl
    have hreport : Input.reconnectDue.IsReport := trivial
    exact hobeys.driveAndAct env hreport
  | loginTimeout =>
    have hobeys : l.forgetDeadline.Obeys given wants := h.of_eq rfl rfl rfl
    show (l.onLoginTimeout env).1.Obeys given wants
    unfold SubscriberLink.onLoginTimeout
    exact hobeys.failWith env _ false
  | requestTimer => exact h.onReceiver env false (·.onRequestTimer env.now)
  | livenessTick =>
    show (l.onLivenessTick env).1.Obeys given wants
    unfold SubscriberLink.onLivenessTick
    split
    · exact h.onReceiver env false _
    · exact h

theorem obeys_new (channel : Channel) (settings : Settings) : (new channel settings).1.Obeys channel false := by
  unfold SubscriberLink.new
  dsimp only
  split
  · next fault hfault =>
    exact ⟨rfl, rfl, (Machine.wish_failed _).trans (Channel.wish_of_fault hfault false).symm⟩
  · next hvalid =>
    refine ⟨rfl, rfl, ?_⟩
    cases henabled : channel.enabled with
    | true => exact (Channel.wish_of_open ⟨henabled, hvalid⟩ false).symm
    | false => exact (Channel.wish_of_disabled henabled false).symm

end Obeys

/-! ### Whole runs -/

theorem obeys_onTasks {l : SubscriberLink} {given : Channel} {wants : Bool} (h : l.Obeys given wants)
    (tasks : List (Surroundings × Task)) :
    (l.onTasks tasks).1.Obeys (lastGiven (·.2.channel?) given tasks) (lastGiven (·.2.wish?) wants tasks) := by
  induction tasks generalizing l given wants with
  | nil => exact h
  | cons first rest ih =>
    obtain ⟨env, task⟩ := first
    rw [lastGiven_cons, lastGiven_cons]
    exact ih (h.onTask env task)

end ReliableMulticast.SubscriberLink
