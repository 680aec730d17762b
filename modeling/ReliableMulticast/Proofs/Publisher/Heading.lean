import ReliableMulticast.Proofs.Link.Intent
import ReliableMulticast.Proofs.Publisher.Link

/-!
# Where a publisher's link is heading

`Obeys l given wants` says that the link has the channel `given`, that the operator wants it up or down as `wants` says, and
that it is heading where the two of them send it. Every task keeps it, for the channel and the wish that the task brings or
else for those that were there (`Obeys.onTask`). It takes no part in the disconnect that may be under way, so it holds also
where a task overtakes one.
-/

namespace ReliableMulticast.PublisherLink

open Link (State Input Action Machine)

namespace Task

/-- What the operator wants with a task. -/
def wish? : Task → Option Bool
  | .up => some true
  | .down => some false
  | _ => none

def channel? : Task → Option Channel
  | .update channel => some channel
  | _ => none

end Task

structure Obeys (l : PublisherLink) (given : Channel) (wants : Bool) : Prop where
  channel : l.channel = given
  wantsUp : l.wantsUp = wants
  heading : l.state.wish = given.wish wants

variable {l : PublisherLink} {given : Channel} {wants : Bool}

/-! ### Actions -/

theorem Obeys.of_eq (h : l.Obeys given wants) {l' : PublisherLink} (hchannel : l'.channel = l.channel)
    (hwants : l'.wantsUp = l.wantsUp) (hcontrol : l'.control = l.control) : l'.Obeys given wants where
  channel := hchannel.trans h.channel
  wantsUp := hwants.trans h.wantsUp
  heading := by
    rw [← h.heading]
    exact congrArg (fun control => control.state.wish) hcontrol

theorem Obeys.drive (h : l.Obeys given wants) {input : Input} (hi : input.IsReport) :
    (l.drive input).1.Obeys given wants where
  channel := h.channel
  wantsUp := h.wantsUp
  heading := (Machine.wish_of_report l.control.machine hi).trans h.heading

theorem Obeys.connect (h : l.Obeys given wants) (env : Surroundings) : (l.connect env).1.Obeys given wants := by
  unfold PublisherLink.connect
  split
  · next fault hfault =>
    -- a channel with a fault puts the link to rest, where it should be already
    have hclosed : given.wish wants = none := Channel.wish_of_fault (h.channel ▸ hfault) wants
    exact ⟨h.channel, h.wantsUp, (Machine.wish_failed l.control.machine).trans hclosed.symm⟩
  · dsimp only
    split
    · next data resend hlisten =>
      have hopened : (l.establish (l.channel.endpoints l.control.isSecondary) data resend).1.Obeys given wants :=
        h.of_eq rfl rfl rfl
      have hreport : Input.connected.IsReport := trivial
      exact hopened.drive hreport
    · next e hlisten =>
      have hreport : (Input.reconnect false).IsReport := trivial
      exact h.drive hreport

theorem Obeys.startDisconnect (h : l.Obeys given wants) : l.startDisconnect.1.Obeys given wants := by
  unfold PublisherLink.startDisconnect
  split
  · exact h
  · exact h.of_eq rfl rfl rfl

theorem Obeys.perform (h : l.Obeys given wants) (env : Surroundings) (action : Action) :
    (l.perform env action).1.Obeys given wants := by
  cases action with
  | none => exact h
  | connect => exact h.connect env
  | disconnect => exact h.startDisconnect
  | scheduleReconnect immediate =>
    have hreport : Input.reconnectDue.IsReport := trivial
    cases immediate with
    | true => exact h.drive hreport
    | false => exact h.of_eq rfl rfl rfl
  | cancelReconnect => exact h.of_eq rfl rfl rfl

theorem Obeys.act (h : l.Obeys given wants) (env : Surroundings) (fuel : Nat) (action : Action) :
    (act env fuel l action).1.Obeys given wants := by
  induction fuel generalizing l action with
  | zero => exact h
  | succ fuel ih =>
    cases action with
    | none => exact h
    | connect => exact ih (h.perform env .connect) _
    | disconnect => exact ih (h.perform env .disconnect) _
    | scheduleReconnect immediate => exact ih (h.perform env (.scheduleReconnect immediate)) _
    | cancelReconnect => exact ih (h.perform env .cancelReconnect) _

theorem Obeys.driveAndAct (h : l.Obeys given wants) (env : Surroundings) {input : Input} (hi : input.IsReport) :
    (l.driveAndAct env input).1.Obeys given wants := by
  rw [driveAndAct_eq]
  exact (h.drive hi).act env _ _

/-- An input that decides where the link is heading. -/
theorem Obeys.turn (h : l.Obeys given wants) (env : Surroundings) (wants' : Bool) {input : Input}
    (hturn : (l.control.machine.step input).1.state.wish = l.control.machine.state.wish.map fun _ => wants') :
    (PublisherLink.driveAndAct { l with wantsUp := wants' } env input).1.Obeys given wants' := by
  have hobeys : (PublisherLink.drive { l with wantsUp := wants' } input).1.Obeys given wants' := by
    refine ⟨h.channel, rfl, ?_⟩
    rw [← Channel.map_wish given wants wants', ← h.heading]
    exact hturn
  rw [driveAndAct_eq]
  exact hobeys.act env _ _

/-! ### Tasks -/

/-- A link at rest is down once it is enabled, and from there it goes where the operator wants it. -/
theorem obeys_revive (hopen : l.channel.Open) (hrest : l.state.wish = none) (env : Surroundings) :
    (l.revive env).1.Obeys l.channel l.wantsUp := by
  have hheading := Channel.wish_of_open hopen
  unfold PublisherLink.revive
  dsimp only
  split
  · next hup =>
    have hwants : l.wantsUp = true := hup
    have hobeys : ((l.drive (.enable true)).1.drive .up).1.Obeys l.channel true :=
      ⟨rfl, hwants, (Machine.wish_enable_up hrest).trans (hheading true).symm⟩
    rw [hwants, driveAndAct_eq]
    exact hobeys.act env _ _
  · next hdown =>
    have hwants : l.wantsUp = false := Bool.eq_false_iff.2 hdown
    refine ⟨rfl, rfl, ?_⟩
    rw [hwants]
    exact (Machine.wish_enable hrest).trans (hheading false).symm

theorem Obeys.onUpdate (h : l.Obeys given wants) (env : Surroundings) (channel : Channel) :
    (l.onUpdate env channel).1.Obeys channel wants := by
  unfold PublisherLink.onUpdate
  split
  · next hsame =>
    rw [hsame, h.channel]
    exact h
  dsimp only
  split
  · next fault hfault =>
    have hobeys : (PublisherLink.drive { l with channel := channel } .failed).1.Obeys channel wants :=
      ⟨rfl, h.wantsUp, (Machine.wish_failed l.control.machine).trans (Channel.wish_of_fault hfault wants).symm⟩
    exact hobeys.act env _ _
  · next hvalid =>
    split
    · next hdisabled =>
      have hclosed : channel.wish wants = none := Channel.wish_of_disabled (by simpa using hdisabled) wants
      have hobeys : (PublisherLink.drive { l with channel := channel } (.enable false)).1.Obeys channel wants :=
        ⟨rfl, h.wantsUp, (Machine.wish_disable l.control.machine).trans hclosed.symm⟩
      rw [driveAndAct_eq]
      exact hobeys.act env _ _
    · next henabled =>
      have hopen : channel.Open := ⟨by simpa using henabled, hvalid⟩
      split
      · next hrest =>
        have hobeys := obeys_revive (l := { l with channel := channel }) hopen ((l.state.wish_eq_none_iff).2 hrest) env
        rw [← h.wantsUp]
        exact hobeys
      · next hawake =>
        have hwas : given.wish wants ≠ none := fun hrest =>
          hawake ((l.state.wish_eq_none_iff).1 (h.heading.trans hrest))
        have hobeys : Obeys { l with channel := channel } channel wants :=
          ⟨rfl, h.wantsUp, h.heading.trans (Channel.wish_eq_of_ne_none hwas hopen)⟩
        have hreport : (Input.reconnect true).IsReport := trivial
        exact hobeys.driveAndAct env hreport

theorem Obeys.onDrained (h : l.Obeys given wants) (env : Surroundings) (phase : DisconnectPhase) :
    (l.onDrained env phase).1.Obeys given wants := by
  unfold PublisherLink.onDrained
  split
  · exact h
  · cases phase with
    | detaching => exact h.of_eq rfl rfl rfl
    | draining => exact h.of_eq rfl rfl rfl
    | releasing =>
      have hgone : Obeys { l with phase := none, connection := none } given wants := h.of_eq rfl rfl rfl
      have hreport : Input.disconnected.IsReport := trivial
      exact hgone.driveAndAct env hreport

theorem Obeys.onAccepted (h : l.Obeys given wants) (generation : Nat) (conn : ConnId) (peer : Endpoint) :
    (l.onAccepted generation conn peer).1.Obeys given wants := by
  obtain ⟨-, hcontrol, hchannel, -⟩ := alike_onAccepted l generation conn peer
  refine h.of_eq hchannel ?_ hcontrol
  unfold PublisherLink.onAccepted
  split
  · split <;> rfl
  · rfl

theorem Obeys.onSessionClosed (h : l.Obeys given wants) (generation : Nat) (session : SessionId)
    (result : Except SessionFailure Bool) : (l.onSessionClosed generation session result).1.Obeys given wants := by
  obtain ⟨-, hcontrol, hchannel, -⟩ := alike_onSessionClosed l generation session result
  refine h.of_eq hchannel ?_ hcontrol
  unfold PublisherLink.onSessionClosed
  split
  · split
    · split <;> rfl
    · rfl
  · rfl

/-- Only the tasks that say so change where the link is heading. -/
theorem Obeys.onTask (h : l.Obeys given wants) (env : Surroundings) (task : Task) :
    (l.onTask env task).1.Obeys (task.channel?.getD given) (task.wish?.getD wants) := by
  cases task with
  | up => exact h.turn env true (Machine.wish_up l.control.machine)
  | down => exact h.turn env false (Machine.wish_down l.control.machine)
  | update channel => exact h.onUpdate env channel
  | accepted generation conn peer => exact h.onAccepted generation conn peer
  | listenerFailed generation error =>
    have hreport : (Input.reconnect false).IsReport := trivial
    unfold PublisherLink.onTask
    dsimp only
    split
    · exact h.driveAndAct env hreport
    · exact h
  | sessionState generation session state => exact h.of_eq rfl rfl rfl
  | sessionClosed generation session result => exact h.onSessionClosed generation session result
  | drained phase => exact h.onDrained env phase
  | reconnectDue =>
    have hobeys : Obeys { l with reconnectAt := none } given wants := h.of_eq rfl rfl rfl
    have hreport : Input.reconnectDue.IsReport := trivial
    exact hobeys.driveAndAct env hreport

theorem obeys_new (channel : Channel) (settings : Settings) : (new channel settings).1.Obeys channel false := by
  unfold PublisherLink.new
  dsimp only
  split
  · next fault hfault =>
    exact ⟨rfl, rfl, (Machine.wish_failed _).trans (Channel.wish_of_fault hfault false).symm⟩
  · next hvalid =>
    refine ⟨rfl, rfl, ?_⟩
    cases henabled : channel.enabled with
    | true => exact (Channel.wish_of_open ⟨henabled, hvalid⟩ false).symm
    | false => exact (Channel.wish_of_disabled henabled false).symm

end ReliableMulticast.PublisherLink
