import ReliableMulticast.Proofs.Frame.Codec
import ReliableMulticast.Proofs.Subscriber.Heading

/-!
# How a subscriber's link is made up

`Attempts l greeted` says of the connection of a link, if there is one, that it uses places of the channel that the link has
now, that it has a deadline until the login is acknowledged, and that it has a receiver once its TCP connection has shown up.
The generations whose TCP connections have done so are `greeted`.

An action that ends the connection makes this true whatever was there before (`Attempts.of_end`), so it holds after every
task, even where the channel was exchanged or the deadline forgotten in its course. It asks that a TCP connection shows up
before its frames (`Announced`).

Main statement (`formed_onTasks`): with what `Consistent` and `Obeys` say of the machine, this makes up the link at any time
between two tasks (`Formed`).
-/

namespace ReliableMulticast.SubscriberLink

open Link (State Input Action Machine)

/-! ### Attempts -/

/-- A connection of a link with this channel. -/
structure Connection.Fits (c : Connection) (channel : Channel) (greeted : List Nat) : Prop where
  endpoints : ∃ second, c.endpoints = channel.endpoints second
  deadline : c.loginDeadline = none ↔ c.tcpState ≠ .login
  receiver : c.tcpState ≠ .login ∨ c.generation ∈ greeted → c.receiver.isSome = true

structure Attempts (l : SubscriberLink) (greeted : List Nat) : Prop where
  fits : ∀ c, l.connection = some c → c.Fits l.channel greeted
  greeted : ∀ g ∈ greeted, g ≤ l.generation

section Attempts

variable {l : SubscriberLink} {greeted : List Nat}

theorem Attempts.of_eq (h : l.Attempts greeted) {l' : SubscriberLink} (hchannel : l'.channel = l.channel)
    (hconnection : l'.connection = l.connection) (hgeneration : l'.generation = l.generation) : l'.Attempts greeted where
  fits := by rw [hchannel, hconnection]; exact h.fits
  greeted := by rw [hgeneration]; exact h.greeted

theorem attempts_of_unconnected (hnone : l.connection = none) (hg : ∀ g ∈ greeted, g ≤ l.generation) :
    l.Attempts greeted := by
  refine ⟨fun c hc => ?_, hg⟩
  rw [hnone] at hc
  cases hc

/-- The connection of a new attempt has not shown up yet. -/
theorem Attempts.connect (h : l.Attempts greeted) (env : Surroundings) : (l.connect env).1.Attempts greeted := by
  unfold SubscriberLink.connect
  split
  · exact h.of_eq rfl rfl rfl
  · refine ⟨?_, fun g hg => Nat.le_succ_of_le (h.greeted g hg)⟩
    rintro c ⟨⟩
    refine ⟨⟨l.control.isSecondary, rfl⟩, by simp, ?_⟩
    rintro (hlogin | hmem)
    · exact absurd rfl hlogin
    · have hle : l.generation + 1 ≤ l.generation := h.greeted _ hmem
      omega

theorem attempts_disconnect (hg : ∀ g ∈ greeted, g ≤ l.generation) : l.disconnect.1.Attempts greeted :=
  attempts_of_unconnected rfl hg

theorem Attempts.perform (h : l.Attempts greeted) (env : Surroundings) (action : Action) :
    (l.perform env action).1.Attempts greeted := by
  cases action with
  | none => exact h
  | connect => exact h.connect env
  | disconnect => exact attempts_disconnect h.greeted
  | scheduleReconnect immediate =>
    cases immediate with
    | true => exact h.of_eq rfl rfl rfl
    | false => exact h.of_eq rfl rfl rfl
  | cancelReconnect => exact h.of_eq rfl rfl rfl

theorem Attempts.act (h : l.Attempts greeted) (env : Surroundings) (fuel : Nat) (action : Action) :
    (act env fuel l action).1.Attempts greeted := by
  induction fuel generalizing l action with
  | zero => exact h
  | succ fuel ih =>
    cases action with
    | none => exact h
    | connect => exact ih (h.perform env .connect) _
    | disconnect => exact ih (h.perform env .disconnect) _
    | scheduleReconnect immediate => exact ih (h.perform env (.scheduleReconnect immediate)) _
    | cancelReconnect => exact ih (h.perform env .cancelReconnect) _

theorem Attempts.driveAndAct (h : l.Attempts greeted) (env : Surroundings) (input : Input) :
    (l.driveAndAct env input).1.Attempts greeted := by
  have hdriven : (l.drive input).1.Attempts greeted := h.of_eq rfl rfl rfl
  rw [driveAndAct_eq]
  exact hdriven.act env _ _

/-- An input that ends a connection. -/
def Ends : Input → Prop
  | .reconnect _ => True
  | .failed => True
  | .enable enabled => enabled = false
  | _ => False

theorem step_of_ends {m : Machine} {c : Connection} (h : Settled m (some c)) {input : Input} (hends : Ends input) :
    (m.step input).2 = .disconnect := by
  have hstate : m.state = .up ∨ m.state = .connecting ∨ m.state = .disconnectPending ∧ m.begun = false := by
    rcases h with ⟨hup, -⟩ | ⟨hconnecting | hpending, -⟩
    · exact Or.inl hup
    · exact Or.inr (Or.inl hconnecting)
    · exact Or.inr (Or.inr hpending)
  cases input with
  | reconnect immediate =>
    rcases hstate with hstate | hstate | ⟨hstate, hbegun⟩ <;> simp [Machine.step, Machine.onReconnect, Machine.goTo, *]
  | failed =>
    rcases hstate with hstate | hstate | ⟨hstate, -⟩ <;>
      simp [Machine.step, Machine.onFailed, Machine.retire, Machine.goTo, *]
  | enable enabled =>
    obtain rfl : enabled = false := hends
    rcases hstate with hstate | hstate | ⟨hstate, -⟩ <;>
      simp [Machine.step, Machine.onEnable, Machine.retire, Machine.goTo, *]
  | up => exact hends.elim
  | down => exact hends.elim
  | connected => exact hends.elim
  | disconnected => exact hends.elim
  | reconnectDue => exact hends.elim

theorem act_disconnect (l : SubscriberLink) (env : Surroundings) (fuel : Nat) :
    (act env (fuel + 1) l .disconnect).1 = (act env fuel l.disconnect.1 l.disconnect.2.2).1 :=
  rfl

/-- After the end of a connection it does not matter what it was like. -/
theorem attempts_of_end (h : Settled l.control.machine l.connection) (hg : ∀ g ∈ greeted, g ≤ l.generation)
    (env : Surroundings) {input : Input} (hends : Ends input) :
    (act env actLimit (l.drive input).1 (l.drive input).2.2).1.Attempts greeted := by
  cases hc : l.connection with
  | none =>
    have hdriven : (l.drive input).1.Attempts greeted := attempts_of_unconnected hc hg
    exact hdriven.act env _ _
  | some c =>
    rw [hc] at h
    have haction : (l.drive input).2.2 = .disconnect := step_of_ends h hends
    have hgone : (l.drive input).1.disconnect.1.Attempts greeted := attempts_disconnect hg
    rw [haction, show actLimit = 7 + 1 from rfl, act_disconnect]
    exact hgone.act env 7 _

theorem attempts_failWith (h : l.Consistent) (hg : ∀ g ∈ greeted, g ≤ l.generation) (env : Surroundings)
    (message : String) (immediate : Bool) : (l.failWith env message immediate).1.Attempts greeted := by
  have hends : Ends (.reconnect immediate) := trivial
  have hattempts := attempts_of_end h.settled hg env hends
  unfold SubscriberLink.failWith
  rw [driveAndAct_eq]
  exact hattempts

theorem Consistent.connected_iff (h : l.Consistent) :
    l.connection.isSome = true ↔ l.state = .connecting ∨ l.state = .up ∨ l.state = .disconnectPending := by
  have hsettled := h.settled
  have hstate : l.state = l.control.machine.state := rfl
  cases hc : l.connection with
  | none =>
    rw [hc] at hsettled
    rcases hsettled with hwas | hwas | hwas | hwas <;> simp [hstate, hwas]
  | some c =>
    rw [hc] at hsettled
    rcases hsettled with ⟨hwas, -⟩ | ⟨hwas | ⟨hwas, -⟩, -⟩ <;> simp [hstate, hwas]

end Attempts

/-! ### Tasks -/

section Tasks

variable {l : SubscriberLink} {greeted : List Nat}

theorem Attempts.onUpdate (h : l.Attempts greeted) (hl : l.Consistent) (env : Surroundings) (channel : Channel) :
    (l.onUpdate env channel).1.Attempts greeted := by
  unfold SubscriberLink.onUpdate
  split
  · exact h
  dsimp only
  split
  · next fault hfault =>
    have hends : Ends .failed := trivial
    exact attempts_of_end (l := { l with channel := channel }) hl.settled h.greeted env hends
  · next hvalid =>
    split
    · have hends : Ends (.enable false) := rfl
      rw [driveAndAct_eq]
      exact attempts_of_end (l := { l with channel := channel }) hl.settled h.greeted env hends
    split
    · next hrest =>
      have hnone : l.connection = none := by
        rw [← Option.not_isSome_iff_eq_none, hl.connected_iff]
        rcases hrest with hrest | hrest
        · have hstate : l.state = .disabled := hrest
          simp [hstate]
        · have hstate : l.state = .failed := hrest
          simp [hstate]
      have henabled : (SubscriberLink.drive { l with channel := channel } (.enable true)).1.Attempts greeted :=
        attempts_of_unconnected hnone h.greeted
      unfold SubscriberLink.revive
      dsimp only
      split
      · exact henabled.driveAndAct env .up
      · exact henabled
    · have hends : Ends (.reconnect true) := trivial
      rw [driveAndAct_eq]
      exact attempts_of_end (l := { l with channel := channel }) hl.settled h.greeted env hends

/-- A receiver keeps what holds of its connection, if no more than the end of the snapshot closes the TCP side. -/
theorem Attempts.onReceiver (h : l.Attempts greeted) (hl : l.Consistent) (env : Surroundings) (call : Receiver.Call)
    (htcp : ∀ c, l.connection = some c → onTcp call = true → c.tcpState = .receiving) :
    (l.onReceiver env (closes call) (·.onCall env.now call)).1.Attempts greeted := by
  unfold SubscriberLink.onReceiver
  split
  · exact h
  · next c hc =>
    split
    · exact h
    · next socket r hr =>
      have hafter := hl.after env.now hc hr (htcp c hc)
      have hfits := h.fits c hc
      have hlogin : (c.after socket call (r.onCall env.now call)).tcpState ≠ .login ↔ c.tcpState ≠ .login := by
        rw [Connection.after_tcpState]
        cases hcloses : closes call with
        | true => simp [htcp c hc (onTcp_of_closes hcloses)]
        | false => simp
      have hattempts : Attempts { l with connection := some (c.after socket call (r.onCall env.now call)) } greeted := by
        refine ⟨?_, h.greeted⟩
        rintro c' ⟨⟩
        exact ⟨hfits.endpoints, hfits.deadline.trans hlogin.symm, fun _ => rfl⟩
      dsimp only
      split
      · exact hattempts
      · next e he =>
        dsimp only
        exact attempts_failWith hafter h.greeted env e.message e.isImmediate

/-- The generations whose TCP connections have shown up, after a task. -/
def greet (l : SubscriberLink) (greeted : List Nat) : Task → List Nat
  | .tcpConnected generation _ => if generation ≤ l.generation then generation :: greeted else greeted
  | _ => greeted

theorem mem_greet {g : Nat} {task : Task} (hg : g ∈ l.greet greeted task) :
    g ∈ greeted ∨ g ≤ l.generation ∧ ∃ peer, task = .tcpConnected g peer := by
  cases task with
  | tcpConnected generation peer =>
    by_cases hle : generation ≤ l.generation
    · simp only [greet, hle, if_true, List.mem_cons] at hg
      rcases hg with rfl | hg
      · exact Or.inr ⟨hle, peer, rfl⟩
      · exact Or.inl hg
    · simp only [greet, hle, if_false] at hg
      exact Or.inl hg
  | _ => exact Or.inl hg

theorem Attempts.onTcpConnected (h : l.Attempts greeted) (hl : l.Consistent) (env : Surroundings) (generation : Nat)
    (peer : Endpoint) :
    (l.onTcpConnected env generation peer).1.Attempts (l.greet greeted (.tcpConnected generation peer)) := by
  have hgreeted : ∀ g ∈ l.greet greeted (.tcpConnected generation peer), g ≤ l.generation := by
    intro g hg
    rcases mem_greet hg with hg | ⟨hle, -⟩
    · exact h.greeted g hg
    · exact hle
  unfold SubscriberLink.onTcpConnected
  split
  · next hcurrent =>
    refine ⟨fun c hc => ?_, hgreeted⟩
    have hfits := h.fits c hc
    refine ⟨hfits.endpoints, hfits.deadline, ?_⟩
    rintro (hlogin | hg)
    · exact hfits.receiver (Or.inl hlogin)
    · rcases mem_greet hg with hg | ⟨-, _, hnew⟩
      · exact hfits.receiver (Or.inr hg)
      · cases hnew
        have hconnection : l.connection = some c := hc
        simp [current?, hconnection] at hcurrent
  · next c hcurrent =>
    obtain ⟨hc, -⟩ := current?_eq_some hcurrent
    dsimp only
    split
    · next e he =>
      have hends : Ends (.reconnect false) := trivial
      have hattempts := attempts_of_end hl.settled hgreeted env hends
      unfold SubscriberLink.failWith
      rw [driveAndAct_eq]
      exact hattempts
    · next socket hsocket =>
      have hfits := h.fits c hc
      refine ⟨?_, hgreeted⟩
      rintro c' ⟨⟩
      exact ⟨hfits.endpoints, hfits.deadline, fun _ => rfl⟩

theorem Attempts.onTcpFrame (h : l.Attempts greeted) (hl : l.Consistent) (env : Surroundings) {generation : Nat}
    (hg : generation ∈ greeted) (f : Frame) : (l.onTcpFrame env generation f).1.Attempts greeted := by
  unfold SubscriberLink.onTcpFrame
  split
  · exact h
  · next c hcurrent =>
    obtain ⟨hc, rfl⟩ := current?_eq_some hcurrent
    have hfits := h.fits c hc
    split
    · unfold SubscriberLink.onLoginAnswer
      split
      · have hattempts : Attempts { l with connection := some { c with tcpState := .receiving, loginDeadline := none } }
            greeted := by
          refine ⟨?_, h.greeted⟩
          rintro c' ⟨⟩
          exact ⟨hfits.endpoints, by simp, fun _ => hfits.receiver (Or.inr hg)⟩
        exact hattempts.driveAndAct env .connected
      · exact attempts_failWith hl h.greeted env _ false
    · next hreceiving =>
      have htcp : ∀ c', l.connection = some c' → c'.tcpState = .receiving := by
        intro c' hc'
        rw [hc] at hc'
        cases hc'
        exact hreceiving
      unfold SubscriberLink.onSnapshot
      split
      · exact h.onReceiver hl env (.snapshotFrame f) (fun c' hc' _ => htcp c' hc')
      · next id seq ok hm =>
        split
        · exact attempts_failWith hl h.greeted env _ false
        split
        · exact attempts_failWith hl h.greeted env _ false
        · exact h.onReceiver hl env (.endOfSnapshot seq.toNat) (fun c' hc' _ => htcp c' hc')
      · exact attempts_failWith hl h.greeted env _ false
      · exact h
    · exact h
    · exact h

theorem Attempts.onTcpClosed (h : l.Attempts greeted) (hl : l.Consistent) (env : Surroundings) (generation : Nat)
    (error : Option TcpFailure) : (l.onTcpClosed env generation error).1.Attempts greeted := by
  unfold SubscriberLink.onTcpClosed
  split
  · exact h
  split
  · exact h
  · exact attempts_failWith hl h.greeted env _ false

/-- The generation of the TCP connection that a frame comes from. -/
def Task.source? : Task → Option Nat
  | .tcpFrame generation _ => some generation
  | _ => none

theorem Attempts.onTask (h : l.Attempts greeted) (hl : l.Consistent) (env : Surroundings) {task : Task}
    (hsource : ∀ g ∈ task.source?, g ∈ greeted) : (l.onTask env task).1.Attempts (l.greet greeted task) := by
  cases task with
  | up =>
    have hattempts : Attempts { l with wantsUp := true } greeted := h.of_eq rfl rfl rfl
    exact hattempts.driveAndAct env .up
  | down =>
    have hattempts : Attempts { l with wantsUp := false } greeted := h.of_eq rfl rfl rfl
    exact hattempts.driveAndAct env .down
  | update channel => exact h.onUpdate hl env channel
  | tcpConnected generation peer => exact h.onTcpConnected hl env generation peer
  | tcpFrame generation f => exact h.onTcpFrame hl env (hsource generation rfl) f
  | tcpClosed generation error => exact h.onTcpClosed hl env generation error
  | udp generation f =>
    show (l.onUdp env generation f).1.Attempts greeted
    unfold SubscriberLink.onUdp
    split
    · exact h
    · exact h.onReceiver hl env (.frame f) (fun _ _ ht => by simp [onTcp] at ht)
  | manualResend call gap => exact h
  | reconnectDue =>
    have hattempts : Attempts { l with reconnectAt := none } greeted := h.of_eq rfl rfl rfl
    exact hattempts.driveAndAct env .reconnectDue
  | loginTimeout =>
    show (l.onLoginTimeout env).1.Attempts greeted
    have hforgotten : l.forgetDeadline.Consistent := by
      refine hl.of_alike ⟨rfl, rfl, rfl, ?_⟩
      cases hc : l.connection <;> simp [forgetDeadline, hc, Connection.bare]
    unfold SubscriberLink.onLoginTimeout
    exact attempts_failWith hforgotten h.greeted env _ false
  | requestTimer => exact h.onReceiver hl env .requestTimer (fun _ _ ht => by simp [onTcp] at ht)
  | livenessTick =>
    show (l.onLivenessTick env).1.Attempts greeted
    unfold SubscriberLink.onLivenessTick
    split
    · exact h.onReceiver hl env .livenessTick (fun _ _ ht => by simp [onTcp] at ht)
    · exact h

end Tasks

/-! ### Whole runs -/

/-- Every TCP connection shows up before its frames. -/
def Announced (l : SubscriberLink) (greeted : List Nat) : List (Surroundings × Task) → Prop
  | [] => True
  | (env, task) :: rest =>
    (∀ g ∈ task.source?, g ∈ greeted) ∧ Announced (l.onTask env task).1 (l.greet greeted task) rest

instance decidableAnnounced (l : SubscriberLink) (greeted : List Nat) :
    (tasks : List (Surroundings × Task)) → Decidable (l.Announced greeted tasks)
  | [] => isTrue trivial
  | (env, task) :: rest =>
    have : Decidable ((l.onTask env task).1.Announced (l.greet greeted task) rest) := decidableAnnounced _ _ rest
    inferInstanceAs (Decidable ((∀ g ∈ task.source?, g ∈ greeted) ∧ _))

theorem Consistent.onTasks {l : SubscriberLink} (h : l.Consistent) (tasks : List (Surroundings × Task)) :
    (l.onTasks tasks).1.Consistent := by
  induction tasks generalizing l with
  | nil => exact h
  | cons first rest ih => exact ih (settles_onTask h first.1 first.2).consistent

theorem Attempts.onTasks {l : SubscriberLink} {greeted : List Nat} (h : l.Attempts greeted) (hl : l.Consistent)
    {tasks : List (Surroundings × Task)} (ha : l.Announced greeted tasks) :
    ∃ greeted', (l.onTasks tasks).1.Attempts greeted' := by
  induction tasks generalizing l greeted with
  | nil => exact ⟨greeted, h⟩
  | cons first rest ih =>
    obtain ⟨env, task⟩ := first
    obtain ⟨hsource, hrest⟩ := ha
    exact ih (h.onTask hl env hsource) (settles_onTask hl env task).consistent hrest

/-! ### The link as a whole -/

/-- A link between two tasks, with the operator's last wish. -/
structure Formed (l : SubscriberLink) (wants : Bool) : Prop where
  states : l.state ∈ [.down, .disabled, .connecting, .up, .reconnectPending, .failed, .disconnectPending]
  rest : l.state = .disabled ∨ l.state = .failed ↔ l.channel.enabled = false ∨ l.channel.fault? ≠ none
  wanted : l.channel.Open →
    (l.state = .connecting ∨ l.state = .up ∨ l.state = .reconnectPending ↔ wants = true) ∧
      (l.state = .down ∨ l.state = .disconnectPending ↔ wants = false)
  connected : l.connection.isSome = true ↔ l.state = .connecting ∨ l.state = .up ∨ l.state = .disconnectPending
  attempt : ∀ c, l.connection = some c →
    c.generation = l.generation ∧ ∃ second, c.endpoints = l.channel.endpoints second
  up_iff : ∀ c, l.connection = some c → (l.state = .up ↔ c.tcpState ≠ .login)
  up : ∀ c, l.connection = some c → l.state = .up → c.loginDeadline = none ∧ c.receiver.isSome = true
  /-- An attempt has a deadline, with which it ends. -/
  pending : ∀ c, l.connection = some c → l.state = .connecting ∨ l.state = .disconnectPending →
    ∃ t, c.loginDeadline = some t ∧ (t, .loginTimeout) ∈ l.timers ∧
      ∀ env, (l.onTask env .loginTimeout).1.connection = none

section Formed

variable {l : SubscriberLink} {given : Channel} {wants : Bool}

theorem Consistent.mem_states (h : l.Consistent) :
    l.state ∈ [.down, .disabled, .connecting, .up, .reconnectPending, .failed, .disconnectPending] := by
  have hsettled := h.settled
  have hstate : l.state = l.control.machine.state := rfl
  cases hc : l.connection with
  | none =>
    rw [hc] at hsettled
    rcases hsettled with hwas | hwas | hwas | hwas <;> simp [hstate, hwas]
  | some c =>
    rw [hc] at hsettled
    rcases hsettled with ⟨hwas, -⟩ | ⟨hwas | ⟨hwas, -⟩, -⟩ <;> simp [hstate, hwas]

theorem Consistent.up_iff (h : l.Consistent) {c : Connection} (hc : l.connection = some c) :
    l.state = .up ↔ c.tcpState ≠ .login := by
  constructor
  · intro hup hlogin
    have hsettled := h.settled
    have hstate : l.control.machine.state = .up := hup
    rw [hc] at hsettled
    simp [Settled, hstate, hlogin] at hsettled
  · exact h.up_of_ne_login hc

theorem Obeys.wanted (h : l.Obeys given wants) (hl : l.Consistent) (hopen : given.Open) :
    (l.state = .connecting ∨ l.state = .up ∨ l.state = .reconnectPending ↔ wants = true) ∧
      (l.state = .down ∨ l.state = .disconnectPending ↔ wants = false) := by
  have hheading := h.heading
  have hmem := hl.mem_states
  rw [Channel.wish_of_open hopen] at hheading
  simp only [List.mem_cons, List.not_mem_nil, or_false] at hmem
  rcases hmem with hstate | hstate | hstate | hstate | hstate | hstate | hstate <;> rw [hstate] at hheading ⊢ <;>
    simp_all [State.wish]

/-- The deadline ends the attempt. -/
theorem Consistent.connection_onLoginTimeout (h : l.Consistent) {c : Connection} (hc : l.connection = some c)
    (hlogin : c.tcpState = .login) (env : Surroundings) : (l.onTask env .loginTimeout).1.connection = none := by
  have hsettled := h.settled
  rw [hc] at hsettled
  rcases hsettled with ⟨-, hup⟩ | ⟨hstate | ⟨hstate, hbegun⟩, -⟩
  · exact absurd hlogin hup
  · have hconnecting : l.forgetDeadline.control.machine.state = .connecting := hstate
    simp [onTask, onLoginTimeout, failWith, driveAndAct, drive, Link.Control.drive, Machine.step, Machine.onReconnect,
      Machine.onDisconnected, Machine.goTo, act, actLimit, perform, disconnect, hconnecting]
  · have hpending : l.forgetDeadline.control.machine.state = .disconnectPending := hstate
    have hfresh : l.forgetDeadline.control.machine.begun = false := hbegun
    simp [onTask, onLoginTimeout, failWith, driveAndAct, drive, Link.Control.drive, Machine.step, Machine.onReconnect,
      Machine.onDisconnected, Machine.goTo, act, actLimit, perform, disconnect, hpending, hfresh]

theorem formed {greeted : List Nat} (h : l.Consistent) (ho : l.Obeys given wants) (ha : l.Attempts greeted) :
    l.Formed wants where
  states := h.mem_states
  rest := by
    rw [← State.wish_eq_none_iff, ho.heading, ← ho.channel]
    exact Channel.wish_eq_none_iff l.channel wants
  wanted := by
    rw [ho.channel]
    exact ho.wanted h
  connected := h.connected_iff
  attempt := fun c hc => ⟨h.sound.generation c hc, (ha.fits c hc).endpoints⟩
  up_iff := fun c hc => h.up_iff hc
  up := by
    intro c hc hup
    have hlogin := (h.up_iff hc).1 hup
    exact ⟨(ha.fits c hc).deadline.2 hlogin, (ha.fits c hc).receiver (Or.inl hlogin)⟩
  pending := by
    intro c hc hpending
    have hlogin : c.tcpState = .login := by
      by_contra hne
      have hup := (h.up_iff hc).2 hne
      rcases hpending with hpending | hpending <;>
        · rw [hpending] at hup
          cases hup
    cases hdeadline : c.loginDeadline with
    | none => exact absurd hlogin ((ha.fits c hc).deadline.1 hdeadline)
    | some t =>
      refine ⟨t, rfl, ?_, h.connection_onLoginTimeout hc hlogin⟩
      simp [timers, hc, hdeadline]

end Formed

/-- Whatever a new link is told to do and whatever comes from the network, it is made up like this. -/
theorem formed_onTasks (channel : Channel) (settings : Settings) (tasks : List (Surroundings × Task))
    (h : Announced (new channel settings).1 [] tasks) :
    let l := ((new channel settings).1.onTasks tasks).1
    l.channel = lastGiven (·.2.channel?) channel tasks ∧ l.Formed (lastGiven (·.2.wish?) false tasks) := by
  intro l
  have hobeys := obeys_onTasks (obeys_new channel settings) tasks
  have hattempts : (new channel settings).1.Attempts [] := attempts_of_unconnected (new_connection channel settings) (by simp)
  obtain ⟨greeted, hl⟩ := hattempts.onTasks (consistent_new channel settings) h
  exact ⟨hobeys.channel, formed ((consistent_new channel settings).onTasks tasks) hobeys hl⟩

def allOpen : Surroundings := ⟨0, fun _ => .ok 1⟩

def firstPlace : Channel :=
  .new "md1" ⟨⟨10, 0, 0, 1⟩, 9000⟩ ⟨⟨239, 1, 1, 1⟩, 9001⟩ ⟨⟨10, 0, 0, 3⟩, 9002⟩

def secondPlace : Channel :=
  .new "md1" ⟨⟨10, 0, 0, 2⟩, 9000⟩ ⟨⟨239, 1, 1, 1⟩, 9001⟩ ⟨⟨10, 0, 0, 3⟩, 9002⟩

/-- The link comes up, follows its channel to another place, and is brought down before it is up again. -/
def moving : List (Surroundings × Task) :=
  [(allOpen, .up), (allOpen, .tcpConnected 1 ⟨⟨10, 0, 0, 1⟩, 9000⟩), (allOpen, .tcpFrame 1 (loginFrame firstPlace)),
    (allOpen, .tcpFrame 1 (.single 7)), (allOpen, .update secondPlace), (allOpen, .tcpFrame 1 (.single 8)),
    (allOpen, .tcpConnected 2 ⟨⟨10, 0, 0, 2⟩, 9000⟩), (allOpen, .down)]

theorem formed_moving :
    let l := ((new firstPlace .default).1.onTasks moving).1
    Announced (new firstPlace .default).1 [] moving ∧ l.state = .disconnectPending ∧ l.generation = 2 ∧
      l.channel = secondPlace ∧ l.Formed false := by
  intro l
  have hannounced : Announced (new firstPlace .default).1 [] moving := by decide +kernel
  have hformed := formed_onTasks firstPlace .default moving hannounced
  exact ⟨hannounced, by decide +kernel, by decide +kernel, hformed⟩

end ReliableMulticast.SubscriberLink
