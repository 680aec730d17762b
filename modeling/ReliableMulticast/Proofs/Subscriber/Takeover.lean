import ReliableMulticast.Proofs.Channel.Login
import ReliableMulticast.Proofs.Link.Generations
import ReliableMulticast.Proofs.Subscriber.Ascending
import ReliableMulticast.Proofs.Subscriber.Attempt
import ReliableMulticast.Proofs.Subscriber.Requests

/-!
# From the login to the live frames

A link that is connecting reads the acknowledgement of its login, the frames of a snapshot and its end from the TCP
connection, each as a task of its own. With the first it comes up (`onTask_acknowledgement`), the frames are handed over as
they come (`onTasks_snapshotFrames`), and with the last its window goes live (`goLive`).

What came on UDP until then may have left a gap or a window that is too large. `Receiver.desyncAt? r seq` is this, if it
is so. Then the link connects anew, which is not before everything was handed over (`Restarted`).

`Closed g l` says that the TCP connection of the generation `g` has nothing more to say, and so it stays
(`Closed.onTasks`).

Main statement (`takesOver`): what a link makes of such frames, one after the other (`TakenOver`).
-/

namespace ReliableMulticast

namespace Desync

theorem head?_message (d : Desync) : d.message.toList.head? ≠ some 'p' := by
  unfold message
  cases d <;> simp

theorem message_ne_violation (d : Desync) (text : String) : d.message ≠ "protocol violation: " ++ text := by
  intro h
  refine d.head?_message ?_
  rw [h]
  simp

end Desync

namespace Receiver

/-- What is too large, if live frames take over at `seq`: the gap, or else the window. -/
def desyncAt? (r : Receiver) (seq : Nat) : Option Desync :=
  let queue := (r.queue.stopQueuing seq).2
  if r.settings.maxGap < queue.gap.count then some (.gapTooLarge queue.gap)
  else if r.settings.maxQueue < queue.length then some (.queueOverflow queue.length)
  else none

theorem isImmediate_of_desyncAt? {r : Receiver} {seq : Nat} {d : Desync} (h : r.desyncAt? seq = some d) :
    d.isImmediate = true := by
  unfold desyncAt? at h
  dsimp only at h
  split at h
  · cases h
    rfl
  split at h
  · cases h
    rfl
  · cases h

/-- A window that nothing has come to is borne. -/
theorem desyncAt?_of_empty {r : Receiver} (h : r.queue = .empty) (seq : Nat) : r.desyncAt? seq = none := by
  have hgap : (Arrivals.empty.stopQueuing seq).2.gap.count = 0 := by
    simp [Arrivals.stopQueuing, Arrivals.empty, Arrivals.deliver, Arrivals.run, Arrivals.gap, Gap.between, Gap.none]
  have hlength : (Arrivals.empty.stopQueuing seq).2.length = 0 := by
    simp [Arrivals.stopQueuing, Arrivals.empty, Arrivals.deliver, Arrivals.run, Arrivals.length]
  unfold desyncAt?
  dsimp only
  rw [h, hgap, hlength, if_neg (Nat.not_lt_zero _), if_neg (Nat.not_lt_zero _)]

/-- The first gap that there is, is a change. -/
theorem failure_onGapChange_of_none (r : Receiver) (now : Instant) :
    (r.onGapChange now (GapChange.of Gap.none r.queue.gap)).failure =
      if r.settings.maxGap < r.queue.gap.count then some (.gapTooLarge r.queue.gap) else none := by
  unfold GapChange.of onGapChange
  by_cases hnone : Gap.none = r.queue.gap
  · have hcount : r.queue.gap.count = 0 := congrArg Gap.count hnone.symm
    rw [if_pos hnone, hcount, if_neg (Nat.not_lt_zero _)]
    rfl
  · rw [if_neg hnone]
    dsimp only
    split
    · next hempty =>
      rw [Gap.count_of_isEmpty hempty, if_neg (Nat.not_lt_zero _)]
      rfl
    split
    · rfl
    split <;> rfl

theorem failure_settleGap_eq (r : Receiver) (now : Instant) (change : Option GapChange) :
    (r.settleGap now change).failure = (r.onGapChange now change).failure.or r.checkLength := by
  unfold settleGap
  dsimp only
  split
  · next d hd =>
    rw [hd]
    rfl
  · next hnone =>
    rw [hnone]
    simp only [checkLength, settings_onGapChange, queue_onGapChange, Option.none_or]

theorem failure_onEndOfSnapshot (r : Receiver) (now : Instant) (seq : Nat) :
    (r.onEndOfSnapshot now seq).failure = r.desyncAt? seq := by
  let after : Receiver := { r with snapshotSeq := some seq, queue := (r.queue.stopQueuing seq).2 }
  show (after.settleGap now (GapChange.of Gap.none after.queue.gap)).failure = _
  rw [failure_settleGap_eq, failure_onGapChange_of_none]
  unfold desyncAt? checkLength
  dsimp only
  split <;> rfl

theorem outputs_onGapChange {r : Receiver} {now : Instant} {change : Option GapChange} {o : Output}
    (ho : o ∈ (r.onGapChange now change).outputs) : ∃ dest f, o = .send dest f := by
  unfold onGapChange at ho
  split at ho
  · cases ho
  split at ho
  · cases ho
  split at ho
  · cases ho
  split at ho
  · exact ⟨_, _, List.mem_singleton.1 ho⟩
  · cases ho

theorem outputs_settleGap (r : Receiver) (now : Instant) (change : Option GapChange) :
    (r.settleGap now change).outputs = (r.onGapChange now change).outputs := by
  unfold settleGap
  dsimp only
  split <;> rfl

theorem outputs_onEndOfSnapshot {r : Receiver} {now : Instant} {seq : Nat} {o : Output}
    (ho : o ∈ (r.onEndOfSnapshot now seq).outputs) : (∃ d, o = .deliver d) ∨ ∃ dest f, o = .send dest f := by
  rcases List.mem_append.1 ho with ho | ho
  · exact Or.inl ⟨_, List.mem_singleton.1 ho⟩
  rcases List.mem_append.1 ho with ho | ho
  · obtain ⟨f, -, rfl⟩ := List.mem_map.1 ho
    exact Or.inl ⟨_, rfl⟩
  · rw [outputs_settleGap] at ho
    exact Or.inr (outputs_onGapChange ho)
end Receiver

namespace SubscriberLink

open Link (State)

/-! ### What is reported -/

def Effect.alert? : Effect → Option (Link.Severity × String)
  | .notify e =>
    match e.report with
    | .alert severity message => some (severity, message)
    | .stateChanged .. => none
  | _ => none

def Effect.warning? : Effect → Option String
  | .warn text => some text
  | _ => none

/-- What operators are told, except for changes of the state. -/
def alerts (effects : List Effect) : List (Link.Severity × String) := effects.filterMap Effect.alert?

def warnings (effects : List Effect) : List String := effects.filterMap Effect.warning?

theorem alerts_append (effects effects' : List Effect) : alerts (effects ++ effects') = alerts effects ++ alerts effects' :=
  List.filterMap_append

theorem warnings_append (effects effects' : List Effect) :
    warnings (effects ++ effects') = warnings effects ++ warnings effects' :=
  List.filterMap_append

/-! ### A connection that is closed -/

/-- The TCP connection of this generation has done its work, or the connection has been given up. -/
structure Closed (g : Nat) (l : SubscriberLink) : Prop where
  started : g ≤ l.generation
  done : ∀ c, l.connection = some c → c.generation = g → c.tcpState = .disconnect

section Closed

variable {g : Nat} {l l' : SubscriberLink} {now : Instant} {task : Task} {effects : List Effect}

theorem Closed.move (h : Closed g l) (hm : Move now task l effects l') : Closed g l' := by
  have hstarted : g ≤ l'.generation := Nat.le_trans h.started hm.generation_le
  refine ⟨hstarted, fun c' hc' hg => ?_⟩
  cases hm with
  | stay hgeneration hbare _ =>
    rw [hc'] at hbare
    obtain ⟨c, hc, hb⟩ := Option.map_eq_some_iff.1 hbare.symm
    obtain ⟨hgeneration, htcp, -⟩ := Connection.eq_of_bare hb.symm
    rw [htcp]
    exact h.done c hc (hgeneration ▸ hg)
  | leave _ hnone _ =>
    rw [hnone] at hc'
    cases hc'
  | start dest hgeneration hconnection hc₁ _ _ _ _ =>
    -- the new connection has a number of its own
    obtain rfl := Option.some.inj (hconnection.symm.trans hc')
    have := h.started
    omega
  | listen peer socket resendTo hc _ hconnection _ =>
    obtain rfl := Option.some.inj (hconnection.symm.trans hc')
    have hdone := h.done _ hc hg
    exact hdone
  | acknowledge hc hlogin _ hconnection _ =>
    obtain rfl := Option.some.inj (hconnection.symm.trans hc')
    have hdone := h.done _ hc hg
    rw [hlogin] at hdone
    cases hdone
  | talk hc hr _ _ _ _ hconnection _ =>
    obtain rfl := Option.some.inj (hconnection.symm.trans hc')
    rw [Connection.after_tcpState]
    split
    · rfl
    · exact h.done _ hc hg

theorem Closed.moves (h : Closed g l) (hm : Moves now task l effects l') : Closed g l' := by
  induction hm with
  | refl l => exact h
  | step first _ ih => exact ih (h.move first)

theorem Closed.onTasks (h : Closed g l) (hl : l.Consistent) (tasks : List (Surroundings × Task)) :
    Closed g (l.onTasks tasks).1 := by
  induction tasks generalizing l with
  | nil => exact h
  | cons first rest ih =>
    have hsettles := settles_onTask hl first.1 first.2
    exact ih (h.moves hsettles.moves) hsettles.consistent

theorem Closed.current (h : Closed g l) {c : Connection} (hc : l.current? g = some c) : c.tcpState = .disconnect := by
  obtain ⟨hconnection, hg⟩ := current?_eq_some hc
  exact h.done c hconnection hg

/-- Nothing comes of frames that are left on a closed TCP connection. -/
theorem Closed.onTask_tcpFrame (h : Closed g l) (env : Surroundings) (f : Frame) :
    l.onTask env (.tcpFrame g f) = (l, []) := by
  show l.onTcpFrame env g f = (l, [])
  unfold onTcpFrame
  split
  · rfl
  · next c hc => rw [h.current hc]

theorem Closed.onTask_tcpClosed (h : Closed g l) (env : Surroundings) (error : Option TcpFailure) :
    l.onTask env (.tcpClosed g error) = (l, []) := by
  show l.onTcpClosed env g error = (l, [])
  unfold onTcpClosed
  split
  · rfl
  · next c hc => rw [if_pos (h.current hc)]

end Closed

/-! ### The frames -/

section Frames

variable {l : SubscriberLink} {c : Connection} {socket : SocketId} {r : Receiver} {env : Surroundings}

theorem current?_of_connection (hc : l.connection = some c) : l.current? c.generation = some c := by
  simp [current?, hc]

/-- The link is up, and has not failed since. -/
def raised (l : SubscriberLink) : SubscriberLink :=
  { l with control := { l.control with machine := { l.control.machine with reconnects := 0, state := .up } } }

theorem driveAndAct_connected (h : l.state = .connecting) (env : Surroundings) :
    l.driveAndAct env .connected =
      (l.raised, [.notify (l.raised.control.event (.stateChanged .connecting .up 0))]) := by
  have hstate : l.control.machine.state = .connecting := h
  have hstep : l.control.machine.step .connected =
      ({ l.control.machine with reconnects := 0, state := .up }, .none) := by
    simp [Link.Machine.step, Link.Machine.onConnected, Link.Machine.goTo, hstate]
  have hdrive : l.drive .connected =
      (l.raised, [.notify (l.raised.control.event (.stateChanged .connecting .up 0))], .none) := by
    unfold drive Link.Control.drive
    rw [hstep]
    dsimp only
    rw [hstate, if_neg (by simp)]
    rfl
  rw [driveAndAct_eq, hdrive]
  rfl

/-- The connection after the acknowledgement of the login. -/
def Connection.acknowledged (c : Connection) : Connection := { c with tcpState := .receiving, loginDeadline := none }

/-- The link after the acknowledgement of its login. -/
def greeted (l : SubscriberLink) (c : Connection) : SubscriberLink := { l.raised with connection := some c.acknowledged }

theorem onTask_acknowledgement (hstate : l.state = .connecting) (hc : l.connection = some c) (hlogin : c.tcpState = .login)
    {username : String} (hfits : username.utf8ByteSize ≤ ControlType.credentialWidth) (env : Surroundings) :
    l.onTask env (.tcpFrame c.generation (Session.acknowledgement username)) =
      (l.greeted c, [.notify (l.raised.control.event (.stateChanged .connecting .up 0))]) := by
  show l.onTcpFrame env c.generation _ = _
  unfold onTcpFrame
  rw [current?_of_connection hc]
  dsimp only
  rw [hlogin]
  dsimp only
  rw [Channel.onLoginAnswer_acknowledgement hfits]
  exact driveAndAct_connected (l := { l with connection := some c.acknowledged }) hstate env

/-- The link with another receiver for its connection. -/
def fed (l : SubscriberLink) (c : Connection) (socket : SocketId) (r : Receiver) : SubscriberLink :=
  { l with connection := some { c with receiver := some (socket, r) } }

theorem fed_self (hc : l.connection = some c) (hr : c.receiver = some (socket, r)) : l.fed c socket r = l := by
  obtain ⟨channel, settings, control, wantsUp, generation, connection, reconnectAt⟩ := l
  obtain ⟨number, endpoints, peer, tcpState, receiver, deadline⟩ := c
  obtain rfl : connection = some _ := hc
  obtain rfl : receiver = some (socket, r) := hr
  rfl

theorem onTask_snapshotFrame (hc : l.connection = some c) (hr : c.receiver = some (socket, r))
    (hreceiving : c.tcpState = .receiving) {f : Frame} (hf : f.isControl = false) (env : Surroundings) :
    l.onTask env (.tcpFrame c.generation f) = (l.fed c socket { r with active := true }, [.deliver (.snapshot f)]) := by
  show l.onTcpFrame env c.generation _ = _
  unfold onTcpFrame
  rw [current?_of_connection hc]
  dsimp only
  rw [hreceiving]
  dsimp only
  unfold onSnapshot
  rw [(Frame.message?_eq_none_iff f).2 hf]
  dsimp only
  unfold onReceiver
  rw [hc]
  dsimp only
  rw [hr]
  rfl

/-- The frames of a snapshot are handed over one by one, and leave the window as it is. -/
theorem onTasks_snapshotFrames (hc : l.connection = some c) (hr : c.receiver = some (socket, r))
    (hreceiving : c.tcpState = .receiving) {fs : List Frame} (hfs : ∀ f ∈ fs, f.isControl = false)
    {tasks : List (Surroundings × Task)} (htasks : tasks.map (·.2) = fs.map (.tcpFrame c.generation)) :
    ∃ active, l.onTasks tasks = (l.fed c socket { r with active := active }, fs.map fun f => .deliver (.snapshot f)) := by
  -- the receiver is another one after each frame, and with it the connection and the link
  induction fs generalizing l c r tasks with
  | nil =>
    obtain rfl : tasks = [] := List.map_eq_nil_iff.1 htasks
    refine ⟨r.active, ?_⟩
    show (l, []) = (l.fed c socket r, [])
    rw [fed_self hc hr]
  | cons f rest ih =>
    obtain ⟨⟨env, task⟩, others, rfl, rfl, hothers⟩ := List.map_eq_cons_iff.1 htasks
    have hfirst := onTask_snapshotFrame hc hr hreceiving (hfs f List.mem_cons_self) env
    obtain ⟨active, hrest⟩ := ih (l := l.fed c socket { r with active := true }) rfl rfl hreceiving
      (fun g hg => hfs g (List.mem_cons_of_mem _ hg)) hothers
    refine ⟨active, ?_⟩
    rw [onTasks_cons, hfirst]
    dsimp only
    rw [hrest]
    rfl

/-- Calls for the frames of a snapshot are calls for these frames, and nothing else. -/
theorem snapshot_effects (fs : List Frame) :
    let effects := fs.map fun f => Effect.deliver (.snapshot f)
    deliveries effects = fs.map .snapshot ∧ alerts effects = [] ∧ warnings effects = [] := by
  dsimp only [deliveries, alerts, warnings]
  rw [List.filterMap_map, List.filterMap_map, List.filterMap_map]
  refine ⟨?_, ?_, ?_⟩
  · show fs.filterMap (some ∘ Delivery.snapshot) = _
    rw [List.filterMap_eq_map]
  · exact List.filterMap_eq_nil_iff.2 fun f _ => rfl
  · exact List.filterMap_eq_nil_iff.2 fun f _ => rfl

/-! ### The end of the snapshot -/

theorem alerts_outputs (socket : SocketId) (outputs : List Receiver.Output) :
    alerts (outputs.map (ofOutput socket)) = [] := by
  refine List.filterMap_eq_nil_iff.2 fun e he => ?_
  obtain ⟨o, -, rfl⟩ := List.mem_map.1 he
  cases o <;> rfl

theorem warnings_endOfSnapshot (r : Receiver) (now : Instant) (seq : Nat) (socket : SocketId) :
    warnings ((r.onEndOfSnapshot now seq).outputs.map (ofOutput socket)) = [] := by
  refine List.filterMap_eq_nil_iff.2 fun e he => ?_
  obtain ⟨o, ho, rfl⟩ := List.mem_map.1 he
  rcases Receiver.outputs_onEndOfSnapshot ho with ⟨d, rfl⟩ | ⟨dest, f, rfl⟩ <;> rfl

/-- A link that was up connects anew at once, and tells operators why. -/
structure Restarted (l : SubscriberLink) (message : String) (p : SubscriberLink × List Effect) : Prop where
  deliveries : deliveries p.2 = []
  alerts : alerts p.2 = [(.warning, message)]
  warnings : warnings p.2 = []
  state : p.1.state = .connecting
  connection : ∃ c, p.1.connection = some c ∧ c.generation = l.generation + 1 ∧ c.tcpState = .login
  generation : p.1.generation = l.generation + 1

theorem failWith_up (hup : l.state = .up) (hchannel : l.channel.fault? = none) (env : Surroundings) (message : String) :
    Restarted l message (l.failWith env message true) := by
  obtain ⟨channel, settings, ⟨side, name, ⟨state, reconnects, immediate, begun⟩⟩, wantsUp, generation, connection, due⟩ := l
  obtain rfl : state = .up := hup
  dsimp only at hchannel
  simp only [failWith, driveAndAct, drive, Link.Control.drive, Link.Machine.step, Link.Machine.onReconnect,
    Link.Machine.goTo, act, actLimit, perform, disconnect, Link.Machine.onDisconnected, Link.Machine.onReconnectDue,
    connect, hchannel]
  cases connection <;> exact ⟨rfl, rfl, rfl, rfl, ⟨_, rfl, rfl, rfl⟩, rfl⟩

/-- The link when its window has gone live at `seq`, and what came of that. -/
def goLive (l : SubscriberLink) (c : Connection) (socket : SocketId) (r : Receiver) (now : Instant) (seq : Nat) :
    SubscriberLink × List Effect :=
  let a := r.onEndOfSnapshot now seq
  ({ l with connection := some (c.after socket (.endOfSnapshot seq) a) },
    a.outputs.map (ofOutput socket) ++ [.closeTcp c.generation])

theorem deliveries_goLive (l : SubscriberLink) (c : Connection) (socket : SocketId) (ho : r.queue.Ordered) (now : Instant)
    (seq : Nat) : ∃ ms : List Frame, deliveries (l.goLive c socket r now seq).2 = .endOfSnapshot seq :: ms.map .message ∧
      ms.Pairwise (·.seq < ·.seq) ∧ ∀ f, f ∈ ms ↔ Arrivals.Deliverable seq r.queue.pending f := by
  obtain ⟨ms, hms, hsorted, hready⟩ := Receiver.deliveries_onCall ho now (.endOfSnapshot seq)
  refine ⟨ms, ?_, hsorted, hready⟩
  unfold goLive
  rw [deliveries_append, deliveries_outputs]
  exact (List.append_nil _).trans hms

theorem alerts_goLive (l : SubscriberLink) (c : Connection) (socket : SocketId) (r : Receiver) (now : Instant) (seq : Nat) :
    alerts (l.goLive c socket r now seq).2 = [] := by
  unfold goLive
  rw [alerts_append, alerts_outputs]
  rfl

theorem warnings_goLive (l : SubscriberLink) (c : Connection) (socket : SocketId) (r : Receiver) (now : Instant) (seq : Nat) :
    warnings (l.goLive c socket r now seq).2 = [] := by
  unfold goLive
  rw [warnings_append, warnings_endOfSnapshot]
  rfl

theorem onReceiver_endOfSnapshot (hc : l.connection = some c) (hr : c.receiver = some (socket, r)) (env : Surroundings)
    (seq : Nat) :
    l.onReceiver env true (·.onEndOfSnapshot env.now seq) =
      match r.desyncAt? seq with
      | none => l.goLive c socket r env.now seq
      | some d =>
        (((l.goLive c socket r env.now seq).1.failWith env d.message true).1,
          (l.goLive c socket r env.now seq).2 ++ ((l.goLive c socket r env.now seq).1.failWith env d.message true).2) := by
  unfold onReceiver
  rw [hc]
  dsimp only
  rw [hr]
  dsimp only
  rw [r.failure_onEndOfSnapshot]
  cases hd : r.desyncAt? seq with
  | none => rfl
  | some d =>
    dsimp only
    rw [Receiver.isImmediate_of_desyncAt? hd]
    rfl

/-- A snapshot of these frames has been handed over from the TCP connection of the generation `g`, and after its end what
was waiting for that. -/
structure TakenOver (g : Nat) (r : Receiver) (fs : List Frame) (seq : Nat) (p : SubscriberLink × List Effect) : Prop where
  deliveries : ∃ ms : List Frame, deliveries p.2 = fs.map .snapshot ++ .endOfSnapshot seq :: ms.map .message ∧
    ms.Pairwise (·.seq < ·.seq) ∧ ∀ f, f ∈ ms ↔ Arrivals.Deliverable seq r.queue.pending f
  warnings : warnings p.2 = []
  closes : .closeTcp g ∈ p.2
  closed : Closed g p.1
  /-- The link stays up on its connection, of which only the TCP side has come to its end. -/
  stays : r.desyncAt? seq = none → alerts p.2 = [] ∧ p.1.state = .up ∧
    ∃ c, p.1.connection = some c ∧ c.generation = g ∧ c.tcpState = .disconnect
  /-- The link connects anew at once. -/
  restarts : ∀ d, r.desyncAt? seq = some d → alerts p.2 = [(.warning, d.message)] ∧ p.1.state = .connecting ∧
    ∃ c, p.1.connection = some c ∧ c.generation = g + 1 ∧ c.tcpState = .login

/-- The receiver bears what it finds. -/
theorem takenOver_goLive (hl : l.Consistent) (hup : l.state = .up) (hc : l.connection = some c)
    (hr : c.receiver = some (socket, r)) (now : Instant) {seq : Nat} (hd : r.desyncAt? seq = none) :
    TakenOver c.generation r [] seq (l.goLive c socket r now seq) where
  deliveries := deliveries_goLive l c socket ((hl.sound.window c hc).ordered socket r hr) now seq
  warnings := warnings_goLive l c socket r now seq
  closes := List.mem_append_right _ (List.mem_singleton.2 rfl)
  closed := by
    refine ⟨(hl.sound.generation c hc).le, ?_⟩
    rintro c' ⟨⟩ -
    rfl
  stays := fun _ => ⟨alerts_goLive l c socket r now seq, hup, _, rfl, rfl, rfl⟩
  restarts := by
    intro d h
    rw [hd] at h
    cases h

/-- The receiver fails, and the link with it. -/
theorem takenOver_failWith (hl : l.Consistent) (hup : l.state = .up) (hc : l.connection = some c)
    (hr : c.receiver = some (socket, r)) (env : Surroundings) {seq : Nat} {d : Desync} (hd : r.desyncAt? seq = some d) :
    let live := l.goLive c socket r env.now seq
    let failed := live.1.failWith env d.message true
    TakenOver c.generation r [] seq (failed.1, live.2 ++ failed.2) := by
  intro live failed
  have hgeneration : c.generation = l.generation := hl.sound.generation c hc
  have hawake : ¬l.control.machine.AtRest := by
    have hstate : l.control.machine.state = .up := hup
    simp [Link.Machine.AtRest, hstate]
  have hagain : Restarted live.1 d.message failed :=
    failWith_up (l := live.1) hup (hl.sound.channel hawake) env d.message
  have hstarted : failed.1.generation = c.generation + 1 := hagain.generation.trans (congrArg (· + 1) hgeneration.symm)
  obtain ⟨c', hc', hnumber, hlogin⟩ := hagain.connection
  have hnumber : c'.generation = c.generation + 1 := hnumber.trans (congrArg (· + 1) hgeneration.symm)
  obtain ⟨ms, hms, hsorted, hready⟩ :=
    deliveries_goLive l c socket ((hl.sound.window c hc).ordered socket r hr) env.now seq
  refine ⟨⟨ms, ?_, hsorted, hready⟩, ?_, ?_, ⟨?_, ?_⟩, ?_, ?_⟩
  · rw [deliveries_append, hms, hagain.deliveries, List.append_nil]
    rfl
  · rw [warnings_append, warnings_goLive, hagain.warnings]
    rfl
  · exact List.mem_append_left _ (List.mem_append_right _ (List.mem_singleton.2 rfl))
  · rw [hstarted]
    exact Nat.le_succ _
  · intro c₁ hc₁ hg
    -- the new connection has a number of its own
    rw [hc'] at hc₁
    obtain rfl := Option.some.inj hc₁
    omega
  · intro h
    rw [hd] at h
    cases h
  · intro d' h
    rw [hd] at h
    obtain rfl := Option.some.inj h
    refine ⟨?_, hagain.state, c', hc', hnumber, hlogin⟩
    rw [alerts_append, alerts_goLive, hagain.alerts]
    rfl

theorem takenOver_endOfSnapshot (hl : l.Consistent) (hup : l.state = .up) (hc : l.connection = some c)
    (hr : c.receiver = some (socket, r)) (env : Surroundings) (seq : Nat) :
    TakenOver c.generation r [] seq (l.onReceiver env true (·.onEndOfSnapshot env.now seq)) := by
  rw [onReceiver_endOfSnapshot hc hr]
  cases hd : r.desyncAt? seq with
  | none => exact takenOver_goLive hl hup hc hr env.now hd
  | some d => exact takenOver_failWith hl hup hc hr env hd

theorem onTask_endOfSnapshot (hc : l.connection = some c) (hreceiving : c.tcpState = .receiving) {channel : Channel}
    (hfits : channel.Fits) (hid : Bytes.NulFree channel.id) (hname : l.control.channel = channel.id) (env : Surroundings)
    (seq : UInt64) :
    l.onTask env (.tcpFrame c.generation (.control (.endOfSnapshot channel.id seq true) 0)) =
      l.onReceiver env true (·.onEndOfSnapshot env.now seq.toNat) := by
  show l.onTcpFrame env c.generation _ = _
  unfold onTcpFrame
  rw [current?_of_connection hc]
  dsimp only
  rw [hreceiving]
  dsimp only
  rw [Channel.onSnapshot_endOfSnapshot hfits l env hname, if_pos hid]

/-- The frames of the snapshot, before its end. To the receiver they are no more than a sign of life. -/
theorem TakenOver.after {g : Nat} {active : Bool} {fs : List Frame} {seq : Nat} {p : SubscriberLink × List Effect}
    (h : TakenOver g { r with active := active } [] seq p) {effects : List Effect}
    (hd : SubscriberLink.deliveries effects = fs.map .snapshot) (ha : alerts effects = [])
    (hw : SubscriberLink.warnings effects = []) : TakenOver g r fs seq (p.1, effects ++ p.2) := by
  have halerts : alerts (effects ++ p.2) = alerts p.2 := by
    rw [alerts_append, ha]
    rfl
  obtain ⟨ms, hms, hsorted, hready⟩ := h.deliveries
  refine ⟨⟨ms, ?_, hsorted, hready⟩, ?_, List.mem_append_right _ h.closes, h.closed, fun hd => ?_, fun d hd => ?_⟩
  · rw [deliveries_append, hd, hms]
    rfl
  · rw [warnings_append, hw, h.warnings]
    rfl
  · rw [halerts]
    exact h.stays hd
  · rw [halerts]
    exact h.restarts d hd

/-- Nothing of this is taken for a violation of the protocol. -/
theorem TakenOver.not_violation {g : Nat} {fs : List Frame} {seq : Nat} {p : SubscriberLink × List Effect}
    (h : TakenOver g r fs seq p) (severity : Link.Severity) (message : String) :
    (severity, "protocol violation: " ++ message) ∉ alerts p.2 := by
  cases hd : r.desyncAt? seq with
  | none =>
    rw [(h.stays hd).1]
    exact List.not_mem_nil
  | some d =>
    rw [(h.restarts d hd).1, List.mem_singleton, Prod.mk.injEq]
    exact fun hsame => d.message_ne_violation message hsame.2.symm

/-! ### From the first frame to the last -/

/-- Up to the end of the snapshot. -/
theorem onTasks_snapshot (hstate : l.state = .connecting) (hc : l.connection = some c) (hlogin : c.tcpState = .login)
    (hr : c.receiver = some (socket, r)) {username : String}
    (hfits : username.utf8ByteSize ≤ ControlType.credentialWidth) {fs : List Frame} (hfs : ∀ f ∈ fs, f.isControl = false)
    {tasks : List (Surroundings × Task)}
    (htasks : tasks.map (·.2) =
      .tcpFrame c.generation (Session.acknowledgement username) :: fs.map (.tcpFrame c.generation)) :
    ∃ active, l.onTasks tasks =
      ((l.greeted c).fed c.acknowledged socket { r with active := active },
        .notify (l.raised.control.event (.stateChanged .connecting .up 0)) :: fs.map fun f => .deliver (.snapshot f)) := by
  obtain ⟨⟨env, _⟩, frames, rfl, rfl, hframes⟩ := List.map_eq_cons_iff.1 htasks
  obtain ⟨active, hrest⟩ :=
    onTasks_snapshotFrames (l := l.greeted c) (c := c.acknowledged) rfl hr rfl hfs hframes
  refine ⟨active, ?_⟩
  rw [onTasks_cons, onTask_acknowledgement hstate hc hlogin hfits env]
  dsimp only
  rw [hrest]
  rfl

theorem Consistent.login_of_connecting (hl : l.Consistent) (hstate : l.state = .connecting) (hc : l.connection = some c) :
    c.tcpState = .login := by
  by_contra hlogin
  have hup := hl.up_of_ne_login hc hlogin
  rw [hstate] at hup
  cases hup

/-- A link that is connecting and has opened its data socket comes up with the acknowledgement of its login, and takes over
the snapshot after it. -/
theorem takesOver (hl : l.Consistent) (hstate : l.state = .connecting) (hc : l.connection = some c)
    (hr : c.receiver = some (socket, r)) {channel : Channel} (hfits : channel.Fits) (hid : Bytes.NulFree channel.id)
    (hname : l.control.channel = channel.id) {fs : List Frame} (hfs : ∀ f ∈ fs, f.isControl = false) (seq : UInt64)
    {tasks : List (Surroundings × Task)}
    (htasks : tasks.map (·.2) =
      (.tcpFrame c.generation (Session.acknowledgement channel.username) :: fs.map (.tcpFrame c.generation)) ++
        [.tcpFrame c.generation (.control (.endOfSnapshot channel.id seq true) 0), .tcpClosed c.generation none]) :
    (∀ n, 0 < n → n ≤ fs.length + 1 → (l.onTasks (tasks.take n)).1.state = .up) ∧
      TakenOver c.generation r fs seq.toNat (l.onTasks tasks) := by
  have hlogin := hl.login_of_connecting hstate hc
  obtain ⟨start, ends, rfl, hstart, hends⟩ := List.map_eq_append_iff.1 htasks
  obtain ⟨⟨env, _⟩, closing, rfl, rfl, hclosing⟩ := List.map_eq_cons_iff.1 hends
  obtain ⟨⟨env', _⟩, nothing, rfl, rfl, hnothing⟩ := List.map_eq_cons_iff.1 hclosing
  obtain rfl := List.map_eq_nil_iff.1 hnothing
  have hlength : start.length = fs.length + 1 := by simpa using congrArg List.length hstart
  constructor
  · intro n hn hle
    obtain ⟨m, rfl⟩ := Nat.exists_eq_add_one_of_ne_zero (Nat.ne_of_gt hn)
    have htaken : (start.take (m + 1)).map (·.2) = .tcpFrame c.generation (Session.acknowledgement channel.username) ::
        (fs.take m).map (.tcpFrame c.generation) := by
      rw [List.map_take, hstart, List.take_succ_cons, List.map_take]
    obtain ⟨active, hsome⟩ :=
      onTasks_snapshot hstate hc hlogin hr hfits.username (fun f hf => hfs f (List.mem_of_mem_take hf)) htaken
    rw [List.take_append_of_le_length (by omega), hsome]
    rfl
  · obtain ⟨active, hall⟩ := onTasks_snapshot hstate hc hlogin hr hfits.username hfs hstart
    have hconsistent := hl.onTasks start
    rw [hall] at hconsistent
    have hover : TakenOver c.generation { r with active := active } [] seq.toNat _ :=
      takenOver_endOfSnapshot hconsistent rfl rfl rfl env seq.toNat
    have hend : onTask _ env (.tcpFrame c.generation _) = onReceiver _ env true _ :=
      onTask_endOfSnapshot (l := (l.greeted c).fed c.acknowledged socket { r with active := active }) rfl rfl hfits hid hname
        env seq
    rw [← hend] at hover
    -- the end of the stream finds the connection closed already
    have hclosed := hover.closed.onTask_tcpClosed env' none
    rw [onTasks_append, hall, onTasks_cons, onTasks_cons, hclosed]
    dsimp only [onTasks]
    rw [List.append_nil, List.append_nil]
    obtain ⟨hd, ha, hw⟩ := snapshot_effects fs
    exact hover.after hd ha hw

end Frames

end SubscriberLink

end ReliableMulticast
