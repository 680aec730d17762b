import ReliableMulticast.Proofs.Subscriber.Link

/-!
# What a task asks of a receiver

A task asks at most one thing of the receiver of the connection, and nothing else in it hands anything over or sends a
datagram. `Outcome` says so: a task `Rests`, and then each receiver there is afterwards was there before as it is; or it
`Talks`, and then a receiver there is afterwards has answered; or it opens the data socket, and logs in.

Main statement (`outcome_onTask`): every task but a manual request has one of these outcomes.
-/

namespace ReliableMulticast.SubscriberLink

/-- The effects that concern the data socket or the application. -/
inductive Effect.Busy : Effect → Prop
  | deliver (d : Delivery) : Busy (.deliver d)
  | send (socket : SocketId) (dest : Endpoint) (f : Frame) : Busy (.send socket dest f)
  | openUdp (generation : Nat) (addr : Endpoint) (channel : Channel) : Busy (.openUdp generation addr channel)
  | login (generation : Nat) (f : Frame) : Busy (.login generation f)

/-! ### Tasks that rest -/

/-- The task asks nothing of a receiver, and opens no data socket. -/
structure Rests (l : SubscriberLink) (p : SubscriberLink × List Effect) : Prop where
  idle : ∀ e ∈ p.2, ¬ e.Busy
  kept : ∀ c' entry, p.1.connection = some c' → c'.receiver = some entry →
    ∃ c, l.connection = some c ∧ c.generation = c'.generation ∧ c.receiver = some entry

theorem rests_of_connection_eq {l l' : SubscriberLink} {effects : List Effect} (h : l'.connection = l.connection)
    (hidle : ∀ e ∈ effects, ¬ e.Busy) : Rests l (l', effects) where
  idle := hidle
  kept := by
    intro c' entry hc' hentry
    exact ⟨c', h ▸ hc', rfl, hentry⟩

theorem rests_refl (l : SubscriberLink) : Rests l (l, []) := rests_of_connection_eq rfl (by rintro e ⟨⟩)

/-- A connection without a receiver, or none. -/
theorem rests_of_bare {l l' : SubscriberLink} {effects : List Effect}
    (h : ∀ c', l'.connection = some c' → c'.receiver = none) (hidle : ∀ e ∈ effects, ¬ e.Busy) : Rests l (l', effects) where
  idle := hidle
  kept := by
    intro c' entry hc' hentry
    rw [h c' hc'] at hentry
    cases hentry

theorem Rests.trans {l : SubscriberLink} {p q : SubscriberLink × List Effect} (h : Rests l p) (h' : Rests p.1 q) :
    Rests l (q.1, p.2 ++ q.2) where
  idle := by
    intro e he
    rcases List.mem_append.1 he with he | he
    · exact h.idle e he
    · exact h'.idle e he
  kept := by
    intro c'' entry hc'' hentry
    obtain ⟨c', hc', hgeneration', hentry'⟩ := h'.kept c'' entry hc'' hentry
    obtain ⟨c, hc, hgeneration, hentry⟩ := h.kept c' entry hc' hentry'
    exact ⟨c, hc, hgeneration.trans hgeneration', hentry⟩

/-- What was done before to the rest of the link makes no difference. -/
theorem Rests.of_alike {l l' : SubscriberLink} {p : SubscriberLink × List Effect} (h : Rests l' p)
    (hl : ∀ c' entry, l'.connection = some c' → c'.receiver = some entry →
      ∃ c, l.connection = some c ∧ c.generation = c'.generation ∧ c.receiver = some entry) : Rests l p where
  idle := h.idle
  kept := by
    intro c'' entry hc'' hentry
    obtain ⟨c', hc', hgeneration', hentry'⟩ := h.kept c'' entry hc'' hentry
    obtain ⟨c, hc, hgeneration, hentry⟩ := hl c' entry hc' hentry'
    exact ⟨c, hc, hgeneration.trans hgeneration', hentry⟩

theorem Rests.of_connection_eq {l l' : SubscriberLink} {p : SubscriberLink × List Effect} (h : Rests l' p)
    (hl : l'.connection = l.connection) : Rests l p :=
  h.of_alike fun c' _ hc' hentry => ⟨c', hl ▸ hc', rfl, hentry⟩

theorem Rests.cons {l : SubscriberLink} {p : SubscriberLink × List Effect} (h : Rests l p) {e : Effect} (he : ¬ e.Busy) :
    Rests l (p.1, e :: p.2) where
  idle := by
    intro e' he'
    rcases List.mem_cons.1 he' with rfl | he'
    · exact he
    · exact h.idle e' he'
  kept := h.kept

variable (l : SubscriberLink) (env : Surroundings)

theorem rests_drive (input : Link.Input) : Rests l ((l.drive input).1, (l.drive input).2.1) := by
  refine rests_of_connection_eq rfl ?_
  rintro e he ⟨⟩ <;>
    · obtain ⟨event, -, hevent⟩ := List.mem_map.1 he
      cases hevent

theorem rests_rejectChannel (fault : ChannelFault) :
    Rests l ((l.rejectChannel fault).1, (l.rejectChannel fault).2.1) := by
  have hdrive := l.rests_drive .failed
  exact hdrive.cons (by rintro ⟨⟩)

theorem rests_connect : Rests l ((l.connect env).1, (l.connect env).2.1) := by
  unfold connect
  split
  · exact l.rests_rejectChannel _
  · refine rests_of_bare ?_ ?_
    · rintro c' ⟨⟩
      rfl
    · intro e he
      rw [List.mem_singleton.1 he]
      rintro ⟨⟩

theorem rests_disconnect : Rests l (l.disconnect.1, l.disconnect.2.1) := by
  have hdrive := rests_drive { l with connection := none } .disconnected
  have hclosing : ∀ e ∈ (l.connection.map fun c => Effect.close c.generation).toList ++ [.clearManual], ¬ e.Busy := by
    intro e he
    rcases List.mem_append.1 he with he | he
    · obtain ⟨c, -, rfl⟩ := Option.map_eq_some_iff.1 (Option.mem_toList.1 he)
      rintro ⟨⟩
    · rw [List.mem_singleton.1 he]
      rintro ⟨⟩
  refine rests_of_bare ?_ ?_
  · rintro c' ⟨⟩
  · intro e he
    have he : e ∈ ((l.connection.map fun c => Effect.close c.generation).toList ++ [.clearManual]) ++
        (SubscriberLink.drive { l with connection := none } .disconnected).2.1 := by
      rw [List.append_assoc]
      exact he
    rcases List.mem_append.1 he with he | he
    · exact hclosing e he
    · exact hdrive.idle e he

theorem rests_perform (action : Link.Action) : Rests l ((l.perform env action).1, (l.perform env action).2.1) := by
  cases action with
  | none => exact rests_refl l
  | connect => exact l.rests_connect env
  | disconnect => exact l.rests_disconnect
  | scheduleReconnect immediate =>
    cases immediate with
    | true => exact l.rests_drive .reconnectDue
    | false => exact rests_of_connection_eq rfl (by rintro e ⟨⟩)
  | cancelReconnect => exact rests_of_connection_eq rfl (by rintro e ⟨⟩)

theorem rests_act (fuel : Nat) (action : Link.Action) : Rests l (act env fuel l action) := by
  induction fuel generalizing l action with
  | zero => exact rests_refl l
  | succ fuel ih =>
    have hstep := l.rests_perform env action
    have hrest := ih (l.perform env action).1 (l.perform env action).2.2
    cases action with
    | none => exact rests_refl l
    | connect => exact hstep.trans hrest
    | disconnect => exact hstep.trans hrest
    | scheduleReconnect immediate => exact hstep.trans hrest
    | cancelReconnect => exact hstep.trans hrest

theorem rests_driveAndAct (input : Link.Input) : Rests l (l.driveAndAct env input) := by
  rw [driveAndAct_eq]
  exact (l.rests_drive input).trans (rests_act _ env actLimit _)

theorem rests_failWith (message : String) (immediate : Bool) : Rests l (l.failWith env message immediate) :=
  (l.rests_driveAndAct env (.reconnect immediate)).cons (by rintro ⟨⟩)

theorem rests_revive : Rests l (l.revive env) := by
  unfold revive
  dsimp only
  split
  · exact (l.rests_drive (.enable true)).trans (rests_driveAndAct _ env .up)
  · exact l.rests_drive (.enable true)

theorem rests_onUpdate (channel : Channel) : Rests l (l.onUpdate env channel) := by
  unfold onUpdate
  split
  · exact rests_refl l
  dsimp only
  split
  · next fault _ =>
    have hreject := rests_rejectChannel { l with channel := channel } fault
    exact (hreject.trans (rests_act _ env actLimit _)).of_connection_eq rfl
  split
  · exact (rests_driveAndAct { l with channel := channel } env (.enable false)).of_connection_eq rfl
  split
  · exact (rests_revive { l with channel := channel } env).of_connection_eq rfl
  · exact (rests_driveAndAct { l with channel := channel } env (.reconnect true)).of_connection_eq rfl

theorem rests_onLoginAnswer {c : Connection} (hc : l.connection = some c) (f : Frame) :
    Rests l (l.onLoginAnswer env c f) := by
  unfold onLoginAnswer
  split
  · refine (rests_driveAndAct _ env .connected).of_alike ?_
    rintro c' entry ⟨⟩ hentry
    exact ⟨c, hc, rfl, hentry⟩
  · exact l.rests_failWith env _ false

theorem rests_onLoginTimeout : Rests l (l.onLoginTimeout env) := by
  refine (rests_failWith l.forgetDeadline env _ false).of_alike ?_
  intro c' entry hc' hentry
  obtain ⟨c, hc, rfl⟩ := Option.map_eq_some_iff.1 hc'
  exact ⟨c, hc, rfl, hentry⟩

/-! ### Tasks that talk -/

/-- The receiver of the connection answers to a call. -/
structure Talks (now : Instant) (task : Task) (l : SubscriberLink) (p : SubscriberLink × List Effect) (c : Connection)
    (socket : SocketId) (r : Receiver) (call : Receiver.Call) : Prop where
  connection : l.connection = some c
  receiver : c.receiver = some (socket, r)
  makes : task.Makes c.generation call
  tcp : onTcp call = true → c.tcpState = .receiving
  effects : ∃ more, p.2 = (r.onCall now call).outputs.map (ofOutput socket) ++ more ∧ ∀ e ∈ more, ¬ e.Busy
  kept : ∀ c' entry, p.1.connection = some c' → c'.receiver = some entry →
    c'.generation = c.generation ∧ entry = (socket, (r.onCall now call).receiver)

theorem Talks.trans {now : Instant} {task : Task} {l : SubscriberLink} {p q : SubscriberLink × List Effect} {c : Connection}
    {socket : SocketId} {r : Receiver} {call : Receiver.Call} (h : Talks now task l p c socket r call) (h' : Rests p.1 q) :
    Talks now task l (q.1, p.2 ++ q.2) c socket r call where
  connection := h.connection
  receiver := h.receiver
  makes := h.makes
  tcp := h.tcp
  effects := by
    obtain ⟨more, heffects, hmore⟩ := h.effects
    refine ⟨more ++ q.2, ?_, ?_⟩
    · rw [heffects, List.append_assoc]
    · intro e he
      rcases List.mem_append.1 he with he | he
      · exact hmore e he
      · exact h'.idle e he
  kept := by
    intro c'' entry hc'' hentry
    obtain ⟨c', hc', hgeneration, hentry'⟩ := h'.kept c'' entry hc'' hentry
    obtain ⟨hgeneration', rfl⟩ := h.kept c' entry hc' hentry'
    exact ⟨hgeneration.symm.trans hgeneration', rfl⟩

/-- What comes of a task, manual requests apart. -/
inductive Outcome (now : Instant) (task : Task) (l : SubscriberLink) (p : SubscriberLink × List Effect) : Prop
  | rests : Rests l p → Outcome now task l p
  | talks (c : Connection) (socket : SocketId) (r : Receiver) (call : Receiver.Call) : Talks now task l p c socket r call →
      Outcome now task l p
  | opens (generation : Nat) (peer : Endpoint) (c : Connection) (socket : SocketId) :
      task = .tcpConnected generation peer → l.connection = some c → c.generation = generation →
        p = ({ l with
              connection := some
                { c with peer := some peer, receiver := some (socket, .new l.settings c.endpoints.resend) } },
            [.openUdp generation c.endpoints.udp l.channel, .login generation (loginFrame l.channel)]) →
          Outcome now task l p

theorem talks_onReceiver {task : Task} {c : Connection} {socket : SocketId} {r : Receiver} (call : Receiver.Call)
    (hc : l.connection = some c) (hr : c.receiver = some (socket, r)) (hmakes : task.Makes c.generation call)
    (htcp : onTcp call = true → c.tcpState = .receiving) :
    Talks env.now task l (l.onReceiver env (closes call) (·.onCall env.now call)) c socket r call := by
  have htalks : Talks env.now task l
      ({ l with connection := some (c.after socket call (r.onCall env.now call)) },
        (r.onCall env.now call).outputs.map (ofOutput socket) ++
          (if closes call then [.closeTcp c.generation] else [])) c socket r call := by
    refine ⟨hc, hr, hmakes, htcp, ⟨_, rfl, ?_⟩, ?_⟩
    · intro e he
      split at he
      · rw [List.mem_singleton.1 he]
        rintro ⟨⟩
      · cases he
    · rintro c' entry ⟨⟩ ⟨⟩
      exact ⟨rfl, rfl⟩
  unfold onReceiver
  simp only [hc, hr]
  split
  · exact htalks
  · next e _ => exact htalks.trans (rests_failWith _ env e.message e.isImmediate)

theorem outcome_onReceiver {task : Task} (call : Receiver.Call)
    (hmakes : ∀ c, l.connection = some c → task.Makes c.generation call)
    (htcp : ∀ c, l.connection = some c → onTcp call = true → c.tcpState = .receiving) :
    Outcome env.now task l (l.onReceiver env (closes call) (·.onCall env.now call)) := by
  cases hc : l.connection with
  | none =>
    have hsame : l.onReceiver env (closes call) (·.onCall env.now call) = (l, []) := by
      simp only [onReceiver, hc]
    rw [hsame]
    exact .rests (rests_refl l)
  | some c =>
    cases hr : c.receiver with
    | none =>
      have hsame : l.onReceiver env (closes call) (·.onCall env.now call) = (l, []) := by
        simp only [onReceiver, hc, hr]
      rw [hsame]
      exact .rests (rests_refl l)
    | some entry =>
      obtain ⟨socket, r⟩ := entry
      exact .talks c socket r call (l.talks_onReceiver env call hc hr (hmakes c hc) (htcp c hc))

/-- A frame from the data socket reaches the receiver. -/
theorem talks_onUdp {c : Connection} {socket : SocketId} {r : Receiver} (hc : l.connection = some c)
    (hr : c.receiver = some (socket, r)) (f : Frame) :
    Talks env.now (.udp c.generation f) l (l.onTask env (.udp c.generation f)) c socket r (.frame f) := by
  have hcurrent : l.current? c.generation = some c := by simp [current?, hc]
  have heq : l.onTask env (.udp c.generation f) = l.onReceiver env (closes (.frame f)) (·.onCall env.now (.frame f)) := by
    show l.onUdp env c.generation f = _
    simp only [onUdp, hcurrent]
    rfl
  rw [heq]
  exact l.talks_onReceiver env (.frame f) hc hr (.frame _ f) (by rintro ⟨⟩)

/-- So does the end of a snapshot of the link's channel. -/
theorem talks_endOfSnapshot {c : Connection} {socket : SocketId} {r : Receiver} (hc : l.connection = some c)
    (hr : c.receiver = some (socket, r)) (hstate : c.tcpState = .receiving) {f : Frame} {seq : UInt64}
    (hf : f.message? = .ok (some (.endOfSnapshot l.control.channel seq true))) :
    Talks env.now (.tcpFrame c.generation f) l (l.onTask env (.tcpFrame c.generation f)) c socket r
      (.endOfSnapshot seq.toNat) := by
  have hcurrent : l.current? c.generation = some c := by simp [current?, hc]
  have heq : l.onTask env (.tcpFrame c.generation f) =
      l.onReceiver env (closes (.endOfSnapshot seq.toNat)) (·.onCall env.now (.endOfSnapshot seq.toNat)) := by
    show l.onTcpFrame env c.generation f = _
    simp only [onTcpFrame, hcurrent, hstate, onSnapshot, hf]
    simp
    rfl
  rw [heq]
  exact l.talks_onReceiver env (.endOfSnapshot seq.toNat) hc hr (.endOfSnapshot _ f _ seq hf) (fun _ => hstate)

theorem outcome_onTcpConnected (generation : Nat) (peer : Endpoint) :
    Outcome env.now (.tcpConnected generation peer) l (l.onTcpConnected env generation peer) := by
  unfold onTcpConnected
  split
  · exact .rests (rests_refl l)
  · next c hcurrent =>
    obtain ⟨hc, hgeneration⟩ := current?_eq_some hcurrent
    dsimp only
    split
    · exact .rests ((l.rests_failWith env _ false).cons (by rintro ⟨⟩))
    · next socket _ => exact .opens generation peer c socket rfl hc hgeneration rfl

theorem outcome_onSnapshot {c : Connection} (hc : l.connection = some c) (hstate : c.tcpState = .receiving) (f : Frame) :
    Outcome env.now (.tcpFrame c.generation f) l (l.onSnapshot env f) := by
  have honly : ∀ c', l.connection = some c' → c' = c := by
    intro c' hc'
    rw [hc] at hc'
    exact (Option.some.inj hc').symm
  unfold onSnapshot
  split
  · next hm =>
    refine l.outcome_onReceiver env (.snapshotFrame f) ?_ ?_
    · intro c' hc'
      rw [honly c' hc']
      exact .snapshotFrame _ f ((Frame.message?_eq_none_iff f).1 hm)
    · intro c' hc' _
      rw [honly c' hc', hstate]
  · next id seq ok hm =>
    split
    · exact .rests (l.rests_failWith env _ false)
    split
    · exact .rests (l.rests_failWith env _ false)
    · next hok _ =>
      obtain rfl : ok = true := by simpa using hok
      refine l.outcome_onReceiver env (.endOfSnapshot seq.toNat) ?_ ?_
      · intro c' hc'
        rw [honly c' hc']
        exact .endOfSnapshot _ f id seq hm
      · intro c' hc' _
        rw [honly c' hc', hstate]
  · exact .rests (l.rests_failWith env _ false)
  · refine .rests (rests_of_connection_eq rfl ?_)
    intro e he
    rw [List.mem_singleton.1 he]
    rintro ⟨⟩

theorem outcome_onTcpFrame (generation : Nat) (f : Frame) :
    Outcome env.now (.tcpFrame generation f) l (l.onTcpFrame env generation f) := by
  unfold onTcpFrame
  split
  · exact .rests (rests_refl l)
  · next c hcurrent =>
    obtain ⟨hc, rfl⟩ := current?_eq_some hcurrent
    split
    · exact .rests (l.rests_onLoginAnswer env hc f)
    · next hstate => exact l.outcome_onSnapshot env hc hstate f
    · exact .rests (rests_refl l)
    · exact .rests (rests_refl l)

theorem outcome_onUdp (generation : Nat) (f : Frame) :
    Outcome env.now (.udp generation f) l (l.onUdp env generation f) := by
  unfold onUdp
  split
  · exact .rests (rests_refl l)
  · next c hcurrent =>
    obtain ⟨hc, rfl⟩ := current?_eq_some hcurrent
    refine l.outcome_onReceiver env (.frame f) ?_ (by rintro c' hc' ⟨⟩)
    intro c' hc'
    rw [hc] at hc'
    obtain rfl := Option.some.inj hc'
    exact .frame _ f

theorem outcome_onTask {task : Task} (hmanual : ∀ call gap, task ≠ .manualResend call gap) :
    Outcome env.now task l (l.onTask env task) := by
  cases task with
  | up => exact .rests ((rests_driveAndAct { l with wantsUp := true } env .up).of_connection_eq rfl)
  | down => exact .rests ((rests_driveAndAct { l with wantsUp := false } env .down).of_connection_eq rfl)
  | update channel => exact .rests (l.rests_onUpdate env channel)
  | tcpConnected generation peer => exact l.outcome_onTcpConnected env generation peer
  | tcpFrame generation f => exact l.outcome_onTcpFrame env generation f
  | tcpClosed generation error =>
    refine .rests ?_
    show Rests l (l.onTcpClosed env generation error)
    unfold onTcpClosed
    split
    · exact rests_refl l
    split
    · exact rests_refl l
    · exact l.rests_failWith env _ false
  | udp generation f => exact l.outcome_onUdp env generation f
  | manualResend call gap => exact absurd rfl (hmanual call gap)
  | reconnectDue =>
    exact .rests ((rests_driveAndAct { l with reconnectAt := none } env .reconnectDue).of_connection_eq rfl)
  | loginTimeout => exact .rests (l.rests_onLoginTimeout env)
  | requestTimer =>
    exact l.outcome_onReceiver env .requestTimer (fun _ _ => .requestTimer _) (by rintro c' hc' ⟨⟩)
  | livenessTick =>
    show Outcome env.now .livenessTick l (l.onLivenessTick env)
    unfold onLivenessTick
    split
    · exact l.outcome_onReceiver env .livenessTick (fun _ _ => .livenessTick _) (by rintro c' hc' ⟨⟩)
    · exact .rests (rests_refl l)

end ReliableMulticast.SubscriberLink
