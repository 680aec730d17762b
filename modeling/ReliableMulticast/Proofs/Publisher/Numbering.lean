import ReliableMulticast.Proofs.Publisher.Transmitter

/-!
# The numbers of the data stream

A transmitter lives through any number of connections: it is attached, detached and released, and attached again. What it
sends depends on its past in two ways only, and both can be told without looking at its state:

* `openAfter es` are the outlets of the last attach among the events `es`, unless a detach or a release came after it;
* the log of its `Transmission` are the frames that its sends have put on the network so far.

`Airs es log e ds` says in these terms what the datagrams `ds` of the next event `e` are, with one constructor for each
thing that can happen. Sends and heartbeats go to the data socket under the number after the log; only a send makes the
log longer; repetitions go to the socket for them, and they are copies from the log.

Main statement (`Transmission.numbers_throughout`): every event airs this, and the log are the `admitted` sends in their
order under the numbers from 1 on, however often the transmitter was attached, detached and released. Its head, which is
all that others read of the numbers, is the number after the log.
-/

namespace ReliableMulticast

/-- The frame under this number, with this offset from the last heartbeat. -/
def Frame.under (f : Frame) (number : Nat) (nanos : UInt32) : Frame :=
  { f with header := { f.header with seq := .ofNat number, nanos := nanos } }

/-- The second list are the frames of the first under the numbers from `first` on. -/
inductive Frame.InTurn : Nat → List Frame → List Frame → Prop
  | nil {first : Nat} : InTurn first [] []
  | cons {first : Nat} {f : Frame} {fs gs : List Frame} (nanos : UInt32) (rest : InTurn (first + 1) fs gs) :
      InTurn first (f :: fs) (f.under first nanos :: gs)

theorem Frame.InTurn.append {first : Nat} {fs gs fs' gs' : List Frame} (h : InTurn first fs gs)
    (h' : InTurn (first + fs.length) fs' gs') : InTurn first (fs ++ fs') (gs ++ gs') := by
  induction h with
  | nil => exact h'
  | cons nanos _ ih =>
    refine .cons nanos (ih ?_)
    rwa [Nat.succ_add_eq_add_succ]

theorem Frame.InTurn.length_eq {first : Nat} {fs gs : List Frame} (h : InTurn first fs gs) : gs.length = fs.length := by
  induction h with
  | nil => rfl
  | cons _ _ ih => rw [List.length_cons, List.length_cons, ih]

namespace Transmitter

/-- The outlets for live frames, once this event has happened. -/
def Event.opens (o? : Option Outlets) : Event → Option Outlets
  | .task (.attach o) => some o
  | .task .detach => none
  | .task .release => none
  | _ => o?

/-- The event leaves the outlets for live frames as they are. -/
def Event.Leaves (e : Event) : Prop :=
  (∀ o, e ≠ .task (.attach o)) ∧ e ≠ .task .detach ∧ e ≠ .task .release

/-- The outlets for live frames after these events of a new transmitter. -/
def openAfter (es : List (Instant × Event)) : Option Outlets := es.foldl (fun o? e => e.2.opens o?) none

/-- The frame of a send that finds outlets which accept it. -/
def Event.admitted (o? : Option Outlets) : Event → List Frame
  | .task (.send f) => if o?.any (·.accepts f) then [f] else []
  | _ => []

def admittedFrom (o? : Option Outlets) : List (Instant × Event) → List Frame
  | [] => []
  | e :: es => e.2.admitted o? ++ admittedFrom (e.2.opens o?) es

/-- The frames of the sends that found outlets which accept them, in the order of the sends. -/
def admitted (es : List (Instant × Event)) : List Frame := admittedFrom none es

/-- What the event `e` sends after the events `es`, by which the frames of the log were sent live. -/
inductive Airs (es : List (Instant × Event)) (log : List Frame) : Event → List Datagram → Prop
  | sent {f : Frame} {o : Outlets} {nanos : UInt32} (opened : openAfter es = some o) (accepted : o.accepts f = true) :
      Airs es log (.task (.send f)) [⟨o.data, o.dataTo, f.under (firstSeq + log.length) nanos⟩]
  | dropped {f : Frame} (unwanted : ∀ o, openAfter es = some o → o.accepts f = false) :
      Airs es log (.task (.send f)) []
  | beat {stamp : Duration} {o : Outlets} (opened : openAfter es = some o) :
      Airs es log (.heartbeatTick stamp)
        [⟨o.data, o.dataTo, .control (.heartbeat stamp) (.ofNat (firstSeq + log.length))⟩]
  | mute {stamp : Duration} (closed : openAfter es = none) : Airs es log (.heartbeatTick stamp) []
  | repeated {seq count : Nat} {dest : Endpoint} {ds : List Datagram} (copied : ∀ d ∈ ds, d.dest = dest ∧ d.frame ∈ log)
      (apart : ∀ d ∈ ds, ∃ moment o, (moment, .task (.attach o)) ∈ es ∧ d.socket = o.resend) :
      Airs es log (.task (.resend seq count dest)) ds
  | switched {e : Event} (switches : ¬e.Leaves) : Airs es log e []
  | trimmed : Airs es log .trimTick []

/-! ### The open outlets -/

theorem openAfter_append (es es' : List (Instant × Event)) :
    openAfter (es ++ es') = es'.foldl (fun o? e => e.2.opens o?) (openAfter es) := List.foldl_append

/-- Nothing is open from a detach or a release on, until the next attach. -/
theorem openAfter_eq_none {before between : List (Instant × Event)} {now : Instant} {off : Event}
    (hoff : off = .task .detach ∨ off = .task .release) (hbetween : ∀ e ∈ between, ∀ o, e.2 ≠ .task (.attach o)) :
    openAfter (before ++ (now, off) :: between) = none := by
  rw [openAfter_append, List.foldl_cons]
  have hclosed : off.opens (openAfter before) = none := by rcases hoff with rfl | rfl <;> rfl
  rw [hclosed]
  clear hclosed hoff
  induction between with
  | nil => rfl
  | cons e rest ih =>
    have hstill : e.2.opens none = none := by
      have hattach := hbetween e List.mem_cons_self
      rcases hevent : e.2 with t | _ | _
      · cases t with
        | attach o => exact absurd hevent (hattach o)
        | _ => rfl
      · rfl
      · rfl
    rw [List.foldl_cons, hstill]
    exact ih fun e' he' => hbetween e' (List.mem_cons_of_mem e he')

/-! ### One event -/

theorem live?_onEvent (t : Transmitter) (now : Instant) (e : Event) :
    (t.onEvent now e).1.live? = e.opens t.live? := by
  cases e with
  | task task =>
    cases task with
    | send f => rcases t.onSend_cases now f with ⟨o, h⟩ | h <;> simp [onEvent, onTask, h, live?, Event.opens]
    | attach o => rfl
    | resend seq count dest => rfl
    | detach => rfl
    | release => rfl
  | trimTick => rfl
  | heartbeatTick stamp =>
    rcases t.onHeartbeatTick_cases now stamp with ⟨o, h⟩ | h <;> simp [onEvent, h, live?, Event.opens]

/-- A transmitter has no outlets but those that it was given. -/
theorem outlets_onEvent {t : Transmitter} {now : Instant} {e : Event} {o : Outlets}
    (h : (t.onEvent now e).1.outlets = some o) : t.outlets = some o ∨ e = .task (.attach o) := by
  cases e with
  | task task =>
    cases task with
    | send f =>
      rcases t.onSend_cases now f with ⟨o', hs⟩ | hs <;> simpa [onEvent, onTask, hs] using h
    | attach o' =>
      obtain rfl : o' = o := by simpa [onEvent, onTask] using h
      exact Or.inr rfl
    | resend seq count dest => exact Or.inl h
    | detach => exact Or.inl h
    | release => cases h
  | trimTick => exact Or.inl h
  | heartbeatTick stamp =>
    rcases t.onHeartbeatTick_cases now stamp with ⟨o', hs⟩ | hs <;> simpa [onEvent, hs] using h

/-- A send is sent exactly when there are outlets for live frames that accept it. -/
theorem onSend_eq (t : Transmitter) (now : Instant) (f : Frame) :
    t.onSend now f = match t.live? with
      | none => (t, [])
      | some o =>
        if o.accepts f then ({ t with queue := t.queue.push (t.stampOffset now f) },
          [⟨o.data, o.dataTo, f.under t.queue.head (.ofNat (min (now - t.lastHeartbeat) maxOffset))⟩])
        else (t, []) := rfl

theorem outlets_of_mem_onResend {t : Transmitter} {seq count : Nat} {dest : Endpoint} {d : Datagram}
    (h : d ∈ t.onResend seq count dest) : d.dest = dest ∧ ∃ o, t.outlets = some o ∧ d.socket = o.resend := by
  unfold onResend at h
  split at h
  · cases h
  next o ho =>
    split at h
    · cases h
    split at h
    · cases h
    obtain ⟨f, -, rfl⟩ := List.mem_map.1 h
    exact ⟨rfl, o, ho, rfl⟩

/-- The frame that a send puts under the next number is its own. -/
theorem inTurn_numbered (t : Transmitter) (now : Instant) (e : Event) :
    Frame.InTurn t.queue.head (e.admitted t.live?) (t.numbered now e) := by
  cases e with
  | task task =>
    cases task with
    | send f =>
      show Frame.InTurn _ (if t.live?.any (·.accepts f) then [f] else []) ((t.onSend now f).2.map (·.frame))
      rw [onSend_eq]
      cases t.live? with
      | none => exact .nil
      | some o =>
        cases haccepts : o.accepts f with
        | true => simpa [haccepts] using Frame.InTurn.cons _ .nil
        | false => simpa [haccepts] using Frame.InTurn.nil
    | _ => exact .nil
  | _ => exact .nil

/-- Where nothing is open, an event sends repetitions or nothing. -/
theorem Airs.eq_nil {es : List (Instant × Event)} {log : List Frame} {e : Event} {ds : List Datagram}
    (h : Airs es log e ds) (hclosed : openAfter es = none)
    (hlive : ∀ seq count dest, e ≠ .task (.resend seq count dest)) : ds = [] := by
  cases h with
  | sent opened _ => rw [hclosed] at opened; cases opened
  | beat opened => rw [hclosed] at opened; cases opened
  | repeated _ _ => exact absurd rfl (hlive _ _ _)
  | _ => rfl

end Transmitter

namespace Transmission

open Transmitter (openAfter admitted admittedFrom Airs firstSeq)

/-! ### Whole runs -/

theorem live?_run (x : Transmission) (es : List (Instant × Transmitter.Event)) :
    (x.run es).transmitter.live? = es.foldl (fun o? e => e.2.opens o?) x.transmitter.live? := by
  induction es generalizing x with
  | nil => rfl
  | cons e rest ih =>
    have hstep : (x.step e.1 e.2).transmitter.live? = e.2.opens x.transmitter.live? :=
      x.transmitter.live?_onEvent e.1 e.2
    rw [List.foldl_cons, ← hstep]
    exact ih (x.step e.1 e.2)

theorem outlets_run {x : Transmission} {es : List (Instant × Transmitter.Event)} {o : Outlets}
    (h : (x.run es).transmitter.outlets = some o) :
    x.transmitter.outlets = some o ∨ ∃ now, (now, .task (.attach o)) ∈ es := by
  induction es generalizing x with
  | nil => exact Or.inl h
  | cons e rest ih =>
    obtain ⟨now, e⟩ := e
    rcases ih h with h | ⟨now', h⟩
    · rcases Transmitter.outlets_onEvent h with h | rfl
      · exact Or.inl h
      · exact Or.inr ⟨now, List.mem_cons_self⟩
    · exact Or.inr ⟨now', List.mem_cons_of_mem _ h⟩

/-- The log grows by the admitted sends, under the numbers from the head on. -/
theorem Faithful.log_run {x : Transmission} (h : x.Faithful) (es : List (Instant × Transmitter.Event)) :
    ∃ more, (x.run es).log = x.log ++ more ∧ Frame.InTurn x.head (admittedFrom x.transmitter.live? es) more := by
  induction es generalizing x with
  | nil => exact ⟨[], (List.append_nil _).symm, .nil⟩
  | cons e rest ih =>
    obtain ⟨now, e⟩ := e
    have hnumbered := x.transmitter.inTurn_numbered now e
    obtain ⟨more, hlog, hmore⟩ := ih (h.step now e)
    have hlive : (x.step now e).transmitter.live? = e.opens x.transmitter.live? := x.transmitter.live?_onEvent now e
    have hhead : (x.step now e).head = x.head + (e.admitted x.transmitter.live?).length := by
      rw [← hnumbered.length_eq, (h.step now e).head, h.head, Nat.add_right_comm]
      exact congrArg (· + 1) List.length_append
    rw [hlive, hhead] at hmore
    refine ⟨x.transmitter.numbered now e ++ more, ?_, hnumbered.append hmore⟩
    rw [← List.append_assoc]
    exact hlog

/-! ### What is sent -/

section Whole

variable (settings : Settings) (start : Instant) (es : List (Instant × Transmitter.Event))

theorem live?_begin_run : ((begin settings start).run es).transmitter.live? = openAfter es :=
  live?_run (begin settings start) es

theorem head_begin_run : ((begin settings start).run es).head = firstSeq + ((begin settings start).run es).log.length := by
  rw [((faithful_begin settings start).run es).head, Nat.add_comm]
  rfl

theorem airs_send (now : Instant) (f : Frame) :
    Airs es ((begin settings start).run es).log (.task (.send f))
      (((begin settings start).run es).transmitter.onEvent now (.task (.send f))).2 := by
  have hlive := live?_begin_run settings start es
  have hhead : ((begin settings start).run es).transmitter.queue.head = _ := head_begin_run settings start es
  show Airs _ _ _ (Transmitter.onSend _ now f).2
  rw [Transmitter.onSend_eq, hlive, hhead]
  cases ho : openAfter es with
  | none => exact .dropped fun o h => by rw [ho] at h; cases h
  | some o =>
    cases haccepts : o.accepts f with
    | true => simpa [haccepts] using Airs.sent ho haccepts
    | false =>
      have hunwanted : ∀ o', openAfter es = some o' → o'.accepts f = false := by
        intro o' h
        rw [ho] at h
        cases h
        exact haccepts
      have hdropped : Airs es ((begin settings start).run es).log (.task (.send f)) [] := .dropped hunwanted
      simpa [haccepts] using hdropped

theorem airs_heartbeatTick (now : Instant) (stamp : Duration) :
    Airs es ((begin settings start).run es).log (.heartbeatTick stamp)
      (((begin settings start).run es).transmitter.onEvent now (.heartbeatTick stamp)).2 := by
  have hlive := live?_begin_run settings start es
  have hhead : ((begin settings start).run es).transmitter.queue.head = _ := head_begin_run settings start es
  show Airs _ _ _ (Transmitter.onHeartbeatTick _ now stamp).2
  unfold Transmitter.onHeartbeatTick
  rw [hlive, hhead]
  cases ho : openAfter es with
  | none => exact .mute ho
  | some o => exact .beat ho

theorem airs_resend (now : Instant) (seq count : Nat) (dest : Endpoint) :
    Airs es ((begin settings start).run es).log (.task (.resend seq count dest))
      (((begin settings start).run es).transmitter.onEvent now (.task (.resend seq count dest))).2 := by
  have hfaithful := (faithful_begin settings start).run es
  refine .repeated (fun d hd => ⟨?_, ?_⟩) (fun d hd => ?_)
  · exact (Transmitter.outlets_of_mem_onResend hd).1
  · exact List.mem_reverse.1 (hfaithful.kept.subset (Transmitter.mem_onResend hd))
  · obtain ⟨-, o, ho, hsocket⟩ := Transmitter.outlets_of_mem_onResend hd
    rcases outlets_run ho with hnew | ⟨moment, hattach⟩
    · cases hnew
    · exact ⟨moment, o, hattach, hsocket⟩

theorem airs (now : Instant) (e : Transmitter.Event) :
    Airs es ((begin settings start).run es).log e (((begin settings start).run es).transmitter.onEvent now e).2 := by
  cases e with
  | task task =>
    cases task with
    | send f => exact airs_send settings start es now f
    | resend seq count dest => exact airs_resend settings start es now seq count dest
    | attach o => exact .switched fun h => h.1 o rfl
    | detach => exact .switched fun h => h.2.1 rfl
    | release => exact .switched fun h => h.2.2 rfl
  | trimTick => exact .trimmed
  | heartbeatTick stamp => exact airs_heartbeatTick settings start es now stamp

end Whole

/-- **The data stream has no gap and no number twice, over the whole life of a transmitter.** Whatever happened to a new
transmitter, what it has sent live are the admitted sends in their order under the numbers from 1 on, and the next event
airs what is due after them: a send exactly if there are outlets for it, and a heartbeat under the number that the next
send will get. Between a detach or a release and the next attach there is neither. -/
theorem numbers_throughout (settings : Settings) (start : Instant) (es : List (Instant × Transmitter.Event)) :
    let x := (begin settings start).run es
    Frame.InTurn firstSeq (admitted es) x.log ∧ x.head = firstSeq + x.log.length ∧
      (∀ now e, Airs es x.log e (x.transmitter.onEvent now e).2) ∧
      ∀ before moment off between, es = before ++ (moment, off) :: between → off = .task .detach ∨ off = .task .release →
        (∀ e ∈ between, ∀ o, e.2 ≠ .task (.attach o)) →
          ∀ now e, (∀ seq count dest, e ≠ .task (.resend seq count dest)) → (x.transmitter.onEvent now e).2 = [] := by
  intro x
  have hlog : Frame.InTurn firstSeq (admitted es) x.log := by
    obtain ⟨more, hlog, hmore⟩ := (faithful_begin settings start).log_run es
    have hlog : x.log = more := hlog
    rw [hlog]
    exact hmore
  refine ⟨hlog, head_begin_run settings start es, airs settings start es, ?_⟩
  rintro before moment off between hes hoff hbetween now e hlive
  have hclosed : openAfter es = none := by
    rw [hes]
    exact Transmitter.openAfter_eq_none hoff hbetween
  exact (airs settings start es now e).eq_nil hclosed hlive

/-- A send before the first connection, one that the filter of the first connection stops, and one between the two. -/
def reattached : List (Instant × Transmitter.Event) :=
  let group : Endpoint := ⟨⟨239, 1, 1, 1⟩, 9001⟩
  let onShard (shard : UInt8) : Frame := ⟨⟨0, 0, 1, 1, shard⟩, [shard]⟩
  [(1, .task (.send (onShard 3))), (2, .task (.attach ⟨1, group, 2, some 3⟩)), (3, .task (.send (onShard 3))),
    (4, .task (.send (onShard 4))), (5, .heartbeatTick ⟨0⟩), (6, .task .detach), (7, .task (.send (onShard 5))),
    (8, .task .release), (9, .task (.attach ⟨3, group, 4, none⟩)), (10, .task (.send (onShard 6))), (11, .trimTick),
    (12, .task .detach), (13, .task (.send (onShard 7)))]

theorem numbers_reattached :
    let x := (begin .default 0).run reattached
    Frame.InTurn firstSeq (admitted reattached) x.log ∧ x.log.map (fun f => (f.seq, f.shard)) = [(1, 3), (2, 6)] ∧
      x.sent.map (fun d => (d.socket, d.frame.seq)) = [(1, 1), (1, 2), (3, 2)] ∧
        (x.transmitter.onEvent 14 (.heartbeatTick ⟨0⟩)).2 = [] := by
  intro x
  obtain ⟨hlog, -, -, hsilent⟩ := numbers_throughout .default 0 reattached
  have hbetween : ∀ e ∈ reattached.drop 12, ∀ o, e.2 ≠ .task (.attach o) := by
    rintro e he o
    obtain rfl : e = (13, .task (.send ⟨⟨0, 0, 1, 1, 7⟩, [7]⟩)) := List.mem_singleton.1 he
    simp
  exact ⟨hlog, by decide +kernel, by decide +kernel,
    hsilent (reattached.take 11) 12 (.task .detach) (reattached.drop 12) rfl (Or.inl rfl) hbetween 14 _ (by simp)⟩

end Transmission

end ReliableMulticast
