import Mathlib.Data.List.Nodup
import ReliableMulticast.Proofs.Link.Generations
import ReliableMulticast.Proofs.Link.Intent

/-!
# Sessions do not disturb one another

A publisher's link keeps an entry for each session under way, and the sessions report to it how far they are and how they
ended. Such a report comes at any time: after the session was broken off, after the connection has been given up, after
another one has been started, or more than once.

A report is about one entry at most, the one with its generation and its number (`Task.about?`), and the link does nothing
about it but to look after that entry (`onTask_of_report`), so that reports in any order come down to what each entry makes
of its own (`Connection.after`, `run_reports`).

For the numbers, what counts is that a link takes on one session at a time, each under the next number, and that all else it
does is to lose some of those it has: this is `Retains`, and every task but an accepted connection is of this kind
(`admits_onTask`). The entries of a link then are some of those that it admitted, in this order (`Tidy`).

Main statement (`isolates`): a session that fails, or that reports what it likes, is a matter of its own entry.
-/

namespace ReliableMulticast.PublisherLink

open Link (Input Action)

/-! ### Reports -/

/-- The generation and the number of the session that a task is a report about. -/
def Task.about? : Task → Option (Nat × SessionId)
  | .sessionState generation session _ => some (generation, session)
  | .sessionClosed generation session _ => some (generation, session)
  | _ => none

/-- How far the session says that it is. -/
def Task.reached? : Task → Option Link.TcpState
  | .sessionState _ _ state => some state
  | _ => none

/-- The session says that it is over. -/
def Task.ends : Task → Bool
  | .sessionClosed .. => true
  | _ => false

/-- What its own reports make of an entry: it is gone if the session has ended, and else it has the state last reported. -/
def SessionEntry.after (s : SessionEntry) (own : List Task) : Option SessionEntry :=
  if own.any Task.ends then none else some { s with state := lastGiven Task.reached? s.state own }

/-- What reports make of a connection: each entry goes by those about itself. -/
def Connection.after (c : Connection) (reports : List Task) : Connection :=
  { c with sessions := c.sessions.filterMap fun s => s.after (reports.filter (·.about? = some (c.generation, s.id))) }

theorem SessionEntry.after_nil (s : SessionEntry) : s.after [] = some s := rfl

theorem SessionEntry.after_cons (s : SessionEntry) (t : Task) (own : List Task) :
    s.after (t :: own) = (s.after [t]).bind (·.after own) := by
  unfold SessionEntry.after
  rw [List.any_cons, List.any_cons, List.any_nil, Bool.or_false, lastGiven_cons]
  cases ht : t.ends with
  | true => rfl
  | false =>
    have hone : lastGiven Task.reached? s.state [t] = (Task.reached? t).getD s.state := by
      rw [lastGiven_cons]
      rfl
    rw [Bool.false_or, if_neg Bool.false_ne_true, Option.bind_some, hone]

/-- An entry that is left has at most another state. -/
theorem SessionEntry.eq_of_after {s s' : SessionEntry} {own : List Task} (h : s.after own = some s') :
    ∃ state, s' = { s with state := state } := by
  unfold SessionEntry.after at h
  split at h
  · cases h
  · exact ⟨_, (Option.some.inj h).symm⟩

theorem Connection.after_nil (c : Connection) : c.after [] = c := by
  have hsome : c.sessions.filterMap (fun s => s.after []) = c.sessions := List.filterMap_some
  exact congrArg (fun sessions => { c with sessions := sessions }) hsome

theorem Connection.after_cons (c : Connection) (t : Task) (reports : List Task) :
    c.after (t :: reports) = (c.after [t]).after reports := by
  unfold Connection.after
  dsimp only
  rw [List.filterMap_filterMap]
  congr 1
  refine List.filterMap_congr fun s _ => ?_
  by_cases ht : t.about? = some (c.generation, s.id)
  · rw [List.filter_cons_of_pos (by simpa using ht), List.filter_cons_of_pos (by simpa using ht), List.filter_nil,
      SessionEntry.after_cons]
    refine Option.bind_congr fun s' hs' => ?_
    obtain ⟨state, rfl⟩ := SessionEntry.eq_of_after hs'
    rfl
  · rw [List.filter_cons_of_neg (by simpa using ht), List.filter_cons_of_neg (by simpa using ht), List.filter_nil,
      SessionEntry.after_nil, Option.bind_some]

/-- The link with the entries that are left of a connection after reports. -/
def after (l : PublisherLink) (reports : List Task) : PublisherLink :=
  { l with connection := l.connection.map (·.after reports) }

theorem after_nil (l : PublisherLink) : l.after [] = l := by
  have hid : l.connection.map (·.after []) = l.connection := by
    cases hc : l.connection with
    | none => rfl
    | some c => rw [Option.map_some, Connection.after_nil]
  unfold after
  rw [hid]

theorem after_cons (l : PublisherLink) (t : Task) (reports : List Task) :
    l.after (t :: reports) = (l.after [t]).after reports := by
  unfold after
  rw [Option.map_map]
  congr 1
  exact Option.map_congr fun c _ => c.after_cons t reports

/-- A report that is not about any entry changes nothing. -/
theorem Connection.after_of_not_about {c : Connection} {t : Task}
    (h : ∀ s ∈ c.sessions, t.about? ≠ some (c.generation, s.id)) : c.after [t] = c := by
  have hall : c.sessions.filterMap (fun s => s.after ([t].filter (·.about? = some (c.generation, s.id)))) = c.sessions := by
    rw [List.filterMap_congr (g := some) fun s hs => ?_]
    · exact List.filterMap_some
    · rw [List.filter_cons_of_neg (by simpa using h s hs)]
      rfl
  exact congrArg (fun sessions => { c with sessions := sessions }) hall

theorem after_of_not_about {l : PublisherLink} {t : Task}
    (h : ∀ c ∈ l.connection, ∀ s ∈ c.sessions, t.about? ≠ some (c.generation, s.id)) : l.after [t] = l := by
  have hsame : l.connection.map (·.after [t]) = l.connection := by
    cases hc : l.connection with
    | none => rfl
    | some c => rw [Option.map_some, Connection.after_of_not_about (h c hc)]
  unfold after
  rw [hsame]

theorem Connection.after_state (c : Connection) (session : SessionId) (state : Link.TcpState) :
    c.after [.sessionState c.generation session state] =
      { c with sessions := c.sessions.map fun s => if s.id = session then { s with state := state } else s } := by
  have hentry : ∀ s ∈ c.sessions,
      s.after ([.sessionState c.generation session state].filter (·.about? = some (c.generation, s.id))) =
        some (if s.id = session then { s with state := state } else s) := by
    intro s _
    by_cases hid : s.id = session
    · subst hid
      rw [List.filter_cons_of_pos (by simp [Task.about?]), if_pos rfl]
      rfl
    · rw [List.filter_cons_of_neg (by simp [Task.about?, Ne.symm hid]), if_neg hid]
      rfl
  unfold Connection.after
  rw [List.filterMap_congr hentry]
  congr 1
  exact List.filterMap_eq_map_iff_forall_eq_some.2 fun s _ => rfl

theorem Connection.after_closed (c : Connection) (session : SessionId) (result : Except SessionFailure Bool) :
    c.after [.sessionClosed c.generation session result] =
      { c with sessions := c.sessions.filter (·.id != session) } := by
  have hentry : ∀ s ∈ c.sessions,
      s.after ([.sessionClosed c.generation session result].filter (·.about? = some (c.generation, s.id))) =
        Option.guard (·.id != session) s := by
    intro s _
    by_cases hid : s.id = session
    · rw [hid, List.filter_cons_of_pos (by simp [Task.about?])]
      simp [Option.guard, hid, SessionEntry.after, Task.ends]
    · rw [List.filter_cons_of_neg (by simp [Task.about?, Ne.symm hid])]
      simp [Option.guard, hid, SessionEntry.after_nil]
  unfold Connection.after
  rw [List.filterMap_congr hentry, List.filterMap_eq_filter]

theorem onSessionState_eq (l : PublisherLink) (generation : Nat) (session : SessionId) (state : Link.TcpState) :
    l.onSessionState generation session state = l.after [.sessionState generation session state] := by
  unfold onSessionState after
  congr 1
  refine Option.map_congr fun c _ => ?_
  by_cases hg : c.generation = generation
  · rw [if_pos hg, ← hg, Connection.after_state]
  · rw [if_neg hg, Connection.after_of_not_about]
    intro s _ habout
    exact hg (Prod.mk.inj (Option.some.inj habout)).1.symm

/-- Operators are told of the end of a session that has an entry, and of nothing else. -/
structure TellsEnd (l : PublisherLink) (generation : Nat) (session : SessionId) (effects : List Effect) : Prop where
  alert : ∃ message, effects = [l.alert .warning message]
  entry : ∃ c ∈ l.connection, c.generation = generation ∧ ∃ s ∈ c.sessions, s.id = session

theorem onSessionClosed_eq (l : PublisherLink) (generation : Nat) (session : SessionId)
    (result : Except SessionFailure Bool) :
    (l.onSessionClosed generation session result).1 = l.after [.sessionClosed generation session result] ∧
      ((l.onSessionClosed generation session result).2 = [] ∨
        TellsEnd l generation session (l.onSessionClosed generation session result).2) := by
  have hstays (h : ∀ c ∈ l.connection, ∀ s ∈ c.sessions, ¬(c.generation = generation ∧ s.id = session)) :
      l = l.after [.sessionClosed generation session result] := by
    refine (after_of_not_about fun c hc s hs habout => h c hc s hs ?_).symm
    obtain ⟨hg, hid⟩ := Prod.mk.inj (Option.some.inj habout)
    exact ⟨hg.symm, hid.symm⟩
  unfold onSessionClosed
  split
  · next c hc =>
    split
    · next hg =>
      split
      · next s hs =>
        obtain ⟨hid, hs⟩ : s.id = session ∧ s ∈ c.sessions :=
          ⟨by simpa using List.find?_some hs, List.mem_of_find?_eq_some hs⟩
        refine ⟨?_, ?_⟩
        · unfold after
          rw [hc, Option.map_some, ← hg, Connection.after_closed]
        · cases closedMessage? s.peer result with
          | none => exact Or.inl rfl
          | some message => exact Or.inr ⟨⟨message, rfl⟩, c, hc, hg, s, hs, hid⟩
      · next hnone =>
        refine ⟨hstays ?_, Or.inl rfl⟩
        rintro c' hc' s hs ⟨-, hid⟩
        obtain rfl := Option.some.inj (hc.symm.trans hc')
        simpa [hid] using List.find?_eq_none.1 hnone s hs
    · next hg =>
      refine ⟨hstays ?_, Or.inl rfl⟩
      rintro c' hc' s - ⟨hg', -⟩
      obtain rfl := Option.some.inj (hc.symm.trans hc')
      exact hg hg'
  · next hnone =>
    refine ⟨hstays ?_, Or.inl rfl⟩
    intro c hc
    cases hnone.symm.trans hc

/-- A report changes the entry that it is about and nothing else. -/
theorem onTask_of_report (l : PublisherLink) (env : Surroundings) {t : Task} {generation : Nat} {session : SessionId}
    (ht : t.about? = some (generation, session)) :
    (l.onTask env t).1 = l.after [t] ∧
      ((l.onTask env t).2 = [] ∨ t.ends = true ∧ TellsEnd l generation session (l.onTask env t).2) := by
  cases t with
  | sessionState g id state => exact ⟨onSessionState_eq l g id state, Or.inl rfl⟩
  | sessionClosed g id result =>
    obtain ⟨rfl, rfl⟩ := Prod.mk.inj (Option.some.inj ht)
    obtain ⟨hafter, htells⟩ := onSessionClosed_eq l g id result
    exact ⟨hafter, htells.imp_right fun h => ⟨rfl, h⟩⟩
  | _ => cases ht

/-- Reports one after the other come down to what each entry makes of its own, and to alerts. -/
theorem run_reports (l : PublisherLink) {reports : List (Surroundings × Task)}
    (hreports : ∀ r ∈ reports, r.2.about?.isSome = true) :
    (core.run l reports).1 = l.after (reports.map (·.2)) ∧
      ∀ e ∈ (core.run l reports).2, ∃ message, e = l.alert .warning message := by
  induction reports generalizing l with
  | nil => exact ⟨l.after_nil.symm, by intro e he; cases he⟩
  | cons r rest ih =>
    obtain ⟨env, t⟩ := r
    obtain ⟨⟨generation, session⟩, ht⟩ := Option.isSome_iff_exists.1 (hreports (env, t) List.mem_cons_self)
    obtain ⟨hstep, htold⟩ := l.onTask_of_report env ht
    obtain ⟨hrest, hmore⟩ := ih (l.onTask env t).1 fun r hr => hreports r (List.mem_cons_of_mem _ hr)
    rw [Link.Core.run_cons]
    refine ⟨?_, fun e he => ?_⟩
    · rw [List.map_cons, after_cons, ← hstep]
      exact hrest
    · rcases List.mem_append.1 he with he | he
      · rcases htold with hnone | ⟨-, ⟨⟨message, halert⟩, -⟩⟩
        · rw [show (core.step l env t).2 = [] from hnone] at he
          cases he
        · rw [show (core.step l env t).2 = _ from halert] at he
          exact ⟨message, List.mem_singleton.1 he⟩
      · obtain ⟨message, rfl⟩ := hmore e he
        refine ⟨message, ?_⟩
        show PublisherLink.alert (l.onTask env t).1 _ _ = _
        rw [hstep]
        rfl

/-! ### Numbers -/

/-- A session with its number and the connection that it belongs to. -/
structure Admission where
  generation : Nat
  session : SessionId
  peer : Endpoint
deriving DecidableEq, Repr

def Effect.admission? : Effect → Option Admission
  | .serve generation session _ peer _ => some ⟨generation, session, peer⟩
  | _ => none

/-- The sessions that are taken on, in order. -/
def admitted (effects : List Effect) : List Admission := effects.filterMap Effect.admission?

def SessionEntry.admission (generation : Nat) (s : SessionEntry) : Admission := ⟨generation, s.id, s.peer⟩

def Connection.entered (c : Connection) : List Admission := c.sessions.map (·.admission c.generation)

/-- The sessions that a link keeps entries for. -/
def entered (l : PublisherLink) : List Admission := (l.connection.map Connection.entered).getD []

/-- No session is taken on, and some of those with an entry may be lost. -/
structure Retains (l : PublisherLink) (effects : List Effect) (l' : PublisherLink) : Prop where
  count : l'.sessionCount = l.sessionCount
  entered : l'.entered.Sublist l.entered
  admits : admitted effects = []

theorem admitted_append (effects effects' : List Effect) :
    admitted (effects ++ effects') = admitted effects ++ admitted effects' := List.filterMap_append

section Retains

variable {l l' l'' : PublisherLink} {effects effects' : List Effect} (env : Surroundings)

theorem Retains.of_eq (hcount : l'.sessionCount = l.sessionCount) (hconnection : l'.connection = l.connection)
    (hadmits : admitted effects = []) : Retains l effects l' := by
  refine ⟨hcount, ?_, hadmits⟩
  unfold PublisherLink.entered
  rw [hconnection]

theorem Retains.of_bare (hcount : l'.sessionCount = l.sessionCount) (hentered : l'.entered = [])
    (hadmits : admitted effects = []) : Retains l effects l' := by
  refine ⟨hcount, ?_, hadmits⟩
  rw [hentered]
  exact List.nil_sublist _

theorem retains_refl (l : PublisherLink) : Retains l [] l := .of_eq rfl rfl rfl

theorem Retains.trans (h : Retains l effects l') (h' : Retains l' effects' l'') : Retains l (effects ++ effects') l'' where
  count := h'.count.trans h.count
  entered := h'.entered.trans h.entered
  admits := by rw [admitted_append, h.admits, h'.admits, List.nil_append]

theorem Retains.told (h : Retains l effects l') {e : Effect} (he : e.admission? = none) : Retains l (e :: effects) l' where
  count := h.count
  entered := h.entered
  admits := by rw [admitted, List.filterMap_cons_none he, ← admitted, h.admits]

/-- What was noted before makes no difference to the sessions. -/
theorem Retains.noted (h : Retains l' effects l'') (hcount : l'.sessionCount = l.sessionCount)
    (hconnection : l'.connection = l.connection) : Retains l effects l'' := by
  have hnoted : Retains l [] l' := .of_eq hcount hconnection rfl
  exact hnoted.trans h

theorem admitted_closing (c : Option Connection) : admitted (closing c) = [] := by cases c <;> rfl

theorem retains_drive (l : PublisherLink) (input : Input) : Retains l (l.drive input).2.1 (l.drive input).1 := by
  refine .of_eq rfl rfl ?_
  show List.filterMap _ (List.map _ _) = []
  rw [List.filterMap_map]
  exact List.filterMap_eq_nil_iff.2 fun _ _ => rfl

theorem retains_rejectChannel (l : PublisherLink) (fault : ChannelFault) :
    Retains l (l.rejectChannel fault).2.1 (l.rejectChannel fault).1 := (retains_drive l .failed).told rfl

theorem retains_establish (l : PublisherLink) (endpoints : Endpoints) (data resend : SocketId) :
    Retains l (l.establish endpoints data resend).2 (l.establish endpoints data resend).1 :=
  .of_bare rfl rfl (admitted_closing l.connection)

theorem retains_connect (l : PublisherLink) : Retains l (l.connect env).2.1 (l.connect env).1 := by
  unfold connect
  split
  · exact retains_rejectChannel l _
  dsimp only
  split
  · next data resend _ => exact (retains_establish l _ data resend).trans (retains_drive _ .connected)
  · exact ((retains_drive l (.reconnect false)).told rfl).told rfl

theorem retains_perform (l : PublisherLink) (action : Action) :
    Retains l (l.perform env action).2.1 (l.perform env action).1 := by
  rcases action with _ | _ | _ | (_ | _) | _
  · exact retains_refl l
  · exact retains_connect env l
  · show Retains l l.startDisconnect.2 l.startDisconnect.1
    unfold startDisconnect
    split
    · exact retains_refl l
    · exact .of_eq rfl rfl rfl
  · exact .of_eq rfl rfl rfl
  · exact retains_drive l .reconnectDue
  · exact .of_eq rfl rfl rfl

theorem retains_act (fuel : Nat) (l : PublisherLink) (action : Action) :
    Retains l (act env fuel l action).2 (act env fuel l action).1 := by
  induction fuel generalizing l action with
  | zero => exact retains_refl l
  | succ fuel ih =>
    by_cases ha : action = .none
    · subst ha
      exact retains_refl l
    · rw [act_succ l ha]
      exact (retains_perform env l action).trans (ih _ _)

theorem retains_driveAndAct (l : PublisherLink) (input : Input) :
    Retains l (l.driveAndAct env input).2 (l.driveAndAct env input).1 := by
  rw [driveAndAct_eq]
  exact (retains_drive l input).trans (retains_act env actLimit _ _)

theorem retains_revive (l : PublisherLink) : Retains l (l.revive env).2 (l.revive env).1 := by
  have hdrive := retains_drive l (.enable true)
  unfold revive
  dsimp only
  split
  · exact hdrive.trans (retains_driveAndAct env _ .up)
  · exact hdrive

theorem retains_onUpdate (l : PublisherLink) (channel : Channel) :
    Retains l (l.onUpdate env channel).2 (l.onUpdate env channel).1 := by
  unfold onUpdate
  split
  · exact retains_refl l
  dsimp only
  have hnoted : Retains l [] { l with channel := channel } := .of_eq rfl rfl rfl
  refine hnoted.trans ?_
  split
  · next fault _ => exact (retains_rejectChannel _ fault).trans (retains_act env actLimit _ _)
  split
  · exact retains_driveAndAct env _ (.enable false)
  split
  · exact retains_revive env _
  · exact retains_driveAndAct env _ (.reconnect true)

/-- A connection loses all its sessions at once, in the first phase of a disconnect or with the last. -/
theorem retains_onDrained (l : PublisherLink) (phase : DisconnectPhase) :
    Retains l (l.onDrained env phase).2 (l.onDrained env phase).1 := by
  unfold onDrained
  split
  · exact .of_eq rfl rfl rfl
  cases phase with
  | detaching =>
    refine .of_bare rfl ?_ ?_
    · show ((l.connection.map _).map _).getD [] = []
      cases l.connection <;> rfl
    · show admitted (closing l.connection ++ _) = []
      rw [admitted_append, admitted_closing]
      rfl
  | draining => exact .of_eq rfl rfl rfl
  | releasing =>
    have hgone : Retains l (closing l.connection) { l with phase := none, connection := none } :=
      .of_bare rfl rfl (admitted_closing l.connection)
    exact hgone.trans (retains_driveAndAct env _ .disconnected)

end Retains

/-! ### Tasks -/

theorem Connection.entered_after (c : Connection) (reports : List Task) : (c.after reports).entered.Sublist c.entered := by
  show ((c.sessions.filterMap _).map (SessionEntry.admission c.generation)).Sublist (c.sessions.map _)
  induction c.sessions with
  | nil => exact .slnil
  | cons s rest ih =>
    rw [List.filterMap_cons, List.map_cons]
    split
    · exact ih.cons _
    · next s' hs' =>
      obtain ⟨state, rfl⟩ := SessionEntry.eq_of_after hs'
      exact ih.cons_cons _

theorem retains_after (l : PublisherLink) (reports : List Task) {effects : List Effect} (h : admitted effects = []) :
    Retains l effects (l.after reports) := by
  refine ⟨rfl, ?_, h⟩
  unfold PublisherLink.entered after
  cases l.connection with
  | none => exact .slnil
  | some c => exact c.entered_after reports

theorem retains_of_report (l : PublisherLink) (env : Surroundings) {t : Task} (ht : t.about?.isSome = true) :
    Retains l (l.onTask env t).2 (l.onTask env t).1 := by
  obtain ⟨⟨generation, session⟩, ht⟩ := Option.isSome_iff_exists.1 ht
  obtain ⟨hafter, htold⟩ := l.onTask_of_report env ht
  rw [hafter]
  refine retains_after l [t] ?_
  rcases htold with hnone | ⟨-, ⟨⟨message, halert⟩, -⟩⟩
  · rw [hnone]
    rfl
  · rw [halert]
    rfl

/-- What a task does to the sessions. -/
inductive Admits (l : PublisherLink) (effects : List Effect) (l' : PublisherLink) : Prop
  | none (retains : Retains l effects l')
  | one (a : Admission) (number : a.session = l.sessionCount + 1) (count : l'.sessionCount = l.sessionCount + 1)
    (entered : l'.entered = l.entered ++ [a]) (admits : admitted effects = [a])

theorem admits_onAccepted (l : PublisherLink) (generation : Nat) (conn : ConnId) (peer : Endpoint) :
    Admits l (l.onAccepted generation conn peer).2 (l.onAccepted generation conn peer).1 := by
  unfold onAccepted
  split
  · next c hc =>
    split
    · next hup =>
      obtain ⟨rfl, -, -⟩ := hup
      refine .one ⟨c.generation, l.sessionCount + 1, peer⟩ rfl rfl ?_ rfl
      simp [PublisherLink.entered, hc, Connection.entered, SessionEntry.admission]
    · exact .none (.of_eq rfl rfl rfl)
  · exact .none (.of_eq rfl rfl rfl)

/-- Only an accepted connection takes a session on. -/
theorem admits_onTask (l : PublisherLink) (env : Surroundings) (task : Task) :
    Admits l (l.onTask env task).2 (l.onTask env task).1 := by
  cases task with
  | accepted generation conn peer => exact admits_onAccepted l generation conn peer
  | up => exact .none ((retains_driveAndAct env { l with wantsUp := true } .up).noted rfl rfl)
  | down => exact .none ((retains_driveAndAct env { l with wantsUp := false } .down).noted rfl rfl)
  | update channel => exact .none (retains_onUpdate env l channel)
  | listenerFailed generation error =>
    refine .none ?_
    dsimp only [onTask]
    split
    · exact (retains_driveAndAct env l (.reconnect false)).told rfl
    · exact retains_refl l
  | sessionState generation session state => exact .none (retains_of_report l env rfl)
  | sessionClosed generation session result => exact .none (retains_of_report l env rfl)
  | drained phase => exact .none (retains_onDrained env l phase)
  | reconnectDue => exact .none ((retains_driveAndAct env { l with reconnectAt := none } .reconnectDue).noted rfl rfl)

/-- The sessions of which a task tells operators something, one for each thing told. -/
def told (l : PublisherLink) (env : Surroundings) (task : Task) : List SessionId :=
  (task.about?.map fun about => (l.onTask env task).2.map fun _ => about.2).getD []

/-- An alert about a session is the last of it. -/
theorem told_cases (l : PublisherLink) (env : Surroundings) (task : Task) :
    l.told env task = [] ∨ ∃ session, l.told env task = [session] ∧ session ∈ l.entered.map (·.session) ∧
      session ∉ (l.onTask env task).1.entered.map (·.session) := by
  unfold told
  cases ht : task.about? with
  | none => exact Or.inl rfl
  | some about =>
    obtain ⟨generation, session⟩ := about
    obtain ⟨hafter, hnone | ⟨hends, ⟨⟨message, halert⟩, c, hc, rfl, s, hs, rfl⟩⟩⟩ := l.onTask_of_report env ht
    · rw [hnone]
      exact Or.inl rfl
    · rw [halert, hafter]
      refine Or.inr ⟨s.id, rfl, ?_, ?_⟩
      · rw [PublisherLink.entered, hc]
        exact List.mem_map.2 ⟨_, List.mem_map.2 ⟨s, hs, rfl⟩, rfl⟩
      · cases task with
        | sessionClosed g id result =>
          obtain ⟨rfl, rfl⟩ := Prod.mk.inj (Option.some.inj ht)
          rw [PublisherLink.entered, after, hc, Option.map_some, Connection.after_closed]
          simp [Connection.entered, SessionEntry.admission]
        | _ => cases hends

/-! ### Whole runs -/

/-- The sessions of which operators are told something by their reports in a run. -/
def alerted (l : PublisherLink) : List (Surroundings × Task) → List SessionId
  | [] => []
  | (env, task) :: rest => l.told env task ++ (l.onTask env task).1.alerted rest

/-- The session with this number is not under way any more. -/
def Ended (l : PublisherLink) (session : SessionId) : Prop :=
  session ≤ l.sessionCount ∧ session ∉ l.entered.map (·.session)

theorem Ended.onTask {l : PublisherLink} {session : SessionId} (h : l.Ended session) (env : Surroundings) (task : Task) :
    (l.onTask env task).1.Ended session := by
  obtain ⟨hle, hnot⟩ := h
  cases admits_onTask l env task with
  | none retains =>
    refine ⟨?_, fun hin => hnot ((retains.entered.map _).subset hin)⟩
    rw [retains.count]
    exact hle
  | one a number count entered _ =>
    refine ⟨count ▸ Nat.le_succ_of_le hle, ?_⟩
    rw [entered, List.map_append, List.mem_append]
    rintro (hin | hin)
    · exact hnot hin
    · obtain rfl : session = a.session := List.mem_singleton.1 hin
      exact Nat.not_succ_le_self _ (number ▸ hle)

theorem Ended.run {l : PublisherLink} {session : SessionId} (h : l.Ended session) (tasks : List (Surroundings × Task)) :
    (core.run l tasks).1.Ended session := by
  induction tasks generalizing l with
  | nil => exact h
  | cons task rest ih => exact ih (h.onTask task.1 task.2)

/-- The sessions that were taken on are numbered one after the other, those under way are some of them, and operators were
told of some of the others. -/
structure Tidy (l : PublisherLink) (past : List Admission) (told : List SessionId) : Prop where
  numbered : past.map (·.session) = List.range' 1 l.sessionCount
  entered : l.entered.Sublist past
  once : told.Nodup
  known : ∀ session ∈ told, session ∈ past.map (·.session) ∧ session ∉ l.entered.map (·.session)

theorem Tidy.onTask {l : PublisherLink} {past : List Admission} {told : List SessionId} (h : Tidy l past told)
    (env : Surroundings) (task : Task) :
    Tidy (l.onTask env task).1 (past ++ admitted (l.onTask env task).2) (told ++ l.told env task) := by
  have hended : ∀ session ∈ told, l.Ended session := by
    intro session hin
    obtain ⟨hpast, hnot⟩ := h.known session hin
    refine ⟨?_, hnot⟩
    rw [h.numbered, List.mem_range'_1, Nat.add_comm 1] at hpast
    exact Nat.le_of_lt_succ hpast.2
  have hknown : ∀ session ∈ told, session ∈ (past ++ admitted (l.onTask env task).2).map (·.session) ∧
      session ∉ (l.onTask env task).1.entered.map (·.session) := by
    intro session hin
    refine ⟨?_, ((hended session hin).onTask env task).2⟩
    rw [List.map_append]
    exact List.mem_append_left _ (h.known session hin).1
  have hnumbered : (past ++ admitted (l.onTask env task).2).map (·.session) =
      List.range' 1 (l.onTask env task).1.sessionCount := by
    rw [List.map_append, h.numbered]
    cases admits_onTask l env task with
    | none retains => rw [retains.admits, retains.count, List.map_nil, List.append_nil]
    | one a number count _ admits =>
      rw [admits, count, List.range'_1_concat, List.map_singleton, number, Nat.add_comm 1]
  have hentered : (l.onTask env task).1.entered.Sublist (past ++ admitted (l.onTask env task).2) := by
    cases admits_onTask l env task with
    | none retains =>
      rw [retains.admits, List.append_nil]
      exact retains.entered.trans h.entered
    | one a _ _ entered admits =>
      rw [entered, admits]
      exact h.entered.append_right [a]
  rcases l.told_cases env task with hnone | ⟨session, hone, hin, hout⟩
  · rw [hnone, List.append_nil]
    exact ⟨hnumbered, hentered, h.once, hknown⟩
  · rw [hone]
    refine ⟨hnumbered, hentered, ?_, ?_⟩
    · -- it had an entry until now, so it was not told before
      exact List.nodup_append.2 ⟨h.once, List.nodup_singleton _, fun a ha b hb hab =>
        (h.known a ha).2 (by rw [hab, List.mem_singleton.1 hb]; exact hin)⟩
    · intro other hother
      rcases List.mem_append.1 hother with hother | hother
      · exact hknown other hother
      · obtain rfl := List.mem_singleton.1 hother
        refine ⟨?_, hout⟩
        rw [List.map_append]
        exact List.mem_append_left _ ((h.entered.map _).subset hin)

theorem Tidy.run {l : PublisherLink} {past : List Admission} {told : List SessionId} (h : Tidy l past told)
    (tasks : List (Surroundings × Task)) :
    Tidy (core.run l tasks).1 (past ++ admitted (core.run l tasks).2) (told ++ l.alerted tasks) := by
  induction tasks generalizing l past told with
  | nil =>
    show Tidy l (past ++ []) (told ++ [])
    rw [List.append_nil, List.append_nil]
    exact h
  | cons task rest ih =>
    obtain ⟨env, task⟩ := task
    have hrest := ih (h.onTask env task)
    rw [Link.Core.run_cons, admitted_append, ← List.append_assoc]
    rw [List.append_assoc told] at hrest
    exact hrest

theorem tidy_new (channel : Channel) (settings : Settings) : Tidy (new channel settings).1 [] [] := by
  have hbare : (new channel settings).1.connection = none ∧ (new channel settings).1.sessionCount = 0 := by
    unfold new
    split <;> exact ⟨rfl, rfl⟩
  refine ⟨by rw [hbare.2]; rfl, ?_, List.nodup_nil, by intro session h; cases h⟩
  rw [PublisherLink.entered, hbare.1]
  exact .slnil

/-- **A session that fails disturbs nothing but itself.** Whatever is asked of a new link and whatever is reported to it in
`tasks`, and whatever sessions of whatever connections report next, in any order and as often as they like:

* all that the link is afterwards is what it was, except that an entry of the current connection is gone if a report with
  its generation and number said that the session ended, and else has the state that the last such report gave. The only
  effects are alerts, so that nothing is posted to the transmitter and nothing is opened, closed or served;
* of each session operators are told at most once, and only of sessions that were admitted;
* sessions are numbered one after the other for all the life of the link, and the entries are some of the sessions admitted,
  each under its own number, with its own connection and its own peer;
* and once a session has lost its entry there is never an entry with its number again. -/
theorem isolates (channel : Channel) (settings : Settings) (tasks reports : List (Surroundings × Task))
    (hreports : ∀ r ∈ reports, r.2.about?.isSome = true) :
    let fresh := (new channel settings).1
    let l := (core.run fresh tasks).1
    let sessions := admitted (core.run fresh tasks).2
    ((core.run l reports).1 =
        { l with
          connection := l.connection.map fun c =>
            { c with
              sessions := c.sessions.filterMap fun s =>
                s.after ((reports.map (·.2)).filter (·.about? = some (c.generation, s.id))) } } ∧
      ∀ e ∈ (core.run l reports).2, ∃ message, e = l.alert .warning message) ∧
      ((fresh.alerted tasks).Nodup ∧ ∀ session ∈ fresh.alerted tasks, session ∈ sessions.map (·.session)) ∧
      (sessions.map (·.session) = List.range' 1 l.sessionCount ∧ l.entered.Sublist sessions) ∧
      ∀ before later, tasks = before ++ later → ∀ session ≤ (core.run fresh before).1.sessionCount,
        session ∉ (core.run fresh before).1.entered.map (·.session) → session ∉ l.entered.map (·.session) := by
  intro fresh l sessions
  have htidy := (tidy_new channel settings).run tasks
  rw [List.nil_append, List.nil_append] at htidy
  refine ⟨l.run_reports hreports, ⟨htidy.once, fun session h => (htidy.known session h).1⟩,
    ⟨htidy.numbered, htidy.entered⟩, ?_⟩
  rintro before later rfl session hle hnot
  have hended : (core.run fresh before).1.Ended session := ⟨hle, hnot⟩
  show session ∉ (core.run fresh (before ++ later)).1.entered.map (·.session)
  rw [Link.Core.run_append]
  exact (hended.run later).2

/-- Two sessions of a connection that fails, of which the first has ended by then, and two of the next connection. -/
def reconnected : List (Surroundings × Task) :=
  [.up, .accepted 1 20 default, .accepted 1 21 default, .sessionClosed 1 1 (.ok false), .listenerFailed 1 default,
    .drained .detaching, .drained .draining, .drained .releasing, .reconnectDue, .accepted 2 22 default,
    .accepted 2 23 default].map fun task => (⟨0, fun _ => .ok (1, 2)⟩, task)

/-- The second session reports late, and of its successors one fails and says so twice. -/
def lateReports : List (Surroundings × Task) :=
  [.sessionClosed 1 2 (.ok false), .sessionState 2 4 .sending, .sessionClosed 2 3 (.error .closedBeforeLogin),
    .sessionState 2 2 .disconnect, .sessionClosed 2 3 (.error .closedBeforeLogin)].map
      fun task => (⟨1, fun _ => .ok (1, 2)⟩, task)

theorem isolates_lateReports :
    let channel : Channel := .new "md1" ⟨⟨10, 0, 0, 1⟩, 9000⟩ ⟨⟨239, 1, 1, 1⟩, 9000⟩ ⟨⟨10, 0, 0, 3⟩, 9000⟩
    let fresh := (new channel .default).1
    let l := (core.run fresh reconnected).1
    let l' := (core.run l lateReports).1
    (∀ r ∈ lateReports, r.2.about?.isSome = true) ∧ l.connection = l'.connection.map (fun c => { c with
        sessions := [⟨3, default, .login⟩, ⟨4, default, .login⟩] }) ∧
      l'.connection.map (·.sessions) = some [⟨4, default, .sending⟩] ∧ (core.run l lateReports).2.length = 1 ∧
        fresh.alerted (reconnected ++ lateReports) = [1, 3] ∧ { l' with connection := l.connection } = l := by
  intro channel fresh l l'
  have hreports : ∀ r ∈ lateReports, r.2.about?.isSome = true := by decide
  obtain ⟨⟨hafter, -⟩, -⟩ := isolates channel .default reconnected lateReports hreports
  refine ⟨hreports, by decide +kernel, by decide +kernel, by decide +kernel, by decide +kernel, ?_⟩
  show { (core.run l lateReports).1 with connection := l.connection } = l
  rw [hafter]

end ReliableMulticast.PublisherLink
