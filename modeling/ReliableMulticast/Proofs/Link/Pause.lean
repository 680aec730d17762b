import ReliableMulticast.Proofs.Publisher.Course
import ReliableMulticast.Proofs.Subscriber.Course

/-!
# The pause before a reconnect

A link that reconnects, but not at once, pauses in the state `reconnectPending`, and its next attempt is due when the pause
is over. `up` may cut the pause short and leaves the deadline behind, which then comes in any other state, also while the
link reconnects again.

`Armed` relates the deadline to the state, through all that a task does: a link that pauses has just come to it, with its
deadline still to be set, or else the deadline is one pause after it came to it. So a deadline that was left behind is never
that of a later pause.

Main statement (`Link.pauses`): in all runs of a new link of either kind, with a timer that rings when a deadline has come,
at most `lag` late, a pause ends with its own deadline unless the operator ends it; a deadline that was left behind does
nothing; and a link that reconnects at once does not pause.
-/

namespace ReliableMulticast

namespace Link

/-! ### The deadline of a pause -/

/-- Whether a reconnect is immediate is settled by the failure that is counted for it. -/
def Machine.haste (m : Machine) : Input → Bool
  | .reconnect immediate => if m.state = .connecting ∨ m.state = .up then immediate else m.immediate
  | _ => m.immediate

theorem immediate_step (m : Machine) (input : Input) : (m.step input).1.immediate = m.haste input := by
  obtain ⟨state, reconnects, immediate, begun⟩ := m
  rcases input with _ | _ | _ | _ | i | _ | _ | (_ | _) <;> cases state <;> cases begun <;> rfl

/-- A machine comes to a pause from a disconnect, and asks for the next attempt to be scheduled. -/
theorem Machine.scheduled_of_pending {m : Machine} {input : Input} (h : (m.step input).1.state = .reconnectPending)
    (hne : m.state ≠ .reconnectPending) :
    input = .disconnected ∧ (m.step input).2 = .scheduleReconnect (m.step input).1.immediate := by
  have htransition := m.transition input
  generalize (m.step input).1 = m', (m.step input).2 = action at htransition h ⊢
  cases htransition with
  | schedule => exact ⟨rfl, rfl⟩
  | retire hrest => rcases hrest with ⟨-, rfl⟩ | ⟨-, rfl⟩ <;> cases h
  | stay => exact absurd h hne
  | begin => exact absurd h hne
  | _ => cases h

/-- An input that leaves the machine in its pause asks for nothing. -/
theorem Machine.step_of_pending {m : Machine} {input : Input} (h : (m.step input).1.state = .reconnectPending)
    (hpending : m.state = .reconnectPending) : m.step input = (m, .none) := by
  have htransition := m.transition input
  rcases hstep : m.step input with ⟨m', action⟩
  rw [hstep] at htransition h
  cases htransition with
  | stay => rfl
  | schedule hstate => exact absurd (hpending.symm.trans hstate) nofun
  | begin hstate => exact absurd (hpending.symm.trans hstate) nofun
  | retire hrest => rcases hrest with ⟨-, rfl⟩ | ⟨-, rfl⟩ <;> cases h
  | _ => cases h

/-- The pause is over, or cut short. -/
theorem Machine.resumed_of_pending {m : Machine} {input : Input} (h : input = .reconnectDue ∨ input = .up)
    (hpending : m.state = .reconnectPending) : m.step input = ({ m with state := .connecting }, .connect) := by
  rcases h with rfl | rfl <;> simp [step, onReconnectDue, onUp, goTo, hpending]

section Armed

variable {E : Type} {w : Watch E} {s : Scope} {p p' : Bearing × Action} {effects : List E} {now : Instant}
  {t : Option Instant}

/-- The effect shows that the link came to a pause. -/
def Watch.halts (w : Watch E) (e : E) : Bool :=
  match w.change? e with
  | some (_, .reconnectPending) => true
  | _ => false

/-- When the link last came to a pause, after what it shows now. -/
def Watch.haltedAt (w : Watch E) (now : Instant) (t : Option Instant) (effects : List E) : Option Instant :=
  if effects.any w.halts then some now else t

theorem haltedAt_append (effects effects' : List E) :
    w.haltedAt now t (effects ++ effects') = w.haltedAt now (w.haltedAt now t effects) effects' := by
  unfold Watch.haltedAt
  rw [List.any_append]
  cases effects.any w.halts <;> cases effects'.any w.halts <;> rfl

theorem haltedAt_of_silent (h : w.Silent effects) : w.haltedAt now t effects = t := by
  unfold Watch.haltedAt
  rw [if_neg]
  simp only [List.any_eq_true, not_exists, not_and]
  intro e he
  simp [Watch.halts, (h e he).2]

theorem haltedAt_of_shows {old new : State} (h : w.Shows old effects new) (hnew : new = .reconnectPending)
    (hne : old ≠ .reconnectPending) : w.haltedAt now t effects = some now := by
  subst hnew
  cases h with
  | same => exact absurd rfl hne
  | change _ _ hchange => simp [Watch.haltedAt, Watch.halts, hchange]

/-- A link that pauses has its deadline still to be set, or else the deadline is one pause after it came to it. -/
def Armed (now : Instant) (t : Option Instant) (p : Bearing × Action) : Prop :=
  p.1.machine.state = .reconnectPending →
    (p.2 = .scheduleReconnect p.1.machine.immediate ∧ t = some now) ∨
      (p.2 = .none ∧ p.1.machine.immediate = false ∧ ∃ halted, t = some halted ∧
        p.1.reconnectAt = some (halted + p.1.pause))

/-- A link with something else to carry out does not pause. -/
theorem Armed.not_pending {b : Bearing} {a : Action} (h : Armed now t (b, a)) (hnone : a ≠ .none)
    (hscheduled : ∀ immediate, a ≠ .scheduleReconnect immediate) : b.machine.state ≠ .reconnectPending := by
  intro hpending
  rcases h hpending with ⟨hwas, -⟩ | ⟨hwas, -⟩
  · exact hscheduled _ hwas
  · exact hnone hwas

theorem Armed.fed {b : Bearing} {a : Action} {input : Input} (h : Armed now t (b, a))
    (hprompts : Prompts s b.channel a input) (hshows : w.Shows b.machine.state effects (b.machine.step input).1.state) :
    Armed now (w.haltedAt now t effects) (b.fed input) := by
  intro hpending
  have hpending : (b.machine.step input).1.state = .reconnectPending := hpending
  by_cases hwas : b.machine.state = .reconnectPending
  · -- the machine stays in its pause, and nothing was to be carried out
    have hstep := Machine.step_of_pending hpending hwas
    have heffects : effects = [] := by
      rw [hpending, hwas] at hshows
      cases hshows with
      | same => rfl
      | change hne => exact absurd rfl hne
    subst heffects
    rcases h hwas with ⟨hscheduled, -⟩ | ⟨hnone, harmed⟩
    · dsimp only at hscheduled
      subst hscheduled
      generalize b.machine.immediate = immediate at hprompts
      cases hprompts
      rw [Machine.resumed_of_pending (Or.inl rfl) hwas] at hpending
      cases hpending
    · have hfed : b.fed input = (b, .none) := by
        unfold Bearing.fed
        rw [hstep]
      rw [hfed]
      exact Or.inr ⟨rfl, harmed⟩
  · rw [haltedAt_of_shows hshows hpending hwas]
    exact Or.inl ⟨(Machine.scheduled_of_pending hpending hwas).2, rfl⟩

theorem Leg.armed (h : Leg w s p effects p') (htime : ∀ time, s.time time → time = now) (hp : Armed now t p) :
    Armed now (w.haltedAt now t effects) p' := by
  cases h with
  | aside hsilent =>
    rw [haltedAt_of_silent hsilent]
    exact hp
  | rename => exact hp
  | feed hprompts hshows => exact hp.fed hprompts hshows
  | @ring b _ _ hshows =>
    intro hpending
    have hpending : (b.machine.step .reconnectDue).1.state = .reconnectPending := hpending
    by_cases hwas : b.machine.state = .reconnectPending
    · rw [Machine.resumed_of_pending (Or.inl rfl) hwas] at hpending
      cases hpending
    · cases (Machine.scheduled_of_pending hpending hwas).1
  | launch => exact fun hpending => absurd hpending (hp.not_pending nofun nofun)
  | begin => exact fun hpending => absurd hpending (hp.not_pending nofun nofun)
  | putOff hnow =>
    intro hpending
    rcases hp hpending with ⟨hscheduled, ht⟩ | ⟨hnone, -⟩
    · obtain rfl := htime _ hnow
      exact Or.inr ⟨rfl, (Action.scheduleReconnect.inj hscheduled).symm, _, ht, rfl⟩
    · cases hnone
  | cancel => exact fun hpending => absurd hpending (hp.not_pending nofun nofun)

theorem Course.armed (h : Course w s p effects p') (htime : ∀ time, s.time time → time = now) (hp : Armed now t p) :
    Armed now (w.haltedAt now t effects) p' := by
  induction h generalizing t with
  | refl p => exact hp
  | step first _ ih =>
    rw [haltedAt_append]
    exact ih (first.armed htime hp)

theorem Course.pause_eq (h : Course w s p effects p') : p'.1.pause = p.1.pause := by
  induction h with
  | refl p => rfl
  | step first _ ih =>
    refine ih.trans ?_
    cases first <;> rfl

end Armed

/-! ### What ends a pause -/

/-- Tasks with which the operator ends a pause. -/
def Kind.Ends (k : Kind) : Prop := k = .up ∨ k = .down ∨ k.Updates fun c => c.enabled = false ∨ c.fault? ≠ none

section Stays

variable {E : Type} {w : Watch E} {k : Kind} {m : Machine} {now : Instant} {p p' : Bearing × Action} {effects : List E}

/-- What a task that does not end a pause may feed. -/
theorem Kind.Feeds.of_not_ends {input : Input} (h : k.Feeds m input) (hk : ¬k.Ends) :
    input.IsReport ∨ ((input = .up ∨ input = .enable true) ∧ m.AtRest) := by
  rcases input with _ | _ | _ | _ | i | _ | _ | (_ | _)
  · rcases h with h | ⟨hrest, -⟩
    · exact absurd (Or.inl h) hk
    · exact Or.inr ⟨Or.inl rfl, hrest⟩
  · exact absurd (Or.inr (Or.inl h)) hk
  · exact Or.inl trivial
  · exact Or.inl trivial
  · exact Or.inl trivial
  · exact Or.inl trivial
  · obtain ⟨c, hc, hfault⟩ := h
    exact absurd (Or.inr (Or.inr ⟨c, hc, Or.inr hfault⟩)) hk
  · obtain ⟨c, hc, hdisabled⟩ := h
    exact absurd (Or.inr (Or.inr ⟨c, hc, Or.inl hdisabled⟩)) hk
  · exact Or.inr ⟨Or.inr rfl, h.1⟩

theorem Machine.step_report_of_pending {m : Machine} {input : Input} (h : input.IsReport) (hne : input ≠ .reconnectDue)
    (hpending : m.state = .reconnectPending) : m.step input = (m, .none) := by
  cases input with
  | connected => simp [step, onConnected, stay, hpending]
  | disconnected => simp [step, onDisconnected, stay, hpending]
  | reconnect immediate => simp [step, onReconnect, stay, hpending]
  | reconnectDue => exact absurd rfl hne
  | up => exact h.elim
  | down => exact h.elim
  | failed => exact h.elim
  | enable enabled => exact h.elim

theorem Leg.stays (h : Leg w (k.scope m now) p effects p') (hk : ¬k.Ends) (hring : k ≠ .ring)
    (hm : m.state = .reconnectPending) (hpending : p.1.machine.state = .reconnectPending) (hnone : p.2 = .none) :
    p' = p ∧ w.Silent effects := by
  cases h with
  | aside hsilent => exact ⟨rfl, hsilent⟩
  | rename hrenames => exact hrenames.elim
  | @feed b a input _ hprompts hshows =>
    obtain rfl : a = .none := hnone
    cases hprompts with
    | task hfeeds hne =>
      rcases Kind.Feeds.of_not_ends hfeeds hk with hreport | ⟨-, hrest⟩
      · have hstep := Machine.step_report_of_pending hreport hne hpending
        rw [hstep] at hshows
        refine ⟨by rw [Bearing.fed, hstep], ?_⟩
        generalize hold : b.machine.state = old at hshows
        cases hshows with
        | same => simp [Watch.Silent]
        | change hne => exact absurd rfl hne
      · simp [Machine.AtRest, hm] at hrest
  | ring hfeeds => exact absurd hfeeds hring
  | launch => cases hnone
  | begin => cases hnone
  | putOff => cases hnone
  | cancel => cases hnone

/-- Nothing but the timer and the operator ends a pause. -/
theorem Course.stays (h : Course w (k.scope m now) p effects p') (hk : ¬k.Ends) (hring : k ≠ .ring)
    (hm : m.state = .reconnectPending) (hpending : p.1.machine.state = .reconnectPending) (hnone : p.2 = .none) :
    p' = p ∧ w.Silent effects := by
  induction h with
  | refl p => exact ⟨rfl, by simp [Watch.Silent]⟩
  | step first _ ih =>
    obtain ⟨rfl, hsilent⟩ := first.stays hk hring hm hpending hnone
    obtain ⟨rfl, hmore⟩ := ih hpending hnone
    exact ⟨rfl, hsilent.append hmore⟩

/-! ### Reconnects without a pause -/

/-- A link that pauses, or has its next attempt to make. -/
def Bound (p : Bearing × Action) : Prop :=
  p.2 = .connect ∨
    (p.1.machine.state = .reconnectPending ∧ (p.2 = .none ∨ ∃ immediate, p.2 = .scheduleReconnect immediate))

theorem Bound.fed {b : Bearing} {a : Action} {input : Input} (h : Bound (b, a))
    (hprompts : Prompts (k.scope m now) b.channel a input) (hk : ¬k.Ends) (hvalid : b.channel.fault? = none) :
    Bound (b.fed input) := by
  rcases h with hconnect | ⟨hpending, hnone | ⟨immediate, hscheduled⟩⟩
  · dsimp only at hconnect
    subst hconnect
    cases hprompts with
    | rejected hfault =>
      rw [hvalid] at hfault
      cases hfault
  · dsimp only at hnone hpending
    subst hnone
    cases hprompts with
    | task hfeeds hne =>
      rcases Kind.Feeds.of_not_ends hfeeds hk with hreport | ⟨rfl | rfl, -⟩
      · rw [Bearing.fed, Machine.step_report_of_pending hreport hne hpending]
        exact Or.inr ⟨hpending, Or.inl rfl⟩
      · rw [Bearing.fed, Machine.resumed_of_pending (Or.inr rfl) hpending]
        exact Or.inl rfl
      · have hstep : b.machine.step (.enable true) = (b.machine, .none) := by
          simp [Machine.step, Machine.onEnable, Machine.stay, hpending]
        rw [Bearing.fed, hstep]
        exact Or.inr ⟨hpending, Or.inl rfl⟩
  · dsimp only at hscheduled hpending
    subst hscheduled
    cases hprompts
    rw [Bearing.fed, Machine.resumed_of_pending (Or.inl rfl) hpending]
    exact Or.inl rfl

theorem Leg.bound (h : Leg w (k.scope m now) p effects p') (hk : ¬k.Ends) (hvalid : p.1.channel.fault? = none)
    (hidle : ∀ e ∈ effects, w.attempt e = false) (hp : Bound p) : Bound p' := by
  cases h with
  | aside => exact hp
  | rename hrenames => exact hrenames.elim
  | feed hprompts => exact hp.fed hprompts hk hvalid
  | @ring b =>
    rcases hp with hconnect | ⟨hpending, -⟩
    · cases hconnect
    · refine Or.inl ?_
      rw [Bearing.fed, Machine.resumed_of_pending (m := b.machine) (Or.inl rfl) hpending]
  | launch hattempt =>
    rw [hidle _ List.mem_cons_self] at hattempt
    cases hattempt
  | begin =>
    rcases hp with hconnect | ⟨-, hnone | ⟨immediate, hscheduled⟩⟩
    · cases hconnect
    · cases hnone
    · cases hscheduled
  | putOff =>
    rcases hp with hconnect | ⟨hpending, -⟩
    · cases hconnect
    · exact Or.inr ⟨hpending, Or.inl rfl⟩
  | cancel =>
    rcases hp with hconnect | ⟨-, hnone | ⟨immediate, hscheduled⟩⟩
    · cases hconnect
    · cases hnone
    · cases hscheduled

theorem Course.bound (h : Course w (k.scope m now) p effects p') (hk : ¬k.Ends) (hvalid : p.1.channel.fault? = none)
    (hidle : ∀ e ∈ effects, w.attempt e = false) (hp : Bound p) : Bound p' := by
  induction h with
  | refl p => exact hp
  | step first _ ih =>
    refine ih ?_ (fun e he => hidle e (List.mem_append_right _ he))
      (first.bound hk hvalid (fun e he => hidle e (List.mem_append_left _ he)) hp)
    rw [first.channel_eq fun _ => id]
    exact hvalid

theorem change_of_halts {e : E} (h : w.halts e = true) : ∃ old, w.change? e = some (old, .reconnectPending) := by
  unfold Watch.halts at h
  split at h
  · next old hchange => exact ⟨old, hchange⟩
  · cases h

/-- A link that comes to a pause schedules its next attempt. -/
theorem Leg.bound_of_halts {e : E} (h : Leg w (k.scope m now) p effects p') (heffects : effects = [e])
    (he : w.halts e = true) : Bound p' := by
  obtain ⟨old, hold⟩ := change_of_halts he
  have hfed {b : Bearing} {input : Input} (hshows : w.Shows b.machine.state effects (b.machine.step input).1.state) :
      Bound (b.fed input) := by
    obtain ⟨heq, hne⟩ := hshows.change_eq heffects hold
    obtain ⟨rfl, hpending⟩ := Prod.mk.inj heq
    refine Or.inr ⟨hpending.symm, Or.inr ⟨_, (Machine.scheduled_of_pending hpending.symm ?_).2⟩⟩
    rw [hpending]
    exact hne.symm
  cases h with
  | aside hsilent =>
    rw [(hsilent e (by simp [heffects])).2] at hold
    cases hold
  | feed _ hshows => exact hfed hshows
  | @ring b _ _ hshows => exact hfed (b := { b with reconnectAt := none }) hshows
  | @launch _ e' _ hchange _ =>
    obtain rfl : e' = e := by simpa using heffects
    rw [hchange] at hold
    cases hold
  | rename => cases heffects
  | begin => cases heffects
  | putOff => cases heffects
  | cancel => cases heffects

end Stays

/-! ### Whole runs -/

namespace Helm

variable {L Env Task E : Type} (h : Helm L Env Task E)

/-- When the link last came to a pause, at the end of a run. -/
def haltedAt (l : L) (t : Option Instant) : List (Env × Task) → Option Instant
  | [] => t
  | (env, task) :: rest =>
    haltedAt (h.step l env task).1 (h.toWatch.haltedAt (h.now env) t (h.step l env task).2) rest

/-- The timer rings when the deadline has come, and at most `lag` late: nothing else is done when it is later than that. -/
def Timed (lag : Nat) (l : L) : List (Env × Task) → Prop
  | [] => True
  | (env, task) :: rest =>
    (h.kind task = .ring → ∃ d, (h.bearing l).reconnectAt = some d ∧ d ≤ h.now env) ∧
      (∀ d, (h.bearing l).reconnectAt = some d → h.now env ≤ d + lag) ∧ Timed lag (h.step l env task).1 rest

/-- How a link pauses that is given these tasks. -/
structure Pauses (l : L) (pause lag : Nat) (tasks : List (Env × Task)) : Prop where
  /-- The deadline of a link that pauses is one pause after it came to it, by a reconnect that is not immediate. -/
  deadline : ∀ before rest, tasks = before ++ rest → h.state (h.run l before).1 = .reconnectPending →
    (h.bearing (h.run l before).1).machine.immediate = false ∧ ∃ halted, h.haltedAt l none before = some halted ∧
      (h.bearing (h.run l before).1).reconnectAt = some (halted + pause)
  /-- The timer ends a pause at its deadline, and nothing else happens later. -/
  rings : ∀ before env task rest, tasks = before ++ (env, task) :: rest → h.state (h.run l before).1 = .reconnectPending →
    ∃ halted, h.haltedAt l none before = some halted ∧ h.now env ≤ halted + pause + lag ∧
      (h.kind task = .ring → halted + pause ≤ h.now env)
  /-- Otherwise it is the operator who ends a pause. -/
  stays : ∀ before env task rest, tasks = before ++ (env, task) :: rest → h.state (h.run l before).1 = .reconnectPending →
    ¬(h.kind task).Ends → h.kind task ≠ .ring →
      h.Silent (h.step (h.run l before).1 env task).2 ∧
        h.bearing (h.step (h.run l before).1 env task).1 = (h.kind task).note (h.bearing (h.run l before).1)
  /-- A deadline that was left behind does nothing. -/
  expires : ∀ before env task rest, tasks = before ++ (env, task) :: rest → h.state (h.run l before).1 ≠ .reconnectPending →
    h.kind task = .ring → h.step (h.run l before).1 env task = (h.disarm (h.run l before).1, [])
  /-- A link that comes to a pause and does not stay in it makes an attempt in the same task. -/
  hurries : ∀ before env task rest pre e post, tasks = before ++ (env, task) :: rest → ¬(h.kind task).Ends →
    (h.step (h.run l before).1 env task).2 = pre ++ e :: post → h.halts e = true →
      (h.bearing (h.step (h.run l before).1 env task).1).channel.fault? = none →
        h.state (h.step (h.run l before).1 env task).1 = .reconnectPending ∨ ∃ e' ∈ post, h.attempt e' = true

variable {h}

theorem Lawful.armed_step (hl : h.Lawful) {l : L} {t : Option Instant} (ht : ∀ now, Armed now t (h.bearing l, .none))
    (env : Env) (task : Task) :
    ∀ now, Armed now (h.toWatch.haltedAt (h.now env) t (h.step l env task).2) (h.bearing (h.step l env task).1, .none) := by
  have hnoted : Armed (h.now env) t ((h.kind task).note (h.bearing l), .none) := by
    cases h.kind task <;> exact ht (h.now env)
  have harmed := (hl.course l env task).armed (fun time htime => htime) hnoted
  intro now hpending
  rcases harmed hpending with ⟨hscheduled, -⟩ | hrest
  · cases hscheduled
  · exact Or.inr hrest

theorem Lawful.armed_run (hl : h.Lawful) {l : L} {t : Option Instant} (ht : ∀ now, Armed now t (h.bearing l, .none))
    (tasks : List (Env × Task)) : ∀ now, Armed now (h.haltedAt l t tasks) (h.bearing (h.run l tasks).1, .none) := by
  induction tasks generalizing l t with
  | nil => exact ht
  | cons first rest ih => exact ih (hl.armed_step ht first.1 first.2)

theorem Lawful.pause_run (hl : h.Lawful) (l : L) (tasks : List (Env × Task)) :
    (h.bearing (h.run l tasks).1).pause = (h.bearing l).pause :=
  (hl.course_run l tasks).pause_eq

theorem Timed.of_append {lag : Nat} {l : L} {before : List (Env × Task)} {env : Env} {task : Task}
    {rest : List (Env × Task)} (ht : h.Timed lag l (before ++ (env, task) :: rest)) :
    h.Timed lag (h.run l before).1 ((env, task) :: rest) := by
  induction before generalizing l with
  | nil => exact ht
  | cons first others ih => exact ih ht.2.2

theorem Lawful.deadline (hl : h.Lawful) {l : L} (hnew : h.state l ≠ .reconnectPending) (before : List (Env × Task))
    (hpending : h.state (h.run l before).1 = .reconnectPending) :
    (h.bearing (h.run l before).1).machine.immediate = false ∧ ∃ halted, h.haltedAt l none before = some halted ∧
      (h.bearing (h.run l before).1).reconnectAt = some (halted + (h.bearing l).pause) := by
  have hstart : ∀ now, Armed now none (h.bearing l, .none) := fun now hwas => absurd hwas hnew
  rcases hl.armed_run hstart before 0 hpending with ⟨hscheduled, -⟩ | ⟨-, hlater, halted, hhalted, hdeadline⟩
  · cases hscheduled
  · rw [hl.pause_run l before] at hdeadline
    exact ⟨hlater, halted, hhalted, hdeadline⟩

theorem Lawful.keeps_pauses (hl : h.Lawful) {l : L} (hnew : h.state l ≠ .reconnectPending) {lag : Nat}
    {tasks : List (Env × Task)} (ht : h.Timed lag l tasks) : h.Pauses l (h.bearing l).pause lag tasks where
  deadline := fun before rest _ hpending => hl.deadline hnew before hpending
  rings := by
    rintro before env task rest rfl hpending
    obtain ⟨-, halted, hhalted, hdeadline⟩ := hl.deadline hnew before hpending
    obtain ⟨hring, hlate, -⟩ := ht.of_append
    refine ⟨halted, hhalted, hlate _ hdeadline, fun hkind => ?_⟩
    obtain ⟨d, hd, hle⟩ := hring hkind
    rw [hdeadline] at hd
    obtain rfl := Option.some.inj hd
    exact hle
  stays := by
    rintro before env task rest - hpending hends hring
    have hcourse := hl.course (h.run l before).1 env task
    have hnoted : ((h.kind task).note (h.bearing (h.run l before).1)).machine.state = .reconnectPending := by
      rw [Kind.note_machine]
      exact hpending
    obtain ⟨heq, hsilent⟩ := hcourse.stays hends hring hpending hnoted rfl
    exact ⟨hsilent, congrArg Prod.fst heq⟩
  expires := fun before env task rest _ hstate hring => hl.expires _ env task hring hstate
  hurries := by
    rintro before env task rest pre e post - hends heffects he hvalid
    have hcourse := hl.course (h.run l before).1 env task
    rw [heffects] at hcourse
    obtain ⟨old, hold⟩ := change_of_halts he
    obtain ⟨q, q', -, hleg, hafter⟩ := Course.cut hcourse (by simp [hold])
    by_cases hattempt : ∃ e' ∈ post, h.attempt e' = true
    · exact Or.inr hattempt
    · have hidle : ∀ e' ∈ post, h.attempt e' = false := fun e' he' => by simpa using fun htrue => hattempt ⟨e', he', htrue⟩
      have hchannel : q'.1.channel.fault? = none := by
        rw [← hafter.channel_eq fun _ => id]
        exact hvalid
      rcases hafter.bound hends hchannel hidle (hleg.bound_of_halts rfl he) with hconnect | ⟨hpending, -⟩
      · cases hconnect
      · exact Or.inl hpending

instance decidableTimed (lag : Nat) (l : L) : (tasks : List (Env × Task)) → Decidable (h.Timed lag l tasks)
  | [] => isTrue trivial
  | (env, task) :: rest =>
    have : Decidable (h.Timed lag (h.step l env task).1 rest) := decidableTimed lag _ rest
    have hdecide (p : Instant → Prop) [DecidablePred p] : Decidable (∃ d, (h.bearing l).reconnectAt = some d ∧ p d) :=
      decidable_of_iff ((h.bearing l).reconnectAt.any p = true) (by simp [Option.any_eq_true])
    inferInstanceAs (Decidable (_ ∧ (∀ d, (h.bearing l).reconnectAt = some d → _) ∧ _))

end Helm

end Link

/-! ### New links -/

theorem Link.Machine.new_ne_pending (enabled : Bool) :
    (Machine.new enabled).state ≠ .reconnectPending ∧ ((Machine.new enabled).step .failed).1.state ≠ .reconnectPending := by
  cases enabled <;> decide

theorem SubscriberLink.rests_new (channel : Channel) (settings : Settings) :
    helm.state (new channel settings).1 ≠ .reconnectPending ∧
      (helm.bearing (new channel settings).1).pause = settings.reconnectInterval.nanos := by
  unfold new
  dsimp only
  split
  · exact ⟨(Link.Machine.new_ne_pending channel.enabled).2, rfl⟩
  · exact ⟨(Link.Machine.new_ne_pending channel.enabled).1, rfl⟩

theorem PublisherLink.rests_new (channel : Channel) (settings : Settings) :
    helm.state (new channel settings).1 ≠ .reconnectPending ∧
      (helm.bearing (new channel settings).1).pause = settings.reconnectInterval.nanos := by
  unfold new
  dsimp only
  split
  · exact ⟨(Link.Machine.new_ne_pending channel.enabled).2, rfl⟩
  · exact ⟨(Link.Machine.new_ne_pending channel.enabled).1, rfl⟩

/-- **Reconnects.** In every run of a new link, of either kind, with a timer that rings at most `lag` late: while the link
pauses, its deadline is one pause after it came to it, and only then the timer ends it, unless the operator does so by `up`,
`down`, or a channel that is disabled or has a fault. A deadline that a pause that was cut short has left behind does
nothing, and has no part in a later pause. A link that reconnects at once does not pause, whether it is to do so being
settled by the failure that is counted. -/
theorem Link.pauses (channel : Channel) (settings : Settings) (lag : Nat) :
    (∀ tasks, SubscriberLink.helm.Timed lag (SubscriberLink.new channel settings).1 tasks →
      SubscriberLink.helm.Pauses (SubscriberLink.new channel settings).1 settings.reconnectInterval.nanos lag tasks) ∧
    (∀ tasks, PublisherLink.helm.Timed lag (PublisherLink.new channel settings).1 tasks →
      PublisherLink.helm.Pauses (PublisherLink.new channel settings).1 settings.reconnectInterval.nanos lag tasks) ∧
    ∀ (m : Machine) input, (m.step input).1.immediate = m.haste input := by
  refine ⟨fun tasks ht => ?_, fun tasks ht => ?_, immediate_step⟩
  · obtain ⟨hnew, hpause⟩ := SubscriberLink.rests_new channel settings
    rw [← hpause]
    exact SubscriberLink.lawful_helm.keeps_pauses hnew ht
  · obtain ⟨hnew, hpause⟩ := PublisherLink.rests_new channel settings
    rw [← hpause]
    exact PublisherLink.lawful_helm.keeps_pauses hnew ht

def Link.resuming : Channel :=
  .new "md1" ⟨⟨10, 0, 0, 1⟩, 9000⟩ ⟨⟨239, 1, 1, 1⟩, 9001⟩ ⟨⟨10, 0, 0, 3⟩, 9002⟩

/-- A pause from 1 s on is cut short at 2 s, and its deadline is left behind for 11 s. Another pause follows at 10 s. -/
def SubscriberLink.cutShort : List (Surroundings × Task) :=
  [(0, .up), (1, .tcpClosed 1 none), (2, .up), (10, .tcpClosed 2 none), (20, .reconnectDue)].map
    fun (seconds, task) => (⟨seconds * 1000000000, fun _ => .ok 1⟩, task)

/-- The same of a publisher, which pauses only when the transmitter has been drained three times. -/
def PublisherLink.cutShort : List (Surroundings × Task) :=
  [(0, .up), (0, .listenerFailed 1 default), (0, .drained .detaching), (0, .drained .draining), (1, .drained .releasing),
    (2, .up), (9, .listenerFailed 2 default), (9, .drained .detaching), (9, .drained .draining), (10, .drained .releasing),
    (20, .reconnectDue)].map fun (seconds, task) => (⟨seconds * 1000000000, fun _ => .ok (1, 2)⟩, task)

/-- A link of either kind that pauses again does so for its own time, whatever deadline was left behind. -/
theorem Link.pauses_cut_short :
    (let l := (SubscriberLink.new resuming .default).1
      let helm := SubscriberLink.helm
      helm.Timed 0 l SubscriberLink.cutShort ∧ helm.Pauses l 10000000000 0 SubscriberLink.cutShort ∧
        (helm.run l (SubscriberLink.cutShort.take 3)).1.reconnectAt = some 11000000000 ∧
        (helm.run l (SubscriberLink.cutShort.take 4)).1.reconnectAt = some 20000000000 ∧
        (helm.run l SubscriberLink.cutShort).1.state = .connecting) ∧
      let l := (PublisherLink.new resuming .default).1
      let helm := PublisherLink.helm
      helm.Timed 0 l PublisherLink.cutShort ∧ helm.Pauses l 10000000000 0 PublisherLink.cutShort ∧
        (helm.run l (PublisherLink.cutShort.take 5)).1.state = .reconnectPending ∧
        (helm.run l (PublisherLink.cutShort.take 6)).1.state = .up ∧
        (helm.run l (PublisherLink.cutShort.take 6)).1.reconnectAt = some 11000000000 ∧
        (helm.run l (PublisherLink.cutShort.take 10)).1.state = .reconnectPending ∧
        (helm.run l (PublisherLink.cutShort.take 10)).1.reconnectAt = some 20000000000 ∧
        (helm.run l PublisherLink.cutShort).1.state = .up := by
  obtain ⟨hsubscriber, hpublisher, -⟩ := pauses resuming .default 0
  refine ⟨?_, ?_⟩
  · intro l helm
    have htimed : helm.Timed 0 l SubscriberLink.cutShort := by decide +kernel
    exact ⟨htimed, hsubscriber _ htimed, by decide +kernel, by decide +kernel, by decide +kernel⟩
  · intro l helm
    have htimed : helm.Timed 0 l PublisherLink.cutShort := by decide +kernel
    exact ⟨htimed, hpublisher _ htimed, by decide +kernel, by decide +kernel, by decide +kernel, by decide +kernel,
      by decide +kernel, by decide +kernel⟩

end ReliableMulticast
