import ReliableMulticast.Proofs.Publisher.Course
import ReliableMulticast.Proofs.Subscriber.Course

/-!
# The end of a link's actions

The outcome of an action is fed to the machine, whose answer is the next action: a disconnect may lead to the next attempt,
this one to a failure, and the failure to a disconnect. That this is no circle lies in the states that a failure leads to
(`Orderly`). A subscriber's attempt can fail within the loop only for good, and from there no disconnect leads on. A
publisher's may fail for a while, but its disconnect takes longer than the loop.

`loop` carries out actions without a limit to how many follow from one another, and each of them meets surroundings of its
own, so that every attempt may come out as it likes. Its fuel is the number of actions that are looked at.

Main statement (`actions_end`): from any state of a link of either kind, and for any action that it starts with, the loop
comes to its end after a few actions (`Halts`). There is one attempt among them at most, as there is in all of a task. A
subscriber may need as many as four actions (`done_of_fault`).
-/

namespace ReliableMulticast.Link

/-! ### The loop -/

/-- How far a loop has come. -/
structure Standing (L E : Type) where
  link : L
  /-- What is to be carried out next. -/
  next : Action
  /-- What was carried out. -/
  done : List Action
  effects : List E

/-- How a link of some kind carries out an action. The last part of the answer is the action that follows from it. -/
abbrev Performance (L Env E : Type) := L → Env → Action → L × List E × Action

variable {L Env E T : Type}

/-- Carries out an action and those that follow from it, up to a number of them. -/
def loop (perform : Performance L Env E) (envs : Nat → Env) : Nat → L → Action → Standing L E
  | 0, l, action => ⟨l, action, [], []⟩
  | _ + 1, l, .none => ⟨l, .none, [], []⟩
  | n + 1, l, action =>
    let (l, effects, next) := perform l (envs 0) action
    let rest := loop perform (fun i => envs (i + 1)) n l next
    { rest with done := action :: rest.done, effects := effects ++ rest.effects }

/-- The actions that clean up after an attempt that failed. -/
def Action.CleansUp (a : Action) : Prop := a = .disconnect ∨ a = .cancelReconnect

/-- Actions that follow from one another: what releases a connection, the wait for the next attempt, that attempt, and what
cleans up after its failure. Any of them may be missing, and none leads back to where it came from. -/
def Line (done : List Action) : Prop :=
  ∃ immediate last, last.CleansUp ∧ done.Sublist [.disconnect, .scheduleReconnect immediate, .connect, last]

/-- However its actions come out, a link comes to their end. -/
structure Halts (perform : Performance L Env E) (act : Env → Nat → L → Action → L × List E)
    (onTask : L → Env → T → L × List E) (attempt : E → Bool) (most limit : Nat) : Prop where
  /-- After so many actions there is nothing more to carry out. -/
  ends : ∀ envs l action, (loop perform envs most l action).next = .none
  line : ∀ envs n l action, Line (loop perform envs n l action).done
  /-- Nothing is left out for lack of fuel. -/
  whole : ∀ env n l action, most ≤ n → act env n l action =
    ((loop perform (fun _ => env) most l action).link, (loop perform (fun _ => env) most l action).effects)
  within : most ≤ limit
  /-- A task makes one attempt at most. -/
  once : ∀ l env task, (onTask l env task).2.countP attempt ≤ 1

/-! ### Orderly links -/

/-- What the actions of a link answer with. -/
structure Orderly (perform : Performance L Env E) (attempt : E → Bool) (Ended : L → Prop) : Prop where
  connect : ∀ l env, (perform l env .connect).2.2 = .none ∨ (perform l env .connect).2.2 = .cancelReconnect ∨
    (perform l env .connect).2.2 = .disconnect ∧ Ended (perform l env .connect).1
  disconnect : ∀ l env, (perform l env .disconnect).2.2 = .none ∨ (perform l env .disconnect).2.2 = .connect ∨
    ∃ immediate, (perform l env .disconnect).2.2 = .scheduleReconnect immediate
  /-- Where an attempt that failed leaves a link, no disconnect leads on. -/
  ended : ∀ l env, Ended l → (perform l env .disconnect).2.2 = .none
  schedule : ∀ l env immediate, (perform l env (.scheduleReconnect immediate)).2.2 = .none ∨
    (perform l env (.scheduleReconnect immediate)).2.2 = .connect
  cancel : ∀ l env, (perform l env .cancelReconnect).2.2 = .none
  attempts : ∀ l env action, (perform l env action).2.1.countP attempt ≤ [action].count .connect

section Loop

variable {perform : Performance L Env E} {attempt : E → Bool} {Ended : L → Prop} {envs : Nat → Env} {n : Nat} {l : L}
  {action : Action}

theorem loop_none (envs : Nat → Env) (n : Nat) (l : L) : loop perform envs n l .none = ⟨l, .none, [], []⟩ := by
  cases n <;> rfl

theorem loop_succ (ha : action ≠ .none) :
    loop perform envs (n + 1) l action =
      let rest := loop perform (fun i => envs (i + 1)) n (perform l (envs 0) action).1 (perform l (envs 0) action).2.2
      { rest with done := action :: rest.done, effects := (perform l (envs 0) action).2.1 ++ rest.effects } := by
  cases action <;> first | exact absurd rfl ha | rfl

/-- A loop ends if every action leaves less to do than there was. -/
theorem loop_ends (left : L → Action → Nat)
    (hless : ∀ l env action, action ≠ .none → left (perform l env action).1 (perform l env action).2.2 < left l action)
    (envs : Nat → Env) (hleft : left l action ≤ n) : (loop perform envs n l action).next = .none := by
  induction n generalizing envs l action with
  | zero =>
    by_contra ha
    have hstep := hless l (envs 0) action ha
    omega
  | succ n ih =>
    by_cases ha : action = .none
    · rw [ha, loop_none]
    · have hstep := hless l (envs 0) action ha
      rw [loop_succ ha]
      exact ih _ (by omega)

/-- A loop that has come to its end stays as it is. -/
theorem loop_of_le {m : Nat} (hend : (loop perform envs m l action).next = .none) (hle : m ≤ n) :
    loop perform envs n l action = loop perform envs m l action := by
  induction m generalizing envs n l action with
  | zero =>
    have hnone : action = .none := hend
    rw [hnone, loop_none, loop_none]
  | succ m ih =>
    by_cases ha : action = .none
    · rw [ha, loop_none, loop_none]
    · obtain ⟨k, rfl⟩ : ∃ k, n = k + 1 := ⟨n - 1, by omega⟩
      rw [loop_succ ha] at hend
      rw [loop_succ ha, loop_succ ha, ih hend (by omega)]

/-- Actions with a limit to their number are a loop in surroundings that stay the same. -/
theorem act_eq_loop {act : Env → Nat → L → Action → L × List E} {env : Env}
    (hzero : ∀ l action, act env 0 l action = (l, [])) (hnone : ∀ n l, act env n l .none = (l, []))
    (hsucc : ∀ n l action, action ≠ .none → act env (n + 1) l action =
      ((act env n (perform l env action).1 (perform l env action).2.2).1,
        (perform l env action).2.1 ++ (act env n (perform l env action).1 (perform l env action).2.2).2)) :
    act env n l action =
      ((loop perform (fun _ => env) n l action).link, (loop perform (fun _ => env) n l action).effects) := by
  induction n generalizing l action with
  | zero => exact hzero l action
  | succ n ih =>
    by_cases ha : action = .none
    · rw [ha, loop_none, hnone]
    · rw [hsucc n l action ha, loop_succ ha, ih]

/-! ### What follows from an action -/

theorem done_none : (loop perform envs n l .none).done = [] := by rw [loop_none]

/-- An action is carried out before those that follow from it. -/
theorem done_cons {rest : List Action}
    (h : ∀ n, (loop perform (fun i => envs (i + 1)) n (perform l (envs 0) action).1
      (perform l (envs 0) action).2.2).done.Sublist rest) :
    (loop perform envs n l action).done.Sublist (action :: rest) := by
  by_cases ha : action = .none
  · rw [ha, done_none]
    exact List.nil_sublist _
  cases n with
  | zero => exact List.nil_sublist _
  | succ n =>
    rw [loop_succ ha]
    exact (h n).cons_cons action

/-- Nothing follows from an action that answers with none. -/
theorem done_single (h : (perform l (envs 0) action).2.2 = .none) :
    (loop perform envs n l action).done.Sublist [action] := by
  refine done_cons fun n => ?_
  rw [h, done_none]

namespace Orderly

variable (h : Orderly perform attempt Ended)

include h

theorem done_connect (envs : Nat → Env) (l : L) : ∃ last : Action, last.CleansUp ∧
    ∀ n, (loop perform envs n l .connect).done.Sublist [.connect, last] := by
  rcases h.connect l (envs 0) with hnext | hnext | ⟨hnext, hended⟩
  · exact ⟨.disconnect, Or.inl rfl, fun n => (done_single hnext).trans ((List.nil_sublist _).cons_cons _)⟩
  · refine ⟨.cancelReconnect, Or.inr rfl, fun n => done_cons fun n => ?_⟩
    rw [hnext]
    exact done_single (h.cancel _ _)
  · refine ⟨.disconnect, Or.inl rfl, fun n => done_cons fun n => ?_⟩
    rw [hnext]
    exact done_single (h.ended _ _ hended)

theorem done_schedule (envs : Nat → Env) (l : L) (immediate : Bool) : ∃ last : Action, last.CleansUp ∧ ∀ n,
    (loop perform envs n l (.scheduleReconnect immediate)).done.Sublist [.scheduleReconnect immediate, .connect, last] := by
  rcases h.schedule l (envs 0) immediate with hnext | hnext
  · exact ⟨.disconnect, Or.inl rfl, fun n => (done_single hnext).trans ((List.nil_sublist _).cons_cons _)⟩
  · obtain ⟨last, hlast, hdone⟩ :=
      h.done_connect (fun i => envs (i + 1)) (perform l (envs 0) (.scheduleReconnect immediate)).1
    refine ⟨last, hlast, fun n => done_cons fun n => ?_⟩
    rw [hnext]
    exact hdone n

theorem done_disconnect (envs : Nat → Env) (l : L) : ∃ immediate, ∃ last : Action, last.CleansUp ∧ ∀ n,
    (loop perform envs n l .disconnect).done.Sublist [.disconnect, .scheduleReconnect immediate, .connect, last] := by
  rcases h.disconnect l (envs 0) with hnext | hnext | ⟨immediate, hnext⟩
  · exact ⟨false, .disconnect, Or.inl rfl, fun n => (done_single hnext).trans ((List.nil_sublist _).cons_cons _)⟩
  · obtain ⟨last, hlast, hdone⟩ := h.done_connect (fun i => envs (i + 1)) (perform l (envs 0) .disconnect).1
    refine ⟨false, last, hlast, fun n => done_cons fun n => ?_⟩
    rw [hnext]
    exact (hdone n).cons _
  · obtain ⟨last, hlast, hdone⟩ := h.done_schedule (fun i => envs (i + 1)) (perform l (envs 0) .disconnect).1 immediate
    refine ⟨immediate, last, hlast, fun n => done_cons fun n => ?_⟩
    rw [hnext]
    exact hdone n

/-- Whatever a loop starts with, it comes somewhere into the line of a disconnect. -/
theorem line (envs : Nat → Env) (n : Nat) (l : L) (action : Action) : Line (loop perform envs n l action).done := by
  cases action with
  | none => exact ⟨false, .disconnect, Or.inl rfl, by rw [done_none]; exact List.nil_sublist _⟩
  | connect =>
    obtain ⟨last, hlast, hdone⟩ := h.done_connect envs l
    exact ⟨false, last, hlast, ((hdone n).cons _).cons _⟩
  | disconnect =>
    obtain ⟨immediate, last, hlast, hdone⟩ := h.done_disconnect envs l
    exact ⟨immediate, last, hlast, hdone n⟩
  | scheduleReconnect immediate =>
    obtain ⟨last, hlast, hdone⟩ := h.done_schedule envs l immediate
    exact ⟨immediate, last, hlast, (hdone n).cons _⟩
  | cancelReconnect =>
    exact ⟨false, .cancelReconnect, Or.inr rfl, (((done_single (h.cancel l (envs 0))).cons _).cons _).cons _⟩

/-- Attempts are made by carrying out a connect, each by its own. -/
theorem countP_effects (envs : Nat → Env) (n : Nat) (l : L) (action : Action) :
    (loop perform envs n l action).effects.countP attempt ≤ (loop perform envs n l action).done.count .connect := by
  induction n generalizing envs l action with
  | zero => exact Nat.le_refl 0
  | succ n ih =>
    by_cases ha : action = .none
    · rw [ha, loop_none]
      exact Nat.le_refl 0
    · rw [loop_succ ha]
      dsimp only
      rw [List.countP_append, ← List.singleton_append, List.count_append]
      exact Nat.add_le_add (h.attempts l (envs 0) action) (ih _ _ _)

/-- A loop makes one attempt at most. -/
theorem attempts_le_one (envs : Nat → Env) (n : Nat) (l : L) (action : Action) :
    (loop perform envs n l action).effects.countP attempt ≤ 1 := by
  obtain ⟨immediate, last, hlast, hsub⟩ := h.line envs n l action
  have hline : [Action.disconnect, .scheduleReconnect immediate, .connect, last].count .connect = 1 := by
    rcases hlast with rfl | rfl <;> simp
  have hcount := hsub.count_le .connect
  have heffects := h.countP_effects envs n l action
  omega

end Orderly

end Loop

theorem countP_of_idle {attempt : E → Bool} {effects : List E} (h : ∀ e ∈ effects, attempt e = false) :
    effects.countP attempt = 0 :=
  List.countP_eq_zero.2 fun e he => by simp [h e he]

theorem countP_le_of_idle {attempt : E → Bool} {effects : List E} (h : ∀ e ∈ effects, attempt e = false) (k : Nat) :
    effects.countP attempt ≤ k := by
  rw [countP_of_idle h]
  exact Nat.zero_le k

/-! ### The answers of the machine -/

namespace Machine

/-- The machine asks for a disconnect after a failure that is final, and for nothing more after that disconnect. -/
theorem step_failed_cases (m : Machine) : (m.step .failed).2 = .none ∨ (m.step .failed).2 = .cancelReconnect ∨
    (m.step .failed).2 = .disconnect ∧ (m.step .failed).1.state = .failed := by
  cases hstate : m.state <;> simp [step, onFailed, retire, goTo, stay, hstate]

theorem step_disconnected_cases (m : Machine) : (m.step .disconnected).2 = .none ∨ (m.step .disconnected).2 = .connect ∨
    ∃ immediate, (m.step .disconnected).2 = .scheduleReconnect immediate := by
  cases hstate : m.state <;> simp [step, onDisconnected, goTo, stay, hstate]

theorem step_disconnected_of_failed {m : Machine} (h : m.state = .failed) : (m.step .disconnected).2 = .none := by
  simp [step, onDisconnected, stay, h]

theorem step_reconnectDue_cases (m : Machine) :
    (m.step .reconnectDue).2 = .none ∨ (m.step .reconnectDue).2 = .connect := by
  cases hstate : m.state <;> simp [step, onReconnectDue, goTo, stay, hstate]

end Machine

end ReliableMulticast.Link

/-! ### Subscribers -/

namespace ReliableMulticast.SubscriberLink

open Link (Action Orderly Halts loop loop_ends loop_of_le act_eq_loop countP_of_idle countP_le_of_idle)

theorem attempts_perform (l : SubscriberLink) (env : Surroundings) (action : Action) :
    (l.perform env action).2.1.countP Effect.attempt ≤ [action].count .connect := by
  rcases action with _ | _ | _ | (_ | _) | _
  · exact countP_le_of_idle (by simp [perform]) _
  · show (l.connect env).2.1.countP Effect.attempt ≤ 1
    unfold SubscriberLink.connect
    split
    · next fault hfault => exact countP_le_of_idle (idle_rejectChannel l fault) 1
    · exact List.countP_le_length
  · refine countP_le_of_idle (fun e he => ?_) _
    have he : e ∈ l.disconnect.2.1 := he
    rw [disconnect_effects] at he
    rcases List.mem_append.1 he with he | he
    · exact (silent_closing l e he).1
    · exact (shows_drive _ .disconnected).idle e he
  · exact countP_le_of_idle (by simp [perform]) _
  · exact countP_le_of_idle (shows_drive l .reconnectDue).idle _
  · exact countP_le_of_idle (by simp [perform]) _

theorem orderly_perform : Orderly perform Effect.attempt fun l => l.state = .failed where
  connect := by
    intro l env
    show (l.connect env).2.2 = _ ∨ (l.connect env).2.2 = _ ∨ (l.connect env).2.2 = _ ∧ (l.connect env).1.state = _
    unfold SubscriberLink.connect
    split
    · exact l.control.machine.step_failed_cases
    · exact Or.inl rfl
  disconnect l _ := l.control.machine.step_disconnected_cases
  ended _ _ h := Link.Machine.step_disconnected_of_failed h
  schedule := by
    intro l env immediate
    cases immediate with
    | true => exact l.control.machine.step_reconnectDue_cases
    | false => exact Or.inl rfl
  cancel _ _ := rfl
  attempts := attempts_perform

theorem toil_le_four (m : Link.Machine) (action : Action) : toil m action ≤ 4 := by
  cases action with
  | disconnect => cases hstate : m.state <;> simp [toil, hstate]
  | _ => simp [toil]

theorem Launches.countP_le_one {p : SubscriberLink × List Effect} (h : Launches p) : p.2.countP Effect.attempt ≤ 1 := by
  by_cases hidle : ∀ e ∈ p.2, e.attempt = false
  · exact countP_le_of_idle hidle 1
  · push Not at hidle
    obtain ⟨e, he, hattempt⟩ := hidle
    obtain ⟨pre, post, heffects⟩ := List.append_of_mem he
    obtain ⟨rfl, -⟩ := h pre e post heffects (by simpa using hattempt)
    have hpre : ∀ e' ∈ pre, e'.attempt = false := by
      intro e' he'
      by_contra hattempt'
      obtain ⟨before, after, rfl⟩ := List.append_of_mem he'
      obtain ⟨hnothing, -⟩ := h before e' (after ++ [e]) (by simp [heffects]) (by simpa using hattempt')
      simp at hnothing
    rw [heffects, List.countP_append, countP_of_idle hpre, Nat.zero_add]
    exact List.countP_le_length

/-- Nothing shorter would do for a link that is to connect again at once, to a channel that it can not follow. -/
theorem done_of_fault {l : SubscriberLink} {fault : ChannelFault} (envs : Nat → Surroundings)
    (hstate : l.control.machine.state = .reconnecting) (himmediate : l.control.machine.immediate = true)
    (hfault : l.channel.fault? = some fault) :
    (loop perform envs 4 l .disconnect).done = [.disconnect, .scheduleReconnect true, .connect, .disconnect] := by
  simp [loop, perform, disconnect, drive, connect, rejectChannel, Link.Control.drive, Link.Machine.step,
    Link.Machine.onDisconnected, Link.Machine.onReconnectDue, Link.Machine.onFailed, Link.Machine.retire, Link.Machine.goTo,
    hstate, himmediate, hfault]

/-- However the attempts come out, a link is through with its actions after four of them. -/
theorem loop_four (envs : Nat → Surroundings) (l : SubscriberLink) (action : Action) :
    (loop perform envs 4 l action).next = .none :=
  loop_ends (fun l => toil l.control.machine) (fun l env _ => toil_perform env l) envs (toil_le_four _ action)

theorem halts : Halts perform act onTask Effect.attempt 4 actLimit where
  ends := loop_four
  line := orderly_perform.line
  whole := by
    intro env n l action hn
    rw [← loop_of_le (loop_four (fun _ => env) l action) hn]
    exact act_eq_loop (fun _ _ => rfl) (fun n l => by cases n <;> rfl) fun n l _ ha => act_succ l ha env n
  within := by decide
  once l env task := (launches_onTask l env task).countP_le_one

end ReliableMulticast.SubscriberLink

/-! ### Publishers -/

namespace ReliableMulticast.PublisherLink

open Link (Action Input Orderly Halts loop loop_ends loop_of_le act_eq_loop countP_of_idle countP_le_of_idle)

@[simp] theorem attempts_drive (l : PublisherLink) (input : Input) : (l.drive input).2.1.countP Effect.attempt = 0 :=
  countP_of_idle (shows_drive l input).idle

@[simp] theorem attempts_closing (c : Option Connection) : (closing c).countP Effect.attempt = 0 := by
  cases c <;> rfl

@[simp] theorem attempt_alert (l : PublisherLink) (severity : Link.Severity) (message : String) :
    (l.alert severity message).attempt = false := rfl

theorem attempts_connect (l : PublisherLink) (env : Surroundings) : (l.connect env).2.1.countP Effect.attempt ≤ 1 := by
  unfold PublisherLink.connect
  split
  · simp [rejectChannel]
  dsimp only
  split
  · next data resend hlisten => simp [establish, List.countP_cons, Effect.attempt]
  · next e hlisten =>
    rw [List.countP_cons_of_pos (by rfl), List.countP_cons_of_neg (by simp), attempts_drive]

theorem attempts_perform (l : PublisherLink) (env : Surroundings) (action : Action) :
    (l.perform env action).2.1.countP Effect.attempt ≤ [action].count .connect := by
  rcases action with _ | _ | _ | (_ | _) | _
  · exact countP_le_of_idle (by simp [perform]) _
  · exact attempts_connect l env
  · refine countP_le_of_idle ?_ _
    show ∀ e ∈ l.startDisconnect.2, e.attempt = false
    unfold startDisconnect
    split <;> simp [enterPhase, Effect.attempt]
  · exact countP_le_of_idle (by simp [perform]) _
  · exact countP_le_of_idle (shows_drive l .reconnectDue).idle _
  · exact countP_le_of_idle (by simp [perform]) _

theorem orderly_perform : Orderly perform Effect.attempt fun _ => True where
  connect := by
    intro l env
    have hless : rank (l.perform env .connect).2.2 < rank .connect := rank_perform env l (by simp)
    rcases hnext : (l.perform env .connect).2.2 <;> simp_all [rank]
  disconnect _ _ := Or.inl rfl
  ended _ _ _ := rfl
  schedule := by
    intro l env immediate
    cases immediate with
    | true => exact l.control.machine.step_reconnectDue_cases
    | false => exact Or.inl rfl
  cancel _ _ := rfl
  attempts := attempts_perform

theorem rank_le_three (action : Action) : rank action ≤ 3 := by
  cases action <;> simp [rank]

theorem act_eq_loop_perform (env : Surroundings) (n : Nat) (l : PublisherLink) (action : Action) :
    act env n l action =
      ((loop perform (fun _ => env) n l action).link, (loop perform (fun _ => env) n l action).effects) :=
  act_eq_loop (fun _ _ => rfl) (fun n l => by cases n <;> rfl) fun n l _ ha => act_succ l ha n

/-! #### Tasks -/

section Tasks

variable (l : PublisherLink) (env : Surroundings)

theorem attempts_act (n : Nat) (action : Action) : (act env n l action).2.countP Effect.attempt ≤ 1 := by
  rw [act_eq_loop_perform]
  exact orderly_perform.attempts_le_one _ n l action

theorem attempts_driveAndAct (input : Input) : (l.driveAndAct env input).2.countP Effect.attempt ≤ 1 := by
  rw [driveAndAct_eq, List.countP_append, attempts_drive, Nat.zero_add]
  exact attempts_act _ env actLimit _

theorem attempts_revive : (l.revive env).2.countP Effect.attempt ≤ 1 := by
  have henable := l.attempts_drive (.enable true)
  unfold revive
  dsimp only
  split
  · rw [List.countP_append, henable, Nat.zero_add]
    exact attempts_driveAndAct _ env .up
  · rw [henable]
    exact Nat.zero_le 1

theorem attempts_onUpdate (channel : Channel) : (l.onUpdate env channel).2.countP Effect.attempt ≤ 1 := by
  unfold onUpdate
  split
  · exact Nat.zero_le 1
  dsimp only
  split
  · next fault hfault =>
    have hreject : (rejectChannel { l with channel := channel } fault).2.1.countP Effect.attempt = 0 := by
      simp [rejectChannel]
    rw [List.countP_append, hreject, Nat.zero_add]
    exact attempts_act _ env actLimit _
  split
  · exact attempts_driveAndAct _ env (.enable false)
  split
  · exact attempts_revive _ env
  · exact attempts_driveAndAct _ env (.reconnect true)

theorem attempts_onDrained (phase : DisconnectPhase) : (l.onDrained env phase).2.countP Effect.attempt ≤ 1 := by
  unfold onDrained
  split
  · simp [Effect.attempt]
  cases phase with
  | detaching => simp [enterPhase, Effect.attempt]
  | draining => simp [enterPhase, Effect.attempt]
  | releasing =>
    dsimp only
    rw [List.countP_append, attempts_closing, Nat.zero_add]
    exact attempts_driveAndAct _ env .disconnected

theorem attempts_onAccepted (generation : Nat) (conn : ConnId) (peer : Endpoint) :
    (l.onAccepted generation conn peer).2.countP Effect.attempt = 0 := by
  unfold onAccepted
  split
  · split <;> simp [Effect.attempt]
  · simp [Effect.attempt]

theorem attempts_onSessionClosed (generation : Nat) (session : SessionId) (result : Except SessionFailure Bool) :
    (l.onSessionClosed generation session result).2.countP Effect.attempt = 0 := by
  unfold onSessionClosed
  split
  · split
    · split
      · next s hs => cases closedMessage? s.peer result <;> simp
      · rfl
    · rfl
  · rfl

theorem attempts_onTask (task : Task) : (l.onTask env task).2.countP Effect.attempt ≤ 1 := by
  cases task with
  | up => exact attempts_driveAndAct _ env .up
  | down => exact attempts_driveAndAct _ env .down
  | update channel => exact l.attempts_onUpdate env channel
  | accepted generation conn peer =>
    exact Nat.le_trans (Nat.le_of_eq (l.attempts_onAccepted generation conn peer)) (Nat.zero_le 1)
  | listenerFailed generation error =>
    dsimp only [onTask]
    split
    · dsimp only
      rw [List.countP_cons_of_neg (by simp)]
      exact l.attempts_driveAndAct env (.reconnect false)
    · exact Nat.zero_le 1
  | sessionState generation session state => exact Nat.zero_le 1
  | sessionClosed generation session result =>
    exact Nat.le_trans (Nat.le_of_eq (l.attempts_onSessionClosed generation session result)) (Nat.zero_le 1)
  | drained phase => exact l.attempts_onDrained env phase
  | reconnectDue => exact attempts_driveAndAct _ env .reconnectDue

end Tasks

/-- However the attempts come out, a link is through with its actions after three of them. -/
theorem loop_three (envs : Nat → Surroundings) (l : PublisherLink) (action : Action) :
    (loop perform envs 3 l action).next = .none :=
  loop_ends (fun _ => rank) (fun l env _ => rank_perform env l) envs (rank_le_three action)

theorem halts : Halts perform act onTask Effect.attempt 3 actLimit where
  ends := loop_three
  line := orderly_perform.line
  whole := by
    intro env n l action hn
    rw [← loop_of_le (loop_three (fun _ => env) l action) hn]
    exact act_eq_loop_perform env n l action
  within := by decide
  once := attempts_onTask

end ReliableMulticast.PublisherLink

namespace ReliableMulticast.Link

/-- **The end of the loop.** Let a link be in any state, with any channel, and start with any action. However each of the
actions comes out, the loop of a subscriber's link is at its end after four of them, and that of a publisher's link after
three. No action leads back to where it came from, and a failed attempt is not followed by another one: there is one at most,
also in all of a task. The limit that is set to the actions never cuts a loop short. -/
theorem actions_end :
    Halts SubscriberLink.perform SubscriberLink.act SubscriberLink.onTask SubscriberLink.Effect.attempt 4
      SubscriberLink.actLimit ∧
    Halts PublisherLink.perform PublisherLink.act PublisherLink.onTask PublisherLink.Effect.attempt 3
      PublisherLink.actLimit :=
  ⟨SubscriberLink.halts, PublisherLink.halts⟩

end ReliableMulticast.Link
