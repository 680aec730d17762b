import Mathlib.Data.List.Basic
import ReliableMulticast.Proofs.Publisher.Link
import ReliableMulticast.Proofs.Subscriber.Calls

/-!
# Reports of earlier connections

The controls of both kinds of links number their connections, and what the sockets of a connection report carries its
number, its generation. Reports go on arriving after the connection has been given up, so each of them is compared with
the generation of the current connection. A `Core` is what both controls have in common for this:

* a task is `stale` if it carries a generation, but not that of the current connection;
* `fresh s tasks` are the tasks without those that are stale when their turn comes;
* all that a task does to the connection are turns (`Turn`): the connection stays, or it is given up, or the next one is
  started under the next number.

A core is `Lawful` if stale tasks leave its state alone and show nothing, and if all it does are such turns. Then a run
shows the same without its stale tasks (`Lawful.run_fresh`), its connections are numbered in the order in which they were
started (`Lawful.starts_run`), and a connection that has been given up is never the current one again
(`Lawful.not_current_again`).

Main statement (`insulated`): this is so for the subscriber's core and for the publisher's, in all their runs.
-/

namespace ReliableMulticast

namespace Link

/-- What the control of a link makes of its tasks, as far as the generations of connections are concerned. -/
structure Core (State Env Task Effect : Type) where
  step : State → Env → Task → State × List Effect
  /-- The generation that a report carries. -/
  tag? : Task → Option Nat
  /-- The channel in whose name the link reports. -/
  name : State → ChannelId
  /-- The number of connections so far. -/
  generation : State → Nat
  /-- The generation of the current connection. -/
  current? : State → Option Nat
  /-- The generation of the connection that is started. -/
  start? : Effect → Option Nat
  /-- The effect is more than the refusal of what came too late. -/
  shown : Effect → Bool

namespace Core

variable {State Env Task Effect : Type} (c : Core State Env Task Effect)

def run (s : State) : List (Env × Task) → State × List Effect
  | [] => (s, [])
  | (env, task) :: rest =>
    let (s, effects) := c.step s env task
    let (s, more) := run s rest
    (s, effects ++ more)

/-- The task reports of another connection than the current one. -/
def stale (s : State) (task : Task) : Bool := (c.tag? task).any fun g => c.current? s != some g

/-- The tasks without those that are stale when their turn comes. -/
def fresh (s : State) : List (Env × Task) → List (Env × Task)
  | [] => []
  | (env, task) :: rest =>
    if c.stale s task then fresh (c.step s env task).1 rest else (env, task) :: fresh (c.step s env task).1 rest

/-- The generations of the connections that are started, in order. -/
def starts (effects : List Effect) : List Nat := effects.filterMap c.start?

/-- What one turn does to the connection. -/
inductive Turn : State → List Effect → State → Prop
  | stay {s s' : State} {effects : List Effect} (name : c.name s' = c.name s)
    (generation : c.generation s' = c.generation s) (current : c.current? s' = c.current? s)
    (idle : c.starts effects = []) : Turn s effects s'
  | leave {s s' : State} {effects : List Effect} (name : c.name s' = c.name s)
    (generation : c.generation s' = c.generation s) (current : c.current? s' = none) (idle : c.starts effects = []) :
    Turn s effects s'
  | start {s s' : State} {effects : List Effect} (name : c.name s' = c.name s)
    (generation : c.generation s' = c.generation s + 1) (current : c.current? s' = some (c.generation s'))
    (starts : c.starts effects = [c.generation s']) : Turn s effects s'

abbrev Turns : State → List Effect → State → Prop := Chain c.Turn

structure Lawful : Prop where
  ignores : ∀ (s : State) (env : Env) (task : Task), c.stale s task = true →
    (c.step s env task).1 = s ∧ (c.step s env task).2.filter c.shown = []
  turns : ∀ (s : State) (env : Env) (task : Task), c.Turns s (c.step s env task).2 (c.step s env task).1

variable {c}

/-! ### Turns -/

theorem Turn.turns {s s' : State} {effects : List Effect} (h : c.Turn s effects s') : c.Turns s effects s' := .single h

/-- What is only noted down is no turn. -/
theorem Turns.noted {s t u : State} {effects : List Effect} (h : c.Turns t effects u)
    (hname : c.name t = c.name s) (hgeneration : c.generation t = c.generation s) (hcurrent : c.current? t = c.current? s) :
    c.Turns s effects u := by
  have hnoted : c.Turn s [] t := .stay hname hgeneration hcurrent rfl
  simpa using Chain.step hnoted h

/-- One more effect, at first. -/
theorem Turns.told {s s' : State} {effects : List Effect} (h : c.Turns s effects s') {e : Effect}
    (he : c.start? e = none) : c.Turns s (e :: effects) s' := by
  have htold : c.Turn s [e] s := .stay rfl rfl rfl (by simp [starts, he])
  exact Chain.step htold h

theorem Turn.name_eq {s s' : State} {effects : List Effect} (h : c.Turn s effects s') : c.name s' = c.name s := by
  cases h <;> assumption

theorem Turns.name_eq {s s' : State} {effects : List Effect} (h : c.Turns s effects s') : c.name s' = c.name s := by
  induction h with
  | refl s => rfl
  | step first _ ih => exact ih.trans first.name_eq

/-- The current connection is the latest. -/
def Latest (c : Core State Env Task Effect) (s : State) : Prop := ∀ g, c.current? s = some g → g = c.generation s

theorem Turn.latest {s s' : State} {effects : List Effect} (h : c.Turn s effects s') (hs : c.Latest s) :
    c.Latest s' := by
  intro g hg
  cases h with
  | stay _ hgeneration hcurrent _ =>
    rw [hgeneration]
    exact hs g (hcurrent ▸ hg)
  | leave _ _ hcurrent _ =>
    rw [hcurrent] at hg
    cases hg
  | start _ _ hcurrent _ =>
    rw [hcurrent] at hg
    exact (Option.some.inj hg).symm

theorem Turn.starts_eq {s s' : State} {effects : List Effect} (h : c.Turn s effects s') :
    ∃ n, c.generation s' = c.generation s + n ∧ c.starts effects = List.range' (c.generation s + 1) n := by
  cases h with
  | stay _ hgeneration _ hidle => exact ⟨0, hgeneration, hidle⟩
  | leave _ hgeneration _ hidle => exact ⟨0, hgeneration, hidle⟩
  | start _ hgeneration _ hstarts =>
    refine ⟨1, hgeneration, ?_⟩
    rw [hstarts, hgeneration]
    rfl

/-- Connections are started under the numbers after those so far. -/
theorem Turns.starts_eq {s s' : State} {effects : List Effect} (h : c.Turns s effects s') :
    ∃ n, c.generation s' = c.generation s + n ∧ c.starts effects = List.range' (c.generation s + 1) n := by
  induction h with
  | refl s => exact ⟨0, rfl, rfl⟩
  | step first _ ih =>
    obtain ⟨n, hn, hfirst⟩ := first.starts_eq
    obtain ⟨m, hm, hrest⟩ := ih
    refine ⟨n + m, by omega, ?_⟩
    unfold starts at hfirst hrest ⊢
    rw [List.filterMap_append, hfirst, hrest, hn, Nat.add_right_comm, List.range'_append_1]

theorem Turns.latest {s s' : State} {effects : List Effect} (h : c.Turns s effects s') (hs : c.Latest s) :
    c.Latest s' := by
  induction h with
  | refl s => exact hs
  | step first _ ih => exact ih (first.latest hs)

/-- A connection that was started, but is not the current one. -/
def Gone (c : Core State Env Task Effect) (g : Nat) (s : State) : Prop := g ≤ c.generation s ∧ c.current? s ≠ some g

theorem Turn.gone {s s' : State} {effects : List Effect} (h : c.Turn s effects s') {g : Nat} (hg : c.Gone g s) :
    c.Gone g s' := by
  obtain ⟨hle, hne⟩ := hg
  cases h with
  | stay _ hgeneration hcurrent _ => exact ⟨by omega, by rwa [hcurrent]⟩
  | leave _ hgeneration hcurrent _ => exact ⟨by omega, by simp [hcurrent]⟩
  | start _ hgeneration hcurrent _ =>
    refine ⟨by omega, ?_⟩
    rw [hcurrent]
    intro heq
    have := Option.some.inj heq
    omega

theorem Turns.gone {s s' : State} {effects : List Effect} (h : c.Turns s effects s') {g : Nat} (hg : c.Gone g s) :
    c.Gone g s' := by
  induction h with
  | refl s => exact hg
  | step first _ ih => exact ih (first.gone hg)

/-! ### Runs -/

theorem run_cons (s : State) (env : Env) (task : Task) (rest : List (Env × Task)) :
    c.run s ((env, task) :: rest) =
      ((c.run (c.step s env task).1 rest).1, (c.step s env task).2 ++ (c.run (c.step s env task).1 rest).2) := rfl

theorem run_append (s : State) (tasks tasks' : List (Env × Task)) :
    c.run s (tasks ++ tasks') =
      ((c.run (c.run s tasks).1 tasks').1, (c.run s tasks).2 ++ (c.run (c.run s tasks).1 tasks').2) := by
  induction tasks generalizing s with
  | nil => rfl
  | cons task rest ih =>
    obtain ⟨env, task⟩ := task
    rw [List.cons_append, run_cons, run_cons, ih, List.append_assoc]

theorem Lawful.turns_run (h : c.Lawful) (s : State) (tasks : List (Env × Task)) :
    c.Turns s (c.run s tasks).2 (c.run s tasks).1 := by
  induction tasks generalizing s with
  | nil => exact .refl s
  | cons task rest ih =>
    obtain ⟨env, task⟩ := task
    rw [run_cons]
    exact (h.turns s env task).trans (ih _)

/-- Without its stale tasks a run ends in the same state and shows the same. -/
theorem Lawful.run_fresh (h : c.Lawful) (s : State) (tasks : List (Env × Task)) :
    (c.run s (c.fresh s tasks)).1 = (c.run s tasks).1 ∧
      (c.run s (c.fresh s tasks)).2.filter c.shown = (c.run s tasks).2.filter c.shown := by
  induction tasks generalizing s with
  | nil => exact ⟨rfl, rfl⟩
  | cons task rest ih =>
    obtain ⟨env, task⟩ := task
    unfold fresh
    rw [run_cons, List.filter_append]
    split
    · next hstale =>
      obtain ⟨hstate, hnothing⟩ := h.ignores s env task hstale
      rw [hstate, hnothing, List.nil_append]
      exact ih s
    · obtain ⟨hstate, hshown⟩ := ih (c.step s env task).1
      rw [run_cons, List.filter_append, hstate, hshown]
      exact ⟨rfl, rfl⟩

/-- The connections of a run that starts without any are numbered from 1 on. -/
theorem Lawful.starts_run (h : c.Lawful) {s : State} (hs : c.generation s = 0) (tasks : List (Env × Task)) :
    c.starts (c.run s tasks).2 = List.range' 1 (c.generation (c.run s tasks).1) := by
  obtain ⟨n, hn, hstarts⟩ := (h.turns_run s tasks).starts_eq
  rw [hs, Nat.zero_add] at hn hstarts
  rw [hn]
  exact hstarts

/-- A connection that is not the current one any more does not become it again. -/
theorem Lawful.not_current_again (h : c.Lawful) {s : State} (hs : c.Latest s) {before between after : List (Env × Task)}
    {g : Nat} (hg : c.current? (c.run s before).1 = some g) (hgone : c.current? (c.run s (before ++ between)).1 ≠ some g) :
    c.current? (c.run s (before ++ between ++ after)).1 ≠ some g := by
  have hgeneration : g = c.generation (c.run s before).1 := (h.turns_run s before).latest hs g hg
  have hle : g ≤ c.generation (c.run s (before ++ between)).1 := by
    obtain ⟨n, hn, -⟩ := (h.turns_run (c.run s before).1 between).starts_eq
    rw [run_append]
    dsimp only
    omega
  rw [run_append]
  exact ((h.turns_run _ after).gone ⟨hle, hgone⟩).2

/-- Earlier connections have no say in what becomes of the tasks. -/
structure Insulated (c : Core State Env Task Effect) (s : State) (tasks : List (Env × Task)) : Prop where
  state : (c.run s (c.fresh s tasks)).1 = (c.run s tasks).1
  shows : (c.run s (c.fresh s tasks)).2.filter c.shown = (c.run s tasks).2.filter c.shown
  numbered : c.starts (c.run s tasks).2 = List.range' 1 (c.generation (c.run s tasks).1)
  latest : ∀ g, c.current? (c.run s tasks).1 = some g → g = c.generation (c.run s tasks).1
  /-- What is not the current connection any more does not become it again. -/
  final : ∀ before between after g, tasks = before ++ between ++ after → c.current? (c.run s before).1 = some g →
    c.current? (c.run s (before ++ between)).1 ≠ some g → c.current? (c.run s tasks).1 ≠ some g

theorem Lawful.insulates (h : c.Lawful) {s : State} (hs : c.generation s = 0) (hnone : c.current? s = none)
    (tasks : List (Env × Task)) : c.Insulated s tasks where
  state := (h.run_fresh s tasks).1
  shows := (h.run_fresh s tasks).2
  numbered := h.starts_run hs tasks
  latest := (h.turns_run s tasks).latest fun g hg => by rw [hnone] at hg; cases hg
  final := by
    rintro before between after g rfl
    exact h.not_current_again fun g hg => by rw [hnone] at hg; cases hg

end Core

end Link

/-! ### The subscriber's core -/

namespace SubscriberLink

open Link (Core)

def Task.tag? : Task → Option Nat
  | .tcpConnected generation _ => some generation
  | .tcpFrame generation _ => some generation
  | .tcpClosed generation _ => some generation
  | .udp generation _ => some generation
  | _ => none

def Effect.start? : Effect → Option Nat
  | .connect generation _ => some generation
  | _ => none

/-- All that a subscriber's link does is seen. -/
def core : Core SubscriberLink Surroundings Task Effect where
  step := onTask
  tag? := Task.tag?
  name := fun l => l.control.channel
  generation := generation
  current? := fun l => l.connection.map (·.generation)
  start? := Effect.start?
  shown := fun _ => true

variable (env : Surroundings)

theorem starts_drive (l : SubscriberLink) (input : Link.Input) : core.starts (l.drive input).2.1 = [] := by
  show List.filterMap _ (List.map _ _) = []
  rw [List.filterMap_map]
  exact List.filterMap_eq_nil_iff.2 fun _ _ => rfl

theorem turn_drive (l : SubscriberLink) (input : Link.Input) : core.Turn l (l.drive input).2.1 (l.drive input).1 :=
  .stay rfl rfl rfl (starts_drive l input)

theorem turn_rejectChannel (l : SubscriberLink) (fault : ChannelFault) :
    core.Turn l (l.rejectChannel fault).2.1 (l.rejectChannel fault).1 :=
  .stay rfl rfl rfl (starts_drive l .failed)

theorem turn_connect (l : SubscriberLink) : core.Turn l (l.connect env).2.1 (l.connect env).1 := by
  unfold connect
  split
  · exact turn_rejectChannel l _
  · exact .start rfl rfl rfl rfl

theorem turn_disconnect (l : SubscriberLink) : core.Turn l l.disconnect.2.1 l.disconnect.1 := by
  refine .leave rfl rfl rfl ?_
  have hclosing : core.starts (l.connection.map fun c => Effect.close c.generation).toList = [] := by
    cases l.connection <;> rfl
  show List.filterMap _ (_ ++ _ :: ({ l with connection := none }.drive .disconnected).2.1) = []
  rw [List.filterMap_append]
  refine List.append_eq_nil_iff.2 ⟨hclosing, ?_⟩
  exact starts_drive { l with connection := none } .disconnected

theorem turn_perform (l : SubscriberLink) (action : Link.Action) :
    core.Turn l (l.perform env action).2.1 (l.perform env action).1 := by
  rcases action with _ | _ | _ | (_ | _) | _
  · exact .stay rfl rfl rfl rfl
  · exact turn_connect env l
  · exact turn_disconnect l
  · exact .stay rfl rfl rfl rfl
  · exact turn_drive l .reconnectDue
  · exact .stay rfl rfl rfl rfl

theorem turns_act (fuel : Nat) (l : SubscriberLink) (action : Link.Action) :
    core.Turns l (act env fuel l action).2 (act env fuel l action).1 := by
  induction fuel generalizing l action with
  | zero => exact .refl l
  | succ fuel ih =>
    by_cases ha : action = .none
    · subst ha
      exact .refl l
    · rw [act_succ l ha]
      exact .step (turn_perform env l action) (ih _ _)

theorem turns_driveAndAct (l : SubscriberLink) (input : Link.Input) :
    core.Turns l (l.driveAndAct env input).2 (l.driveAndAct env input).1 := by
  rw [driveAndAct_eq]
  exact .step (turn_drive l input) (turns_act env actLimit _ _)

theorem turns_failWith (l : SubscriberLink) (message : String) (immediate : Bool) :
    core.Turns l (l.failWith env message immediate).2 (l.failWith env message immediate).1 :=
  (turns_driveAndAct env l (.reconnect immediate)).told rfl

theorem turns_revive (l : SubscriberLink) : core.Turns l (l.revive env).2 (l.revive env).1 := by
  unfold revive
  have hdrive := turn_drive l (.enable true)
  rcases hd : l.drive (.enable true) with ⟨l', effects, action⟩
  rw [hd] at hdrive
  dsimp only
  split
  · exact .step hdrive (turns_driveAndAct env l' .up)
  · exact hdrive.turns

theorem turns_onUpdate (l : SubscriberLink) (channel : Channel) :
    core.Turns l (l.onUpdate env channel).2 (l.onUpdate env channel).1 := by
  unfold onUpdate
  split
  · exact .refl l
  dsimp only
  -- the new channel is noted, and then what it asks for is done
  refine Core.Turns.noted (t := { l with channel := channel }) ?_ rfl rfl rfl
  split
  · next fault _ => exact .step (turn_rejectChannel { l with channel := channel } fault) (turns_act env actLimit _ _)
  split
  · exact turns_driveAndAct env _ (.enable false)
  split
  · exact turns_revive env _
  · exact turns_driveAndAct env _ (.reconnect true)

theorem starts_outputs (socket : SocketId) (outputs : List Receiver.Output) :
    core.starts (outputs.map (ofOutput socket)) = [] := by
  show List.filterMap _ (List.map _ _) = []
  rw [List.filterMap_map]
  refine List.filterMap_eq_nil_iff.2 fun output _ => ?_
  cases output <;> rfl

theorem turns_onReceiver (l : SubscriberLink) (thenClose : Bool) (ask : Receiver → Receiver.Answer) :
    core.Turns l (l.onReceiver env thenClose ask).2 (l.onReceiver env thenClose ask).1 := by
  unfold onReceiver
  split
  · exact .refl l
  next c hc =>
    split
    · exact .refl l
    next socket r hr =>
      dsimp only
      have hanswered : core.Turn l
          ((ask r).outputs.map (ofOutput socket) ++ (if thenClose then [.closeTcp c.generation] else []))
          { l with connection := some { c with
              receiver := some (socket, (ask r).receiver)
              tcpState := if thenClose then .disconnect else c.tcpState } } := by
        refine .stay rfl rfl (by simp [core, hc]) ?_
        show List.filterMap _ (_ ++ _) = []
        rw [List.filterMap_append]
        refine List.append_eq_nil_iff.2 ⟨starts_outputs socket _, ?_⟩
        cases thenClose <;> rfl
      split
      · exact hanswered.turns
      · exact .step hanswered (turns_failWith env _ _ _)

theorem turns_onTcpConnected (l : SubscriberLink) (generation : Nat) (peer : Endpoint) :
    core.Turns l (l.onTcpConnected env generation peer).2 (l.onTcpConnected env generation peer).1 := by
  unfold onTcpConnected
  split
  · exact .refl l
  next c hc =>
    obtain ⟨hc, -⟩ := current?_eq_some hc
    dsimp only
    split
    · exact (turns_failWith env l _ _).told rfl
    · exact Core.Turn.turns (.stay rfl rfl (by simp [core, hc]) rfl)

theorem turns_onTcpFrame (l : SubscriberLink) (generation : Nat) (f : Frame) :
    core.Turns l (l.onTcpFrame env generation f).2 (l.onTcpFrame env generation f).1 := by
  unfold onTcpFrame
  split
  · exact .refl l
  next c hc =>
    obtain ⟨hc, -⟩ := current?_eq_some hc
    split
    · unfold onLoginAnswer
      split
      · exact (turns_driveAndAct env _ .connected).noted rfl rfl (by simp [core, hc])
      · exact turns_failWith env l _ _
    · unfold onSnapshot
      split
      · exact turns_onReceiver env l _ _
      · split
        · exact turns_failWith env l _ _
        split
        · exact turns_failWith env l _ _
        · exact turns_onReceiver env l _ _
      · exact turns_failWith env l _ _
      · exact Core.Turn.turns (.stay rfl rfl rfl rfl)
    · exact .refl l
    · exact .refl l

theorem turns_onTcpClosed (l : SubscriberLink) (generation : Nat) (error : Option TcpFailure) :
    core.Turns l (l.onTcpClosed env generation error).2 (l.onTcpClosed env generation error).1 := by
  unfold onTcpClosed
  split
  · exact .refl l
  split
  · exact .refl l
  · exact turns_failWith env l _ _

theorem turns_onTask (l : SubscriberLink) (task : Task) : core.Turns l (l.onTask env task).2 (l.onTask env task).1 := by
  cases task with
  | up => exact (turns_driveAndAct env { l with wantsUp := true } .up).noted rfl rfl rfl
  | down => exact (turns_driveAndAct env { l with wantsUp := false } .down).noted rfl rfl rfl
  | update channel => exact turns_onUpdate env l channel
  | tcpConnected generation peer => exact turns_onTcpConnected env l generation peer
  | tcpFrame generation f => exact turns_onTcpFrame env l generation f
  | tcpClosed generation error => exact turns_onTcpClosed env l generation error
  | udp generation f =>
    show core.Turns l (l.onUdp env generation f).2 (l.onUdp env generation f).1
    unfold onUdp
    split
    · exact .refl l
    · exact turns_onReceiver env l false (·.onFrame env.now f)
  | manualResend call gap =>
    refine Core.Turn.turns (.stay rfl rfl rfl ?_)
    show core.starts (l.onManualResend call gap) = []
    unfold onManualResend
    split
    · rfl
    split <;> rfl
  | reconnectDue => exact (turns_driveAndAct env { l with reconnectAt := none } .reconnectDue).noted rfl rfl rfl
  | loginTimeout =>
    have hcurrent : core.current? l.forgetDeadline = core.current? l := by
      simp only [core, forgetDeadline, Option.map_map]
      rfl
    exact (turns_failWith env l.forgetDeadline _ _).noted rfl rfl hcurrent
  | requestTimer => exact turns_onReceiver env l false (·.onRequestTimer env.now)
  | livenessTick =>
    show core.Turns l (l.onLivenessTick env).2 (l.onLivenessTick env).1
    unfold onLivenessTick
    split
    · exact turns_onReceiver env l false (·.onLivenessTick)
    · exact .refl l

theorem current?_eq_none {l : SubscriberLink} {generation : Nat} (h : core.current? l ≠ some generation) :
    l.current? generation = none := by
  cases hc : l.current? generation with
  | none => rfl
  | some c =>
    obtain ⟨hconnection, hgeneration⟩ := current?_eq_some hc
    exact absurd (by simp [core, hconnection, hgeneration]) h

theorem onTask_of_stale {l : SubscriberLink} {task : Task} (h : core.stale l task = true) :
    l.onTask env task = (l, []) := by
  have hnone : ∀ g, task.tag? = some g → l.current? g = none := by
    intro g htag
    refine current?_eq_none fun hcurrent => ?_
    have hne : ((Task.tag? task).any fun g => core.current? l != some g) = true := h
    simp [htag, hcurrent] at hne
  cases task with
  | tcpConnected g peer => simp [onTask, onTcpConnected, hnone g rfl]
  | tcpFrame g f => simp [onTask, onTcpFrame, hnone g rfl]
  | tcpClosed g error => simp [onTask, onTcpClosed, hnone g rfl]
  | udp g f => simp [onTask, onUdp, hnone g rfl]
  | _ => cases h

theorem lawful_core : core.Lawful where
  ignores := fun l env task h => by
    show (l.onTask env task).1 = l ∧ List.filter _ (l.onTask env task).2 = []
    rw [onTask_of_stale env h]
    exact ⟨rfl, rfl⟩
  turns := fun l env task => turns_onTask env l task

theorem run_core (l : SubscriberLink) (tasks : List (Surroundings × Task)) : core.run l tasks = l.onTasks tasks := by
  induction tasks generalizing l with
  | nil => rfl
  | cons task rest ih =>
    obtain ⟨env, task⟩ := task
    rw [Core.run_cons, ih]
    rfl

theorem onTasks_append (l : SubscriberLink) (tasks tasks' : List (Surroundings × Task)) :
    l.onTasks (tasks ++ tasks') =
      (((l.onTasks tasks).1.onTasks tasks').1, (l.onTasks tasks).2 ++ ((l.onTasks tasks).1.onTasks tasks').2) := by
  simp only [← run_core]
  exact Core.run_append l tasks tasks'

theorem name_new (channel : Channel) (settings : Settings) : (new channel settings).1.control.channel = channel.id := by
  unfold new
  dsimp only
  split <;> rfl

/-- A link reports in the name of one channel for all its life. -/
theorem name_onTasks (l : SubscriberLink) (tasks : List (Surroundings × Task)) :
    (l.onTasks tasks).1.control.channel = l.control.channel := by
  rw [← run_core]
  exact (lawful_core.turns_run l tasks).name_eq

end SubscriberLink

/-! ### The publisher's core -/

namespace PublisherLink

open Link (Core)

def Task.tag? : Task → Option Nat
  | .accepted generation .. => some generation
  | .listenerFailed generation _ => some generation
  | .sessionState generation .. => some generation
  | .sessionClosed generation .. => some generation
  | _ => none

def Effect.start? : Effect → Option Nat
  | .listen generation _ => some generation
  | _ => none

/-- A login that came too late is refused, and nothing else becomes of it. -/
def Effect.shown : Effect → Bool
  | .refuse _ => false
  | _ => true

def core : Core PublisherLink Surroundings Task Effect where
  step := onTask
  tag? := Task.tag?
  name := fun l => l.control.channel
  generation := generation
  current? := fun l => l.connection.map (·.generation)
  start? := Effect.start?
  shown := Effect.shown

variable (env : Surroundings)

theorem starts_drive (l : PublisherLink) (input : Link.Input) : core.starts (l.drive input).2.1 = [] := by
  show List.filterMap _ (List.map _ _) = []
  rw [List.filterMap_map]
  exact List.filterMap_eq_nil_iff.2 fun _ _ => rfl

theorem turn_drive (l : PublisherLink) (input : Link.Input) : core.Turn l (l.drive input).2.1 (l.drive input).1 :=
  .stay rfl rfl rfl (starts_drive l input)

theorem turn_rejectChannel (l : PublisherLink) (fault : ChannelFault) :
    core.Turn l (l.rejectChannel fault).2.1 (l.rejectChannel fault).1 :=
  .stay rfl rfl rfl (starts_drive l .failed)

theorem starts_closing (connection : Option Connection) : core.starts (closing connection) = [] := by
  cases connection <;> rfl

/-- A new connection, also in the place of an earlier one. -/
theorem turn_establish (l : PublisherLink) (endpoints : Endpoints) (data resend : SocketId) :
    core.Turn l (l.establish endpoints data resend).2 (l.establish endpoints data resend).1 := by
  refine .start rfl rfl rfl ?_
  show (l.generation + 1) :: core.starts (closing l.connection) = [l.generation + 1]
  rw [starts_closing]

theorem turns_connect (l : PublisherLink) : core.Turns l (l.connect env).2.1 (l.connect env).1 := by
  unfold connect
  split
  · exact (turn_rejectChannel l _).turns
  dsimp only
  split
  · next data resend _ =>
    have hopened := turn_establish l (l.channel.endpoints l.control.isSecondary) data resend
    exact .step hopened (turn_drive _ .connected).turns
  · exact ((turn_drive l (.reconnect false)).turns.told rfl).told rfl

theorem turn_startDisconnect (l : PublisherLink) : core.Turn l l.startDisconnect.2 l.startDisconnect.1 := by
  unfold startDisconnect
  split
  · exact .stay rfl rfl rfl rfl
  · exact .stay rfl rfl rfl rfl

theorem turns_perform (l : PublisherLink) (action : Link.Action) :
    core.Turns l (l.perform env action).2.1 (l.perform env action).1 := by
  rcases action with _ | _ | _ | (_ | _) | _
  · exact .refl l
  · exact turns_connect env l
  · exact (turn_startDisconnect l).turns
  · exact Core.Turn.turns (.stay rfl rfl rfl rfl)
  · exact (turn_drive l .reconnectDue).turns
  · exact Core.Turn.turns (.stay rfl rfl rfl rfl)

theorem turns_act (fuel : Nat) (l : PublisherLink) (action : Link.Action) :
    core.Turns l (act env fuel l action).2 (act env fuel l action).1 := by
  induction fuel generalizing l action with
  | zero => exact .refl l
  | succ fuel ih =>
    by_cases ha : action = .none
    · subst ha
      exact .refl l
    · rw [act_succ l ha]
      exact (turns_perform env l action).trans (ih _ _)

theorem turns_driveAndAct (l : PublisherLink) (input : Link.Input) :
    core.Turns l (l.driveAndAct env input).2 (l.driveAndAct env input).1 := by
  rw [driveAndAct_eq]
  exact .step (turn_drive l input) (turns_act env actLimit _ _)

theorem turns_revive (l : PublisherLink) : core.Turns l (l.revive env).2 (l.revive env).1 := by
  unfold revive
  have hdrive := turn_drive l (.enable true)
  rcases hd : l.drive (.enable true) with ⟨l', effects, action⟩
  rw [hd] at hdrive
  dsimp only
  split
  · exact .step hdrive (turns_driveAndAct env l' .up)
  · exact hdrive.turns

theorem turns_onUpdate (l : PublisherLink) (channel : Channel) :
    core.Turns l (l.onUpdate env channel).2 (l.onUpdate env channel).1 := by
  unfold onUpdate
  split
  · exact .refl l
  dsimp only
  -- the new channel is noted, and then what it asks for is done
  refine Core.Turns.noted (t := { l with channel := channel }) ?_ rfl rfl rfl
  split
  · next fault _ => exact .step (turn_rejectChannel { l with channel := channel } fault) (turns_act env actLimit _ _)
  split
  · exact turns_driveAndAct env _ (.enable false)
  split
  · exact turns_revive env _
  · exact turns_driveAndAct env _ (.reconnect true)

theorem turns_drained (l : PublisherLink) (phase : DisconnectPhase) :
    core.Turns l (l.onDrained env phase).2 (l.onDrained env phase).1 := by
  unfold onDrained
  split
  · exact Core.Turn.turns (.stay rfl rfl rfl rfl)
  cases phase with
  | detaching =>
    refine Core.Turn.turns (.stay rfl rfl ?_ ?_)
    · show Option.map _ (Option.map _ l.connection) = _
      rw [Option.map_map]
      rfl
    · show List.filterMap _ (closing l.connection ++ [.drain .draining]) = []
      rw [List.filterMap_append]
      exact List.append_eq_nil_iff.2 ⟨starts_closing l.connection, rfl⟩
  | draining => exact Core.Turn.turns (.stay rfl rfl rfl rfl)
  | releasing =>
    have hgone : core.Turn l (closing l.connection) { l with phase := none, connection := none } :=
      .leave rfl rfl rfl (starts_closing l.connection)
    exact .step hgone (turns_driveAndAct env _ .disconnected)

theorem turn_onAccepted (l : PublisherLink) (generation : Nat) (conn : ConnId) (peer : Endpoint) :
    core.Turn l (l.onAccepted generation conn peer).2 (l.onAccepted generation conn peer).1 := by
  unfold onAccepted
  split
  · next c hc =>
    split
    · exact .stay rfl rfl (by simp [core, hc]) rfl
    · exact .stay rfl rfl rfl rfl
  · exact .stay rfl rfl rfl rfl

theorem turn_onSessionState (l : PublisherLink) (generation : Nat) (session : SessionId) (state : Link.TcpState) :
    core.Turn l [] (l.onSessionState generation session state) := by
  refine .stay rfl rfl ?_ rfl
  show Option.map _ (Option.map _ l.connection) = _
  rw [Option.map_map]
  refine Option.map_congr fun c _ => ?_
  show (if c.generation = generation then _ else c).generation = c.generation
  split <;> rfl

theorem turn_onSessionClosed (l : PublisherLink) (generation : Nat) (session : SessionId)
    (result : Except SessionFailure Bool) :
    core.Turn l (l.onSessionClosed generation session result).2 (l.onSessionClosed generation session result).1 := by
  unfold onSessionClosed
  split
  · next c hc =>
    split
    · split
      · next s hs =>
        refine .stay rfl rfl (by simp [core, hc]) ?_
        cases closedMessage? s.peer result <;> rfl
      · exact .stay rfl rfl rfl rfl
    · exact .stay rfl rfl rfl rfl
  · exact .stay rfl rfl rfl rfl

theorem turns_onTask (l : PublisherLink) (task : Task) : core.Turns l (l.onTask env task).2 (l.onTask env task).1 := by
  cases task with
  | up => exact (turns_driveAndAct env { l with wantsUp := true } .up).noted rfl rfl rfl
  | down => exact (turns_driveAndAct env { l with wantsUp := false } .down).noted rfl rfl rfl
  | update channel => exact turns_onUpdate env l channel
  | accepted generation conn peer => exact (turn_onAccepted l generation conn peer).turns
  | listenerFailed generation error =>
    dsimp only [onTask]
    split
    · exact (turns_driveAndAct env l (.reconnect false)).told rfl
    · exact .refl l
  | sessionState generation session state => exact (turn_onSessionState l generation session state).turns
  | sessionClosed generation session result => exact (turn_onSessionClosed l generation session result).turns
  | drained phase => exact turns_drained env l phase
  | reconnectDue => exact (turns_driveAndAct env { l with reconnectAt := none } .reconnectDue).noted rfl rfl rfl

theorem generation_ne_of_stale {l : PublisherLink} {task : Task} (h : core.stale l task = true) {g : Nat}
    (htag : task.tag? = some g) : ∀ c, l.connection = some c → c.generation ≠ g := by
  have hne : ((Task.tag? task).any fun g => core.current? l != some g) = true := h
  rintro c hc rfl
  simp [htag, core, hc] at hne

theorem onTask_of_stale {l : PublisherLink} {task : Task} (h : core.stale l task = true) :
    (l.onTask env task).1 = l ∧ (l.onTask env task).2.filter Effect.shown = [] := by
  have hne := fun g => generation_ne_of_stale h (g := g)
  rcases hc : l.connection with _ | c
  · cases task with
    | accepted g conn peer => simp [onTask, onAccepted, hc, Effect.shown]
    | listenerFailed g error => simp [onTask, isCurrent, hc]
    | sessionState g session state =>
      refine ⟨?_, rfl⟩
      simp only [onTask, onSessionState, hc, Option.map_none]
      rw [← hc]
    | sessionClosed g session result => simp [onTask, onSessionClosed, hc]
    | _ => cases h
  · cases task with
    | accepted g conn peer => simp [onTask, onAccepted, hc, hne g rfl c hc, Effect.shown]
    | listenerFailed g error => simp [onTask, isCurrent, hc, hne g rfl c hc]
    | sessionState g session state =>
      refine ⟨?_, rfl⟩
      simp only [onTask, onSessionState, hc, Option.map_some, if_neg (hne g rfl c hc)]
      rw [← hc]
    | sessionClosed g session result => simp [onTask, onSessionClosed, hc, hne g rfl c hc]
    | _ => cases h

theorem lawful_core : core.Lawful where
  ignores := fun _ env _ h => onTask_of_stale env h
  turns := fun l env task => turns_onTask env l task

theorem name_new (channel : Channel) (settings : Settings) : (new channel settings).1.control.channel = channel.id := by
  unfold new
  dsimp only
  split <;> rfl

end PublisherLink

/-- **Earlier connections have no say.** Whatever is asked of a new subscriber's or publisher's link, and whatever its
connections report and when: without the reports that do not come from the current connection the link ends in the same
state and has the same effects, of which events, calls to the application, datagrams and tasks for the transmitter are a
part. The connections are numbered from 1 on in the order in which they are started, the current one is always the latest,
and one that has been given up never becomes the current one again. -/
theorem Link.insulated (channel : Channel) (settings : Settings) :
    (∀ tasks, SubscriberLink.core.Insulated (SubscriberLink.new channel settings).1 tasks) ∧
      ∀ tasks, PublisherLink.core.Insulated (PublisherLink.new channel settings).1 tasks := by
  refine ⟨fun tasks => SubscriberLink.lawful_core.insulates ?_ ?_ tasks,
    fun tasks => PublisherLink.lawful_core.insulates ?_ ?_ tasks⟩
  · unfold SubscriberLink.new
    split <;> rfl
  · unfold SubscriberLink.new
    split <;> rfl
  · unfold PublisherLink.new
    split <;> rfl
  · unfold PublisherLink.new
    split <;> rfl

/-- What comes from the first connection after the second was started is left out. -/
example :
    let place : Endpoint := ⟨⟨10, 0, 0, 1⟩, 9000⟩
    let l := (SubscriberLink.new (.new "md1" place place place) .default).1
    let late : List SubscriberLink.Task := [.tcpFrame 1 default, .udp 1 default]
    let tasks : List SubscriberLink.Task :=
      [.up, .tcpConnected 1 place, .tcpClosed 1 none, .reconnectDue] ++ late ++ [.tcpConnected 2 place]
    (SubscriberLink.core.fresh l (tasks.map fun task => (⟨0, fun _ => .ok 1⟩, task))).map (·.2) =
      [.up, .tcpConnected 1 place, .tcpClosed 1 none, .reconnectDue, .tcpConnected 2 place] := by
  decide +kernel

end ReliableMulticast
