import Mathlib.Data.List.DropRight
import ReliableMulticast.Proofs.Subscriber.Pace

/-!
# Signs of life

Once per second a receiver looks whether there was traffic since it looked last, and after so many seconds without any it
gives the publisher up. The flag that it samples and the number that it counts up to are two fields which any call may
touch; what they should say is a matter of the calls alone. `ticks` are the ticks among the calls, each with whether
anything was heard before it and with its answer, and `idleRun` are those without traffic since the latest that heard
something or that gave up, or since the start.

Between two ticks the flag is what was heard since the first of them, and the number is the length of this run (`Watches`);
each call keeps that (`Watches.onCall`, `Watches.onTick`), and a tick answers by the length of the run (`verdict`). What
follows about whole runs is about the ticks alone (`Regular`): two that give up are `timeout` ticks apart.

Main statement (`keepsWatch`): a tick fails exactly where it completes a run of `timeout` ticks without traffic, whatever the
frames were and whatever the receiver answered to them.
-/

namespace ReliableMulticast

namespace Receiver

/-! ### What is heard -/

/-- Any frame is a sign of life, whether it can be read or not. -/
def Call.isTraffic : Call → Bool
  | .snapshotFrame _ => true
  | .frame _ => true
  | _ => false

/-- A tick: whether there was traffic since the one before, and what it answered. -/
structure Tick where
  heard : Bool
  failure : Option Desync
deriving DecidableEq, Repr

namespace Tick

/-- A tick that goes on counting. -/
def idle (t : Tick) : Bool := !t.heard && t.failure.isNone

end Tick

/-- The ticks among the calls, where `heard` says whether there was traffic before the first of them. -/
def ticksFrom (heard : Bool) (r : Receiver) : List (Instant × Call) → List Tick
  | [] => []
  | (now, .livenessTick) :: rest =>
    ⟨heard, (r.onCall now .livenessTick).failure⟩ :: ticksFrom false (r.onCall now .livenessTick).receiver rest
  | (now, c) :: rest => ticksFrom (c.isTraffic || heard) (r.onCall now c).receiver rest

/-- The ticks among the calls to a receiver that has not heard anything. -/
def ticks (r : Receiver) (calls : List (Instant × Call)) : List Tick := r.ticksFrom false calls

/-- There was traffic after the last tick. -/
def heardAfter (heard : Bool) : List (Instant × Call) → Bool
  | [] => heard
  | (_, .livenessTick) :: rest => heardAfter false rest
  | (_, c) :: rest => heardAfter (c.isTraffic || heard) rest

/-- The ticks without traffic since the latest that heard something or that failed. -/
def idleRun (ts : List Tick) : List Tick := ts.rtakeWhile Tick.idle

/-- A tick fails if it completes a run of `timeout` ticks without traffic. -/
def verdict (timeout : Nat) (past : List Tick) (heard : Bool) : Option Desync :=
  if heard = false ∧ (idleRun past).length + 1 = timeout then some (.silent timeout) else none

theorem ticksFrom_append (heard : Bool) (r : Receiver) (calls more : List (Instant × Call)) :
    r.ticksFrom heard (calls ++ more) =
      r.ticksFrom heard calls ++ (r.onCalls calls).ticksFrom (heardAfter heard calls) more := by
  induction calls generalizing heard r with
  | nil => rfl
  | cons call rest ih =>
    obtain ⟨now, c⟩ := call
    cases c with
    | livenessTick => exact congrArg _ (ih _ _)
    | _ => exact ih _ _

theorem ticksFrom_cons_of_traffic {c : Call} (hc : c.isTraffic = true) (heard : Bool) (r : Receiver) (now : Instant)
    (rest : List (Instant × Call)) :
    r.ticksFrom heard ((now, c) :: rest) = (r.onCall now c).receiver.ticksFrom true rest := by
  cases c with
  | snapshotFrame f => rfl
  | frame f => rfl
  | _ => cases hc

theorem idleRun_concat (ts : List Tick) (t : Tick) :
    idleRun (ts ++ [t]) = if t.idle = true then idleRun ts ++ [t] else [] := List.rtakeWhile_concat _ _ _

theorem length_idleRun_le (before between : List Tick) {t : Tick} (ht : t.idle = false) :
    (idleRun (before ++ t :: between)).length ≤ between.length := by
  induction between using List.reverseRecOn with
  | nil =>
    rw [idleRun_concat, ht]
    exact Nat.le_refl _
  | append_singleton between x ih =>
    rw [← List.cons_append, ← List.append_assoc, idleRun_concat, List.length_append]
    split
    · rw [List.length_append]
      exact Nat.add_le_add_right ih _
    · exact Nat.zero_le _

/-! ### One call -/

/-- What a tick looks at: the flag and the number of ticks that were idle. -/
def watch (r : Receiver) : Bool × Nat := (r.active, r.idleTicks)

theorem watch_onGapChange (r : Receiver) (now : Instant) (change : Option GapChange) :
    (r.onGapChange now change).receiver.watch = r.watch := by
  unfold onGapChange
  repeat' split
  all_goals rfl

theorem watch_settleGap (r : Receiver) (now : Instant) (change : Option GapChange) :
    (r.settleGap now change).receiver.watch = r.watch := by
  rw [receiver_settleGap]
  exact watch_onGapChange r now change

theorem watch_onFrame (r : Receiver) (now : Instant) (f : Frame) :
    (r.onFrame now f).receiver.watch = (true, r.idleTicks) := by
  rcases r.onFrame_cases now f with ⟨-, h⟩ | ⟨-, stamp, h⟩ | ⟨-, text, h⟩
  · rw [h]
    exact watch_settleGap _ now _
  · rw [h]
    exact watch_settleGap _ now _
  · rw [h]
    rfl

/-- Apart from a tick, a call only sets the flag, and does so if it is traffic. -/
theorem watch_onCall (r : Receiver) (now : Instant) {c : Call} (hc : c ≠ .livenessTick) :
    (r.onCall now c).receiver.watch = (c.isTraffic || r.active, r.idleTicks) := by
  cases c with
  | snapshotFrame f => rfl
  | frame f => exact watch_onFrame r now f
  | endOfSnapshot seq => exact watch_settleGap _ now _
  | requestTimer =>
    simp only [onCall, onRequestTimer]
    repeat' split
    all_goals rfl
  | livenessTick => exact absurd rfl hc

/-! ### The flag and the number -/

/-- The receiver knows what was heard since the last tick, and how long it has been idle. -/
structure Watches (timeout : Nat) (past : List Tick) (heard : Bool) (r : Receiver) : Prop where
  patience : r.settings.timeout = timeout
  active : r.active = heard
  idle : r.idleTicks = (idleRun past).length
  below : r.idleTicks < timeout

theorem watches_new {settings : Settings} (ht : 1 ≤ settings.timeout) (resendTo : Endpoint) :
    Watches settings.timeout [] false (new settings resendTo) := ⟨rfl, rfl, rfl, ht⟩

section Call

variable {timeout : Nat} {past : List Tick} {heard : Bool} {r : Receiver}

theorem Watches.onCall (h : Watches timeout past heard r) (now : Instant) {c : Call} (hc : c ≠ .livenessTick) :
    Watches timeout past (c.isTraffic || heard) (r.onCall now c).receiver := by
  obtain ⟨hactive, hidle⟩ := Prod.mk.inj (watch_onCall r now hc)
  refine ⟨?_, ?_, ?_, ?_⟩
  · rw [settings_onCall]
    exact h.patience
  · rw [hactive, h.active]
  · rw [hidle]
    exact h.idle
  · rw [hidle]
    exact h.below

/-- A tick answers by the run that it ends. -/
theorem Watches.failure_onTick (h : Watches timeout past heard r) :
    r.onLivenessTick.failure = verdict timeout past heard := by
  obtain ⟨htimeout, hactive, hidle, hbelow⟩ := h
  unfold onLivenessTick verdict
  rw [hactive, htimeout, hidle]
  rw [hidle] at hbelow
  cases heard with
  | true => rfl
  | false =>
    by_cases hlast : (idleRun past).length + 1 = timeout
    · simp [hlast]
    · have hgoes : ¬ timeout ≤ (idleRun past).length + 1 := by omega
      simp [hlast, hgoes, quiet]

/-- After a tick the number is the length of the run that the tick leaves. -/
theorem Watches.onTick (h : Watches timeout past heard r) :
    Watches timeout (past ++ [⟨heard, r.onLivenessTick.failure⟩]) false r.onLivenessTick.receiver := by
  obtain ⟨htimeout, hactive, hidle, hbelow⟩ := h
  unfold onLivenessTick
  rw [← hactive]
  split
  · next hheard =>
    refine ⟨htimeout, rfl, ?_, Nat.zero_lt_of_lt hbelow⟩
    rw [idleRun_concat, if_neg (by simp [Tick.idle, hheard])]
    rfl
  split
  · next hsilent _ =>
    refine ⟨htimeout, Bool.not_eq_true _ ▸ hsilent, ?_, Nat.zero_lt_of_lt hbelow⟩
    rw [idleRun_concat, if_neg (by simp [Tick.idle])]
    rfl
  · next hsilent hgoes =>
    rw [htimeout] at hgoes
    refine ⟨htimeout, Bool.not_eq_true _ ▸ hsilent, ?_, Nat.lt_of_not_le hgoes⟩
    rw [idleRun_concat, if_pos (by simp [Tick.idle, quiet, hsilent]), List.length_append, ← hidle]
    rfl

end Call

/-! ### Ticks in order -/

/-- Each tick answers by the ticks before it. -/
def Regular (timeout : Nat) (ts : List Tick) : Prop :=
  ∀ before t after, ts = before ++ t :: after → t.failure = verdict timeout before t.heard

theorem regular_nil (timeout : Nat) : Regular timeout [] := by
  intro before t after h
  cases before <;> cases h

section Regular

variable {timeout : Nat} {ts : List Tick}

theorem Regular.concat (h : Regular timeout ts) {t : Tick} (ht : t.failure = verdict timeout ts t.heard) :
    Regular timeout (ts ++ [t]) := by
  intro before u after heq
  rcases List.eq_nil_or_concat after with rfl | ⟨rest, last, rfl⟩
  · obtain ⟨rfl, hu⟩ := List.append_inj' heq rfl
    cases hu
    exact ht
  · rw [List.concat_eq_append, ← List.cons_append, ← List.append_assoc] at heq
    exact h before u rest (List.append_inj' heq rfl).1

/-- A tick that heard something or failed starts the count anew. -/
theorem Regular.failure_after (h : Regular timeout ts) {before between after : List Tick} {t u : Tick}
    (hts : ts = before ++ t :: between ++ u :: after) (ht : t.idle = false) (hfew : between.length + 1 < timeout) :
    u.failure = none := by
  have hrun := length_idleRun_le before between ht
  rw [h _ u after hts, verdict, if_neg]
  omega

/-- Among so many ticks in a row as the timeout says at most one fails. -/
theorem Regular.stretch (h : Regular timeout ts) {stretch : List Tick} (hin : stretch <:+: ts)
    (hlen : stretch.length ≤ timeout) : (stretch.filter (·.failure.isSome)).length ≤ 1 := by
  obtain ⟨before, after, rfl⟩ := hin
  by_contra hmany
  -- two of them fail, and the ticks between are fewer than the timeout
  obtain ⟨t, u, hpair⟩ : ∃ t u, [t, u].Sublist (stretch.filter (·.failure.isSome)) := by
    generalize stretch.filter (·.failure.isSome) = failed at hmany ⊢
    rcases failed with - | ⟨t, - | ⟨u, rest⟩⟩
    · exact absurd (Nat.zero_le _) hmany
    · exact absurd (Nat.le_refl _) hmany
    · exact ⟨t, u, ((List.nil_sublist rest).cons_cons u).cons_cons t⟩
  obtain ⟨ht, hu⟩ : t.failure.isSome = true ∧ u.failure.isSome = true := by
    constructor
    · exact (List.mem_filter.1 (hpair.subset (by simp))).2
    · exact (List.mem_filter.1 (hpair.subset (by simp))).2
  obtain ⟨first, second, rfl, htin, huin⟩ := List.cons_sublist_iff.1 (hpair.trans List.filter_sublist)
  obtain ⟨a, b, rfl⟩ := List.append_of_mem htin
  obtain ⟨c, d, rfl⟩ := List.append_of_mem (List.singleton_sublist.1 huin)
  have hnone : u.failure = none := by
    have hsplit : before ++ (a ++ t :: b ++ (c ++ u :: d)) ++ after =
        (before ++ a) ++ t :: (b ++ c) ++ u :: (d ++ after) := by
      simp only [List.append_assoc, List.cons_append]
    refine h.failure_after hsplit (by simp [Tick.idle, ht]) ?_
    simp only [List.length_append, List.length_cons] at hlen ⊢
    omega
  rw [hnone] at hu
  cases hu

end Regular

/-! ### Whole runs -/

/-- Whatever the calls are, the ticks among them answer as they should, and the receiver goes on watching. -/
theorem Watches.onCalls {timeout : Nat} {past : List Tick} {heard : Bool} {r : Receiver} (h : Watches timeout past heard r)
    (hpast : Regular timeout past) (calls : List (Instant × Call)) :
    Regular timeout (past ++ r.ticksFrom heard calls) ∧
      Watches timeout (past ++ r.ticksFrom heard calls) (heardAfter heard calls) (r.onCalls calls) := by
  induction calls generalizing past heard r with
  | nil =>
    rw [ticksFrom, List.append_nil]
    exact ⟨hpast, h⟩
  | cons call rest ih =>
    obtain ⟨now, c⟩ := call
    cases c with
    | livenessTick =>
      have hrest := ih h.onTick (hpast.concat h.failure_onTick)
      rw [List.append_assoc] at hrest
      exact hrest
    | _ => exact ih (h.onCall now (by simp)) hpast

/-- What was heard stays heard until the next tick. -/
theorem heard_of_ticksFrom {r : Receiver} {calls : List (Instant × Call)} {t : Tick} {rest : List Tick}
    (h : r.ticksFrom true calls = t :: rest) : t.heard = true := by
  induction calls generalizing r with
  | nil => cases h
  | cons call calls ih =>
    obtain ⟨now, c⟩ := call
    cases c with
    | livenessTick =>
      obtain ⟨rfl, -⟩ := List.cons.inj h
      rfl
    | snapshotFrame f => exact ih h
    | frame f => exact ih h
    | endOfSnapshot seq => exact ih h
    | requestTimer => exact ih h

/-- A receiver that has heard something gets through the next `timeout` ticks. -/
theorem Regular.heard {timeout : Nat} {past : List Tick} {r : Receiver} {calls : List (Instant × Call)}
    (h : Regular timeout (past ++ r.ticksFrom true calls)) :
    ∀ t ∈ (r.ticksFrom true calls).take timeout, t.failure = none := by
  intro t ht
  obtain ⟨before, after, hsplit⟩ := List.append_of_mem ht
  have hnext : r.ticksFrom true calls = before ++ t :: (after ++ (r.ticksFrom true calls).drop timeout) := by
    rw [← List.cons_append, ← List.append_assoc, ← hsplit, List.take_append_drop]
  have hlength : before.length + 1 ≤ timeout := by
    have hle := List.length_take_le timeout (r.ticksFrom true calls)
    rw [hsplit, List.length_append, List.length_cons] at hle
    omega
  cases before with
  | nil =>
    rw [h past t _ (by rw [hnext]; rfl), verdict, heard_of_ticksFrom hnext]
    rfl
  | cons first before =>
    have hfirst : first.idle = false := by
      rw [Tick.idle, heard_of_ticksFrom hnext]
      rfl
    have hparts : past ++ r.ticksFrom true calls =
        past ++ first :: before ++ t :: (after ++ (r.ticksFrom true calls).drop timeout) := by
      rw [List.append_assoc]
      exact congrArg (past ++ ·) hnext
    refine h.failure_after hparts hfirst ?_
    rw [List.length_cons] at hlength
    omega

/-- **A publisher is given up after `timeout` ticks without a sign of life, and only then.** Whatever frames of whatever
kind, ends of the snapshot and rings of the timers a new receiver was given:

* a tick fails exactly if nothing was heard before it and it is the one that completes a run of `timeout` such ticks since
  the start, the latest tick that heard something and the latest failure; it then says that there was no traffic for
  `timeout` ticks;
* of any `timeout` ticks in a row at most one fails;
* a frame of any kind starts the count anew: none of the next `timeout` ticks fails;
* in between, the number that is counted is the length of the present run, and below `timeout`. -/
theorem keepsWatch (settings : Settings) (resendTo : Endpoint) (calls : List (Instant × Call)) (ht : 1 ≤ settings.timeout) :
    let r := new settings resendTo
    (∀ before t after, r.ticks calls = before ++ t :: after →
        t.failure = if t.heard = false ∧ (idleRun before).length + 1 = settings.timeout
          then some (.silent settings.timeout) else none) ∧
      (∀ stretch, stretch <:+: r.ticks calls → stretch.length ≤ settings.timeout →
        (stretch.filter (·.failure.isSome)).length ≤ 1) ∧
      (∀ now c later, c.isTraffic = true → ∃ next, r.ticks (calls ++ (now, c) :: later) = r.ticks calls ++ next ∧
        ∀ t ∈ next.take settings.timeout, t.failure = none) ∧
      (r.onCalls calls).idleTicks = (idleRun (r.ticks calls)).length ∧ (r.onCalls calls).idleTicks < settings.timeout := by
  intro r
  have hnew := watches_new ht resendTo
  have hempty := regular_nil settings.timeout
  obtain ⟨hregular, hwatches⟩ := hnew.onCalls hempty calls
  refine ⟨hregular, fun stretch => hregular.stretch, fun now c later hc => ?_, hwatches.idle, hwatches.below⟩
  -- the flag that the frame sets is there for the next tick, whatever comes in between
  have hticks : r.ticks (calls ++ (now, c) :: later) =
      r.ticks calls ++ ((r.onCalls calls).onCall now c).receiver.ticksFrom true later := by
    rw [ticks, ticksFrom_append, ticksFrom_cons_of_traffic hc]
    rfl
  have hall := (hnew.onCalls hempty (calls ++ (now, c) :: later)).1
  rw [List.nil_append, ← ticks, hticks] at hall
  exact ⟨_, hticks, hall.heard⟩

/-- A frame after two idle ticks, and then nothing more. -/
def fallsSilent : List (Instant × Call) :=
  [(1, .livenessTick), (2, .livenessTick), (2, .frame ⟨⟨7, 0, 0, 1, noShard⟩, []⟩), (3, .livenessTick), (4, .livenessTick),
    (5, .requestTimer), (5, .livenessTick), (6, .livenessTick), (7, .livenessTick), (8, .livenessTick), (9, .livenessTick)]

/-- The frame comes before the third idle tick. After it the third, and again the third after that, gives up; then a frame
is heard just in time. -/
theorem keepsWatch_fallsSilent :
    let r := new Settings.default default
    1 ≤ Settings.default.timeout ∧
      (r.ticks fallsSilent).map (·.heard) = [false, false, true, false, false, false, false, false, false] ∧
        (r.ticks fallsSilent).map (·.failure) =
          [none, none, none, none, none, some (.silent 3), none, none, some (.silent 3)] ∧
          (r.onCalls (fallsSilent.take 9)).idleTicks = 1 ∧
            ∃ next, r.ticks (fallsSilent.take 10 ++ [(8, .snapshotFrame default), (9, .livenessTick), (10, .livenessTick)]) =
              r.ticks (fallsSilent.take 10) ++ next ∧ ∀ t ∈ next.take 3, t.failure = none := by
  intro r
  have htimeout : 1 ≤ Settings.default.timeout := by decide
  obtain ⟨-, -, -, hidle, -⟩ := keepsWatch Settings.default default (fallsSilent.take 9) htimeout
  obtain ⟨-, -, hframe, -⟩ := keepsWatch Settings.default default (fallsSilent.take 10) htimeout
  refine ⟨htimeout, by decide +kernel, by decide +kernel, ?_, hframe 8 (.snapshotFrame default) _ rfl⟩
  rw [hidle]
  decide +kernel

end Receiver

end ReliableMulticast
