import ReliableMulticast.Proofs.Link.Generations
import ReliableMulticast.Proofs.Link.Intent

/-!
# The course of a link's attempts

How a link comes to its attempts is the same for both kinds of links. A `Helm` is what both controls have in common for
this: the `Bearing` of a link, on which its attempts depend, and the effects by which its changes of state and its attempts
are seen. All that a task does is a `Course` of legs (`Leg`) between bearings, each together with the action that the
machine has asked for and that is still to be carried out:

* an input is fed to the machine, which answers with an action. The task feeds it while nothing is to be carried out, or it
  is what becomes of an action (`Prompts`);
* an attempt is made, at the places that the machine and the channel stand for;
* a disconnect begins, or the deadline for the next attempt is set or cleared.

Which inputs a task may feed is its `Scope`. A helm is `Lawful` if all its tasks are courses in their scope, and if a
deadline that is not waited for does nothing when it has come.

A run without the operator's tasks is one course in the scope of what connections report (`Lawful.course_unattended`), and
every run is one course in the widest scope (`Lawful.course_run`).
-/

namespace ReliableMulticast.Link

/-! ### Legs -/

/-- What the attempts of a link depend on. -/
structure Bearing where
  machine : Machine
  channel : Channel
  /-- When the next attempt is due, if one was put off. -/
  reconnectAt : Option Instant
  /-- For how long attempts are put off, in nanoseconds. -/
  pause : Nat
deriving DecidableEq, Repr, Inhabited

/-- How changes of state and attempts are seen. -/
structure Watch (E : Type) where
  change? : E → Option (State × State)
  attempt : E → Bool
  /-- The attempt is made at these places. -/
  aims : E → Endpoints → Prop

/-- What a task may do on its own account. -/
structure Scope where
  feeds : Input → Prop
  renames : Channel → Prop
  /-- It is done at this time. -/
  time : Instant → Prop

/-- Where a machine goes from a bearing, and what it asks for. -/
def Bearing.fed (b : Bearing) (input : Input) : Bearing × Action :=
  ({ b with machine := (b.machine.step input).1 }, (b.machine.step input).2)

/-- The inputs that can be fed while an action is to be carried out. -/
inductive Prompts (s : Scope) (c : Channel) : Action → Input → Prop
  | task {input : Input} : s.feeds input → input ≠ .reconnectDue → Prompts s c .none input
  | released : Prompts s c .disconnect .disconnected
  | resumed : Prompts s c (.scheduleReconnect true) .reconnectDue
  | rejected {fault : ChannelFault} : c.fault? = some fault → Prompts s c .connect .failed

section Leg

variable {E : Type} (w : Watch E)

/-- The effects neither make an attempt nor show a change. -/
def Watch.Silent (effects : List E) : Prop := ∀ e ∈ effects, w.attempt e = false ∧ w.change? e = none

/-- A change of state is shown by one effect. -/
inductive Watch.Shows (old : State) : List E → State → Prop
  | same : Shows old [] old
  | change {new : State} {e : E} : new ≠ old → w.attempt e = false → w.change? e = some (old, new) → Shows old [e] new

inductive Leg (s : Scope) : Bearing × Action → List E → Bearing × Action → Prop
  | aside {b : Bearing} {a : Action} {effects : List E} : w.Silent effects → Leg s (b, a) effects (b, a)
  | rename {b : Bearing} {c : Channel} : s.renames c → Leg s (b, .none) [] ({ b with channel := c }, .none)
  | feed {b : Bearing} {a : Action} {input : Input} {effects : List E} : Prompts s b.channel a input →
    w.Shows b.machine.state effects (b.machine.step input).1.state → Leg s (b, a) effects (b.fed input)
  /-- The deadline for the next attempt has come. -/
  | ring {b : Bearing} {effects : List E} : s.feeds .reconnectDue →
    w.Shows b.machine.state effects (b.machine.step .reconnectDue).1.state →
      Leg s (b, .none) effects ({ b with reconnectAt := none }.fed .reconnectDue)
  | launch {b : Bearing} {e : E} : w.attempt e = true → w.change? e = none →
    w.aims e (b.channel.endpoints b.machine.isSecondary) → Leg s (b, .connect) [e] (b, .none)
  /-- A disconnect that takes longer than the task. -/
  | begin {b : Bearing} : Leg s (b, .disconnect) [] (b, .none)
  | putOff {b : Bearing} {now : Instant} : s.time now →
    Leg s (b, .scheduleReconnect false) [] ({ b with reconnectAt := some (now + b.pause) }, .none)
  | cancel {b : Bearing} : Leg s (b, .cancelReconnect) [] ({ b with reconnectAt := none }, .none)

abbrev Course (s : Scope) : Bearing × Action → List E → Bearing × Action → Prop := Chain (Leg w s)

variable {w} {s s' : Scope} {effects effects' : List E}

theorem Watch.Silent.append (h : w.Silent effects) (h' : w.Silent effects') : w.Silent (effects ++ effects') := by
  intro e he
  rcases List.mem_append.1 he with he | he
  · exact h e he
  · exact h' e he

theorem Watch.Shows.idle {old new : State} (h : w.Shows old effects new) : ∀ e ∈ effects, w.attempt e = false := by
  cases h with
  | same => simp
  | change _ hattempt _ => simpa using hattempt

/-- One scope allows all that another one does. -/
structure Scope.Le (s s' : Scope) : Prop where
  feeds : ∀ input, s.feeds input → s'.feeds input
  renames : ∀ c, s.renames c → s'.renames c
  time : ∀ now, s.time now → s'.time now

theorem Leg.mono (hle : s.Le s') {p p' : Bearing × Action} (h : Leg w s p effects p') : Leg w s' p effects p' := by
  cases h with
  | aside hsilent => exact .aside hsilent
  | rename hrenames => exact .rename (hle.renames _ hrenames)
  | feed hprompts hshows =>
    refine .feed ?_ hshows
    cases hprompts with
    | task hfeeds hne => exact .task (hle.feeds _ hfeeds) hne
    | released => exact .released
    | resumed => exact .resumed
    | rejected hfault => exact .rejected hfault
  | ring hfeeds hshows => exact .ring (hle.feeds _ hfeeds) hshows
  | launch hattempt hchange haims => exact .launch hattempt hchange haims
  | begin => exact .begin
  | putOff htime => exact .putOff (hle.time _ htime)
  | cancel => exact .cancel

theorem Course.mono (hle : s.Le s') {p p' : Bearing × Action} (h : Course w s p effects p') : Course w s' p effects p' := by
  induction h with
  | refl p => exact .refl p
  | step first _ ih => exact .step (first.mono hle) ih

end Leg

/-! ### Chains, cut at an effect -/

/-- An effect of a chain is an effect of one of its moves. -/
theorem Chain.cut {L E : Type} {move : L → List E → L → Prop} {l l' : L} {effects : List E} (h : Chain move l effects l')
    {pre post : List E} {e : E} (heffects : effects = pre ++ e :: post) :
    ∃ l₁ l₂ before own own' after, Chain move l before l₁ ∧ move l₁ (own ++ e :: own') l₂ ∧ Chain move l₂ after l' ∧
      pre = before ++ own ∧ post = own' ++ after := by
  induction h generalizing pre with
  | refl l => simp at heffects
  | @step l l₁ l' first rest hfirst hrest ih =>
    rcases List.append_eq_append_iff.1 heffects with ⟨others, rfl, hothers⟩ | ⟨others, rfl, hothers⟩
    · obtain ⟨l₂, l₃, before, own, own', after, hbefore, hmove, hafter, rfl, rfl⟩ := ih hothers
      exact ⟨l₂, l₃, first ++ before, own, own', after, .step hfirst hbefore, hmove, hafter, by simp, rfl⟩
    · cases others with
      | nil =>
        obtain ⟨l₂, l₃, before, own, own', after, hbefore, hmove, hafter, hpre, rfl⟩ := 
          ih (show rest = [] ++ e :: post from hothers.symm)
        refine ⟨l₂, l₃, pre ++ before, own, own', after, ?_, hmove, hafter, ?_, rfl⟩
        · have hstep := Chain.step hfirst hbefore
          rwa [List.append_nil] at hstep
        · rw [List.append_assoc, ← hpre, List.append_nil]
      | cons other others =>
        obtain ⟨rfl, rfl⟩ := List.cons.inj hothers
        exact ⟨l, l₁, [], pre, others, rest, .refl l, hfirst, hrest, rfl, rfl⟩

theorem singleton_eq_append {α : Type} {a b : α} {as bs : List α} (h : [a] = as ++ b :: bs) : as = [] ∧ a = b ∧ bs = [] := by
  cases as with
  | nil => simpa using h
  | cons first rest => simp at h

section Cut

variable {E : Type} {w : Watch E} {s : Scope} {p p' : Bearing × Action}

/-- An attempt, or a change of state, has a leg of its own. -/
theorem Leg.alone {effects own own' : List E} {e : E} (h : Leg w s p effects p')
    (he : ¬(w.attempt e = false ∧ w.change? e = none)) (heffects : effects = own ++ e :: own') : own = [] ∧ own' = [] := by
  have hshown {old new : State} (hshows : w.Shows old effects new) : own = [] ∧ own' = [] := by
    cases hshows with
    | same => simp at heffects
    | change => exact ⟨(singleton_eq_append heffects).1, (singleton_eq_append heffects).2.2⟩
  cases h with
  | aside hsilent => exact absurd (hsilent e (by simp [heffects])) he
  | feed _ hshows => exact hshown hshows
  | ring _ hshows => exact hshown hshows
  | launch => exact ⟨(singleton_eq_append heffects).1, (singleton_eq_append heffects).2.2⟩
  | rename => simp at heffects
  | begin => simp at heffects
  | putOff => simp at heffects
  | cancel => simp at heffects

theorem Watch.Shows.change_eq {old new : State} {c : State × State} {effects : List E} {e : E} (h : w.Shows old effects new)
    (heffects : effects = [e]) (hchange : w.change? e = some c) : c = (old, new) ∧ new ≠ old := by
  cases h with
  | same => cases heffects
  | @change _ e' hne _ hshown =>
    obtain rfl : e' = e := by simpa using heffects
    rw [hshown] at hchange
    exact ⟨(Option.some.inj hchange).symm, hne⟩

/-- A course, cut at an attempt or a change of state. -/
theorem Course.cut {pre post : List E} {e : E} (h : Course w s p (pre ++ e :: post) p')
    (he : ¬(w.attempt e = false ∧ w.change? e = none)) :
    ∃ q q', Course w s p pre q ∧ Leg w s q [e] q' ∧ Course w s q' post p' := by
  obtain ⟨q, q', before, own, own', after, hbefore, hleg, hafter, rfl, rfl⟩ := Chain.cut h rfl
  obtain ⟨rfl, rfl⟩ := hleg.alone he rfl
  rw [List.append_nil, List.nil_append]
  exact ⟨q, q', hbefore, hleg, hafter⟩

/-- An attempt is made where the machine and the channel say. -/
theorem Leg.launched {effects : List E} {e : E} (h : Leg w s p effects p') (heffects : effects = [e])
    (he : w.attempt e = true) : ∃ b, p = (b, .connect) ∧ p' = (b, .none) ∧ w.change? e = none ∧
      w.aims e (b.channel.endpoints b.machine.isSecondary) := by
  have hidle {old new : State} (hshows : w.Shows old effects new) : False := by
    have hfalse := hshows.idle e (by simp [heffects])
    rw [hfalse] at he
    cases he
  cases h with
  | aside hsilent =>
    have hfalse := (hsilent e (by simp [heffects])).1
    rw [hfalse] at he
    cases he
  | feed _ hshows => exact (hidle hshows).elim
  | ring _ hshows => exact (hidle hshows).elim
  | @launch b e' _ hchange haims =>
    obtain rfl : e' = e := by simpa using heffects
    exact ⟨b, rfl, rfl, hchange, haims⟩
  | rename => cases heffects
  | begin => cases heffects
  | putOff => cases heffects
  | cancel => cases heffects

theorem Leg.channel_eq {effects : List E} (h : Leg w s p effects p') (hs : ∀ c, ¬s.renames c) :
    p'.1.channel = p.1.channel := by
  cases h with
  | rename hrenames => exact absurd hrenames (hs _)
  | _ => rfl

theorem Course.channel_eq {effects : List E} (h : Course w s p effects p') (hs : ∀ c, ¬s.renames c) :
    p'.1.channel = p.1.channel := by
  induction h with
  | refl p => rfl
  | step first _ ih => exact ih.trans (first.channel_eq hs)

end Cut

/-! ### Tasks -/

/-- Who a task comes from. -/
inductive Kind
  | up
  | down
  | update (channel : Channel)
  /-- The deadline for the next attempt has come. -/
  | ring
  /-- What becomes of connections. -/
  | report
deriving DecidableEq, Repr, Inhabited

namespace Kind

def Updates (k : Kind) (p : Channel → Prop) : Prop := ∃ c, k = .update c ∧ p c

/-- What a task of this kind feeds to a machine that it finds like this. What becomes of connections may be learned in the
middle of any task. -/
def Feeds (k : Kind) (m : Machine) : Input → Prop
  | .up => k = .up ∨ (m.AtRest ∧ k.Updates fun _ => True)
  | .down => k = .down
  | .failed => k.Updates fun c => c.fault? ≠ none
  | .enable true => m.AtRest ∧ k.Updates fun _ => True
  | .enable false => k.Updates fun c => c.enabled = false
  | .reconnectDue => k = .ring
  | .connected => True
  | .disconnected => True
  | .reconnect _ => True

def scope (k : Kind) (m : Machine) (now : Instant) : Scope := ⟨k.Feeds m, fun _ => False, fun t => t = now⟩

/-- The bearing with the channel that the task comes with. -/
def note (k : Kind) (b : Bearing) : Bearing :=
  match k with
  | .update c => { b with channel := c }
  | _ => b

theorem note_machine (k : Kind) (b : Bearing) : (k.note b).machine = b.machine := by
  cases k <;> rfl

/-- The operator has no part in the task. -/
def Unattended (k : Kind) : Prop := k = .ring ∨ k = .report

end Kind

/-- All that connections report, at any time. -/
def Scope.unattended : Scope := ⟨Input.IsReport, fun _ => False, fun _ => True⟩

/-- Everything, at any time. -/
def Scope.any : Scope := ⟨fun _ => True, fun _ => True, fun _ => True⟩

theorem Scope.le_any (s : Scope) : s.Le .any := ⟨fun _ _ => trivial, fun _ _ => trivial, fun _ _ => trivial⟩

theorem Kind.Unattended.scope_le {k : Kind} (h : k.Unattended) (m : Machine) (now : Instant) :
    (k.scope m now).Le .unattended where
  feeds := by
    intro input hfeeds
    rcases h with rfl | rfl <;> rcases input with _ | _ | _ | _ | _ | _ | _ | (_ | _) <;>
      simp_all [Kind.scope, Kind.Feeds, Kind.Updates, Scope.unattended, Input.IsReport]
  renames := fun _ => id
  time := fun _ _ => trivial

theorem Kind.Unattended.note_eq {k : Kind} (h : k.Unattended) (b : Bearing) : k.note b = b := by
  rcases h with rfl | rfl <;> rfl

/-- What the controls of both kinds of links have in common for their attempts. -/
structure Helm (L Env Task E : Type) extends Core L Env Task E, Watch E where
  bearing : L → Bearing
  now : Env → Instant
  kind : Task → Kind
  /-- The link without a deadline for its next attempt. -/
  disarm : L → L

namespace Helm

variable {L Env Task E : Type} (h : Helm L Env Task E)

abbrev state (l : L) : State := (h.bearing l).machine.state

structure Lawful : Prop where
  course : ∀ (l : L) (env : Env) (task : Task),
    Course h.toWatch ((h.kind task).scope (h.bearing l).machine (h.now env)) ((h.kind task).note (h.bearing l), .none)
      (h.step l env task).2 (h.bearing (h.step l env task).1, .none)
  /-- A deadline that is not waited for does nothing. -/
  expires : ∀ (l : L) (env : Env) (task : Task), h.kind task = .ring → h.state l ≠ .reconnectPending →
    h.step l env task = (h.disarm l, [])

variable {h}

theorem Lawful.course_run (hl : h.Lawful) (l : L) (tasks : List (Env × Task)) :
    Course h.toWatch .any (h.bearing l, .none) (h.run l tasks).2 (h.bearing (h.run l tasks).1, .none) := by
  induction tasks generalizing l with
  | nil => exact .refl _
  | cons first rest ih =>
    obtain ⟨env, task⟩ := first
    have hnote : Course h.toWatch .any (h.bearing l, .none) [] ((h.kind task).note (h.bearing l), .none) := by
      cases h.kind task with
      | update c => exact .single (.rename trivial)
      | _ => exact .refl _
    exact (hnote.trans ((hl.course l env task).mono (Scope.le_any _))).trans (ih _)

theorem Lawful.course_unattended (hl : h.Lawful) (l : L) {tasks : List (Env × Task)}
    (htasks : ∀ p ∈ tasks, (h.kind p.2).Unattended) :
    Course h.toWatch .unattended (h.bearing l, .none) (h.run l tasks).2 (h.bearing (h.run l tasks).1, .none) := by
  induction tasks generalizing l with
  | nil => exact .refl _
  | cons first rest ih =>
    obtain ⟨env, task⟩ := first
    have hfirst : (h.kind task).Unattended := htasks _ List.mem_cons_self
    have hcourse := (hl.course l env task).mono (hfirst.scope_le _ _)
    rw [hfirst.note_eq] at hcourse
    exact hcourse.trans (ih _ fun p hp => htasks p (List.mem_cons_of_mem _ hp))

end Helm

end ReliableMulticast.Link
