import ReliableMulticast.Proofs.Publisher.Course
import ReliableMulticast.Proofs.Subscriber.Course

/-!
# Primary and secondary places

A link counts its failures since it was last up, or enabled, and its next attempt is made at the secondary places if their
number is odd. `Watch.failures` is that number, read off the changes of state that the link has shown; `count_changes` says
that it is the number of inputs `reconnect` that the machine was fed in the states `connecting` and `up`. The machine counts
modulo 2 ^ 32, which does not matter for the parity (`Counted.isSecondary`).

Once a failure is counted there is no other before the next attempt (`Spent`). Hence from one attempt to the next, without
the operator's part and without success, exactly one is counted (`Cycle`).

Main statement (`Link.fails_over`): in all runs of a new link of either kind each attempt is made where the number of
failures says. Attempts that fail alternate between primary and secondary places, the first one after the link was up is
made at the secondary places, and no failure is counted twice.
-/

namespace ReliableMulticast.Link

/-! ### Counting failures -/

/-- The number of failures after one more change of state. -/
def countChange (n : Nat) : State × State → Nat
  | (_, .up) => 0
  | (.disabled, .down) => 0
  | (.failed, .down) => 0
  | (_, .reconnecting) => n + 1
  | _ => n

instance (m : Machine) : Decidable m.AtRest := inferInstanceAs (Decidable (_ ∨ _))

/-- The number of failures after one more input. -/
def Machine.countInput (m : Machine) (n : Nat) : Input → Nat
  | .connected => if m.state = .connecting then 0 else n
  | .reconnect _ => if m.state = .connecting ∨ m.state = .up then n + 1 else n
  | .enable true => if m.AtRest then 0 else n
  | _ => n

/-- The changes of state that an input leads to. -/
def Machine.changes (m : Machine) (input : Input) : List (State × State) :=
  if (m.step input).1.state = m.state then [] else [(m.state, (m.step input).1.state)]

/-- Failures may be counted where they are fed, or where a change is shown. -/
theorem count_changes (m : Machine) (n : Nat) (input : Input) :
    (m.changes input).foldl countChange n = m.countInput n input := by
  obtain ⟨state, reconnects, immediate, begun⟩ := m
  rcases input with _ | _ | _ | _ | i | _ | _ | (_ | _) <;> cases state <;> cases begun <;> rfl

/-- The machine counts the failures, and none while the link is up. -/
structure Counted (m : Machine) (n : Nat) : Prop where
  reconnects : m.reconnects = .ofNat n
  up : m.state = .up → n = 0

theorem Counted.step {m : Machine} {n : Nat} (h : Counted m n) (input : Input) :
    Counted (m.step input).1 (m.countInput n input) := by
  obtain ⟨hreconnects, hup⟩ := h
  have hcount := count_changes m n input
  have htransition := m.transition input
  unfold Machine.changes at hcount
  generalize (m.step input).1 = m', (m.step input).2 = action at hcount htransition ⊢
  cases htransition with
  | stay =>
    rw [if_pos rfl] at hcount
    rw [← hcount]
    exact ⟨hreconnects, hup⟩
  | connect hinput => rcases hinput with rfl | rfl | rfl <;> exact ⟨hreconnects, nofun⟩
  | hangUp hinput =>
    rcases hinput with ⟨rfl, -⟩ | ⟨rfl, hstate, -⟩
    · exact ⟨hreconnects, nofun⟩
    · exact ⟨by simpa [Machine.countInput, hstate] using hreconnects, nofun⟩
  | retire hrest =>
    rcases hrest with ⟨rfl, rfl⟩ | ⟨rfl, rfl⟩ <;> exact ⟨hreconnects, nofun⟩
  | connected hstate => exact ⟨by simp [Machine.countInput, hstate], fun _ => by simp [Machine.countInput, hstate]⟩
  | fail hstate => exact ⟨by simp [Machine.countInput, hstate, hreconnects, UInt32.ofNat_add], nofun⟩
  | begin hstate =>
    rw [Machine.countInput, if_neg (by simp [hstate])]
    exact ⟨hreconnects, hup⟩
  | enable hrest => exact ⟨by simp [Machine.countInput, hrest], nofun⟩
  | _ => exact ⟨hreconnects, nofun⟩

/-- The parity survives the wrapping of the machine's counter. -/
theorem Counted.isSecondary {m : Machine} {n : Nat} (h : Counted m n) : m.isSecondary = (n % 2 == 1) := by
  have hparity : (UInt32.ofNat n % 2).toNat = n % 2 := by
    rw [UInt32.toNat_mod, UInt32.toNat_ofNat']
    show n % 2 ^ 32 % 2 = n % 2
    omega
  have hodd : UInt32.ofNat n % 2 = 1 ↔ n % 2 = 1 := by
    rw [← UInt32.toNat_inj, hparity]
    rfl
  unfold Machine.isSecondary
  rw [h.reconnects, Bool.eq_iff_iff, beq_iff_eq, beq_iff_eq]
  exact hodd

theorem odd_succ (n : Nat) : ((n + 1) % 2 == 1) = !(n % 2 == 1) := by
  rcases Nat.mod_two_eq_zero_or_one n with h | h <;> simp [Nat.add_mod, h]

theorem counted_new (enabled : Bool) : Counted (Machine.new enabled) 0 := by
  cases enabled <;> exact ⟨rfl, by simp [Machine.new]⟩

section Count

variable {E : Type} (w : Watch E)

/-- The number of failures after further effects. -/
def Watch.count (n : Nat) (effects : List E) : Nat := (effects.filterMap w.change?).foldl countChange n

/-- The failures since the link was last up or enabled, or else since it is there. -/
def Watch.failures (effects : List E) : Nat := w.count 0 effects

/-- What the number of failures says about the next attempt. -/
def Watch.secondary (effects : List E) : Bool := w.failures effects % 2 == 1

variable {w} {s : Scope} {p p' : Bearing × Action} {effects : List E} {n k : Nat}

theorem count_append (effects effects' : List E) : w.count n (effects ++ effects') = w.count (w.count n effects) effects' := by
  unfold Watch.count
  rw [List.filterMap_append, List.foldl_append]

theorem count_of_silent (h : w.Silent effects) : w.count n effects = n := by
  unfold Watch.count
  rw [List.filterMap_eq_nil_iff.2 fun e he => (h e he).2]
  rfl

theorem count_of_shows {m : Machine} {input : Input} (h : w.Shows m.state effects (m.step input).1.state) :
    w.count n effects = m.countInput n input := by
  rw [← count_changes]
  unfold Watch.count Machine.changes
  generalize (m.step input).1.state = new at h ⊢
  cases h with
  | same => simp
  | change hne _ hchange => simp [hne, hchange]

theorem Leg.counted (h : Leg w s p effects p') (hn : Counted p.1.machine n) : Counted p'.1.machine (w.count n effects) := by
  cases h with
  | aside hsilent =>
    rw [count_of_silent hsilent]
    exact hn
  | feed _ hshows =>
    rw [count_of_shows hshows]
    exact hn.step _
  | ring _ hshows =>
    rw [count_of_shows hshows]
    exact hn.step _
  | @launch b e _ hchange _ =>
    have hsame : w.count n [e] = n := by simp [Watch.count, hchange]
    rw [hsame]
    exact hn
  | rename => exact hn
  | begin => exact hn
  | putOff => exact hn
  | cancel => exact hn

theorem Course.counted (h : Course w s p effects p') (hn : Counted p.1.machine n) :
    Counted p'.1.machine (w.count n effects) := by
  induction h generalizing n with
  | refl p => exact hn
  | step first _ ih =>
    rw [count_append]
    exact ih (first.counted hn)

/-- An attempt is made where the number of failures says. -/
theorem Course.aims {pre post : List E} {e : E} (h : Course w s p (pre ++ e :: post) p') (hs : ∀ c, ¬s.renames c)
    (hn : Counted p.1.machine n) (he : w.attempt e = true) :
    w.aims e (p'.1.channel.endpoints (w.count n pre % 2 == 1)) := by
  obtain ⟨q, q', hbefore, hleg, hafter⟩ := Course.cut h (by simp [he])
  obtain ⟨b, rfl, rfl, -, haims⟩ := hleg.launched rfl he
  have hcounted : Counted b.machine (w.count n pre) := hbefore.counted hn
  rw [hcounted.isSecondary] at haims
  rw [hafter.channel_eq hs]
  exact haims

/-! ### One failure for each attempt -/

/-- No further failure is counted before the next attempt. -/
structure Spent (p : Bearing × Action) : Prop where
  up : p.1.machine.state ≠ .up
  connecting : p.1.machine.state = .connecting → p.2 = .connect
  begun : p.1.machine.state = .disconnectPending → p.1.machine.begun = true

theorem Spent.fed {b : Bearing} {a : Action} (h : Spent (b, a)) {input : Input} (hinput : a = .connect → input = .failed) :
    Spent (b.fed input) := by
  obtain ⟨hup, hconnecting, hbegun⟩ := h
  -- an attempt that is still to be made is only ever given up
  have hlast : b.machine.state = .connecting → input = .failed ∧ (b.machine.step input).1.AtRest := fun hstate => by
    obtain rfl := hinput (hconnecting hstate)
    exact ⟨rfl, b.machine.rest_of_failed⟩
  have htransition := b.machine.transition input
  unfold Bearing.fed
  generalize (b.machine.step input).1 = m', (b.machine.step input).2 = action at hlast htransition ⊢
  cases htransition with
  | stay =>
    refine ⟨hup, fun hstate => ?_, hbegun⟩
    rcases (hlast hstate).2 with hdisabled | hfailed
    · exact absurd (hstate.symm.trans hdisabled) nofun
    · exact absurd (hstate.symm.trans hfailed) nofun
  | connect => exact ⟨nofun, fun _ => rfl, nofun⟩
  | resume hstate hnot => exact absurd ((hbegun hstate).symm.trans hnot) nofun
  | giveUp hstate => exact absurd (hlast hstate).1 nofun
  | connected hstate => exact absurd (hlast hstate).1 nofun
  | begin hstate hnot => exact absurd ((hbegun hstate).symm.trans hnot) nofun
  | relent => exact ⟨nofun, nofun, fun _ => rfl⟩
  | retire hrest => rcases hrest with ⟨-, rfl⟩ | ⟨-, rfl⟩ <;> exact ⟨nofun, nofun, nofun⟩
  | _ => exact ⟨nofun, nofun, nofun⟩

theorem Leg.spent (h : Leg w s p effects p') (hp : Spent p) (hidle : ∀ e ∈ effects, w.attempt e = false) : Spent p' := by
  cases h with
  | aside => exact hp
  | rename => exact ⟨hp.up, hp.connecting, hp.begun⟩
  | feed hprompts =>
    refine hp.fed ?_
    rintro rfl
    cases hprompts
    rfl
  | @ring b =>
    exact Spent.fed (b := { b with reconnectAt := none }) (a := .none) ⟨hp.up, hp.connecting, hp.begun⟩ (by simp)
  | launch hattempt =>
    rw [hidle _ List.mem_cons_self] at hattempt
    cases hattempt
  | begin => exact ⟨hp.up, fun hstate => absurd (hp.connecting hstate) (by simp), hp.begun⟩
  | putOff => exact ⟨hp.up, fun hstate => absurd (hp.connecting hstate) (by simp), hp.begun⟩
  | cancel => exact ⟨hp.up, fun hstate => absurd (hp.connecting hstate) (by simp), hp.begun⟩

theorem Course.spent (h : Course w s p effects p') (hp : Spent p) (hidle : ∀ e ∈ effects, w.attempt e = false) : Spent p' := by
  induction h with
  | refl p => exact hp
  | step first _ ih =>
    exact ih (first.spent hp fun e he => hidle e (List.mem_append_left _ he))
      fun e he => hidle e (List.mem_append_right _ he)

/-- A failure is counted for an attempt, or for a connection. -/
theorem Machine.reconnect_of_reconnecting {m : Machine} {input : Input} (h : (m.step input).1.state = .reconnecting)
    (hne : m.state ≠ .reconnecting) :
    (∃ immediate, input = .reconnect immediate) ∧ (m.state = .connecting ∨ m.state = .up) := by
  have htransition := m.transition input
  generalize (m.step input).1 = m', (m.step input).2 = action at htransition h
  cases htransition with
  | fail hstate => exact ⟨⟨_, rfl⟩, hstate⟩
  | retire hrest => rcases hrest with ⟨-, rfl⟩ | ⟨-, rfl⟩ <;> cases h
  | stay => exact absurd h hne
  | begin => exact absurd h hne
  | _ => cases h

/-- The effect shows that a failure was counted. -/
def Watch.counts (w : Watch E) (e : E) : Prop := ∃ old, w.change? e = some (old, .reconnecting)

/-- An input with which a failure is counted. -/
theorem not_spent_of_shows {b : Bearing} {a : Action} {input : Input} {e : E}
    (hfed : ∀ immediate, input = .reconnect immediate → a = .none)
    (hshows : w.Shows b.machine.state effects (b.machine.step input).1.state) (heffects : effects = [e])
    (he : w.counts e) : ¬Spent (b, a) ∧ (b.machine.step input).1.state = .reconnecting := by
  obtain ⟨old, hold⟩ := he
  obtain ⟨heq, hne⟩ := hshows.change_eq heffects hold
  obtain ⟨rfl, hreconnecting⟩ := Prod.mk.inj heq
  obtain ⟨⟨immediate, hinput⟩, hstate⟩ := Machine.reconnect_of_reconnecting hreconnecting.symm (hreconnecting ▸ hne.symm)
  obtain rfl := hfed immediate hinput
  refine ⟨fun hspent => ?_, hreconnecting.symm⟩
  rcases hstate with hstate | hstate
  · exact absurd (hspent.connecting hstate) (by simp)
  · exact hspent.up hstate

theorem spent_of_reconnecting (h : p.1.machine.state = .reconnecting) : Spent p :=
  ⟨by simp [h], by simp [h], by simp [h]⟩

theorem Leg.spends {e : E} (h : Leg w s p effects p') (heffects : effects = [e]) (he : w.counts e) : ¬Spent p ∧ Spent p' := by
  cases h with
  | aside hsilent =>
    obtain ⟨old, hold⟩ := he
    rw [(hsilent e (by simp [heffects])).2] at hold
    cases hold
  | @feed b a input _ hprompts hshows =>
    have hnothing : ∀ immediate, input = .reconnect immediate → a = .none := by
      rintro immediate rfl
      cases hprompts
      rfl
    have hfed := not_spent_of_shows hnothing hshows heffects he
    exact ⟨hfed.1, spent_of_reconnecting hfed.2⟩
  | @ring b _ _ hshows =>
    have hfed := not_spent_of_shows (a := .none) (by simp) hshows heffects he
    exact ⟨hfed.1, spent_of_reconnecting hfed.2⟩
  | @launch _ e' _ hchange _ =>
    obtain rfl : e' = e := by simpa using heffects
    obtain ⟨old, hold⟩ := he
    rw [hchange] at hold
    cases hold
  | rename => cases heffects
  | begin => cases heffects
  | putOff => cases heffects
  | cancel => cases heffects

/-- Between two failures that are counted there is an attempt. -/
theorem Course.attempt_between {pre mid post : List E} {e₁ e₂ : E}
    (h : Course w s p (pre ++ e₁ :: (mid ++ e₂ :: post)) p') (h₁ : w.counts e₁) (h₂ : w.counts e₂) :
    ∃ e ∈ mid, w.attempt e = true := by
  have hshown {e : E} (he : w.counts e) : ¬(w.attempt e = false ∧ w.change? e = none) := by
    obtain ⟨old, hold⟩ := he
    simp [hold]
  obtain ⟨q₁, q₁', -, hleg₁, hrest⟩ := Course.cut h (hshown h₁)
  obtain ⟨q₂, q₂', hmid, hleg₂, -⟩ := Course.cut hrest (hshown h₂)
  by_contra hnone
  have hidle : ∀ e ∈ mid, w.attempt e = false := fun e he => by simpa using fun hattempt => hnone ⟨e, he, hattempt⟩
  exact (hleg₂.spends rfl h₂).1 (Course.spent hmid (hleg₁.spends rfl h₁).2 hidle)

/-! ### From one attempt to the next -/

/-- A link that is connecting or up, or the failure of that has been counted. -/
inductive Cycle (k : Nat) : Bearing × Action → Nat → Prop
  | trying {b : Bearing} : b.machine.state = .connecting ∨ b.machine.state = .up → Cycle k (b, .none) k
  | failed {p : Bearing × Action} : Spent p → Cycle k p (k + 1)

/-- What connections report to a link that is connecting or up. -/
theorem cycle_report {b : Bearing} {input : Input} (hinput : input.IsReport)
    (hstate : b.machine.state = .connecting ∨ b.machine.state = .up)
    (hup : k = 0 ∨ (b.machine.step input).1.state ≠ .up ∨ b.machine.state = .up) :
    Cycle k (b.fed input) (b.machine.countInput k input) := by
  obtain ⟨⟨state, reconnects, immediate, begun⟩, channel, reconnectAt, pause⟩ := b
  dsimp only at hstate hup
  cases input with
  | connected =>
    rcases hstate with rfl | rfl
    · obtain rfl : k = 0 := by simpa [Machine.step, Machine.onConnected, Machine.goTo] using hup
      exact .trying (Or.inr rfl)
    · exact .trying (Or.inr rfl)
  | disconnected =>
    rcases hstate with rfl | rfl <;> exact .trying (by simp [Machine.step, Machine.onDisconnected, Machine.stay])
  | reconnect immediate' => rcases hstate with rfl | rfl <;> exact .failed (spent_of_reconnecting rfl)
  | reconnectDue =>
    rcases hstate with rfl | rfl <;> exact .trying (by simp [Machine.step, Machine.onReconnectDue, Machine.stay])
  | up => exact hinput.elim
  | down => exact hinput.elim
  | failed => exact hinput.elim
  | enable enabled => exact hinput.elim

theorem Spent.countInput {b : Bearing} {a : Action} {c : Channel} {input : Input} (h : Spent (b, a))
    (hprompts : Prompts .unattended c a input) : b.machine.countInput n input = n := by
  cases hprompts with
  | released => rfl
  | resumed => rfl
  | rejected => rfl
  | task hreport =>
    have hconnecting : b.machine.state ≠ .connecting := fun hstate => absurd (h.connecting hstate) (by simp)
    cases input with
    | connected => exact if_neg hconnecting
    | reconnect immediate => exact if_neg (not_or.2 ⟨hconnecting, h.up⟩)
    | disconnected => rfl
    | reconnectDue => rfl
    | up => rfl
    | down => rfl
    | failed => rfl
    | enable enabled => exact hreport.elim

theorem Leg.count_of_spent (h : Leg w .unattended p effects p') (hp : Spent p) : w.count n effects = n := by
  cases h with
  | aside hsilent => exact count_of_silent hsilent
  | feed hprompts hshows => rw [count_of_shows hshows, hp.countInput hprompts]
  | ring _ hshows => rw [count_of_shows hshows]; rfl
  | launch _ hchange => simp [Watch.count, hchange]
  | rename => rfl
  | begin => rfl
  | putOff => rfl
  | cancel => rfl

theorem up_of_shows {old new : State} (hshows : w.Shows old effects new)
    (hup : k = 0 ∨ ∀ e ∈ effects, ∀ old, w.change? e ≠ some (old, .up)) : k = 0 ∨ new ≠ .up ∨ old = .up := by
  cases hshows with
  | same => by_cases hold : old = .up <;> simp [hold]
  | @change _ e _ _ hchange =>
    refine hup.imp_right fun hnever => Or.inl ?_
    rintro rfl
    exact hnever e List.mem_cons_self old hchange

theorem Leg.cycle (h : Leg w .unattended p effects p') (hidle : ∀ e ∈ effects, w.attempt e = false)
    (hup : k = 0 ∨ ∀ e ∈ effects, ∀ old, w.change? e ≠ some (old, .up)) (hp : Cycle k p n) :
    Cycle k p' (w.count n effects) := by
  cases hp with
  | failed hspent =>
    rw [h.count_of_spent hspent]
    exact .failed (h.spent hspent hidle)
  | @trying b hstate =>
    cases h with
    | aside hsilent =>
      rw [count_of_silent hsilent]
      exact .trying hstate
    | rename hrenames => exact hrenames.elim
    | feed hprompts hshows =>
      cases hprompts with
      | task hreport =>
        rw [count_of_shows hshows]
        exact cycle_report hreport hstate (up_of_shows hshows hup)
    | ring _ hshows =>
      rw [count_of_shows hshows]
      exact cycle_report (b := { b with reconnectAt := none }) trivial hstate (up_of_shows hshows hup)

theorem Course.cycle (h : Course w .unattended p effects p') (hidle : ∀ e ∈ effects, w.attempt e = false)
    (hup : k = 0 ∨ ∀ e ∈ effects, ∀ old, w.change? e ≠ some (old, .up)) (hp : Cycle k p n) :
    Cycle k p' (w.count n effects) := by
  induction h generalizing n with
  | refl p => exact hp
  | step first _ ih =>
    rw [count_append]
    refine ih (fun e he => hidle e (List.mem_append_right _ he)) (hup.imp_right fun hnever e he => ?_) ?_
    · exact hnever e (List.mem_append_right _ he)
    · refine first.cycle (fun e he => hidle e (List.mem_append_left _ he)) (hup.imp_right fun hnever e he => ?_) hp
      exact hnever e (List.mem_append_left _ he)

/-- A machine asks for an attempt when it starts to connect. -/
theorem Machine.connecting_of_connect {m : Machine} {input : Input} (h : (m.step input).2 = .connect) :
    (m.step input).1.state = .connecting := by
  have htransition := m.transition input
  generalize (m.step input).1 = m', (m.step input).2 = action at htransition h ⊢
  cases htransition with
  | connect => rfl
  | retire _ haction => exact absurd h haction
  | _ => cases h

def Aimed (p : Bearing × Action) : Prop := p.2 = .connect → p.1.machine.state = .connecting

theorem Course.aimed (h : Course w s p effects p') (hp : Aimed p) : Aimed p' := by
  induction h with
  | refl p => exact hp
  | step first _ ih =>
    refine ih ?_
    cases first with
    | aside => exact hp
    | feed => exact Machine.connecting_of_connect
    | ring => exact Machine.connecting_of_connect
    | rename => exact nofun
    | launch => exact nofun
    | begin => exact nofun
    | putOff => exact nofun
    | cancel => exact nofun

/-- Without the operator's part an attempt is made where the one before it was not, unless that one was successful. -/
theorem Course.alternates {pre mid post : List E} {e₁ e₂ : E} {b : Bearing}
    (h : Course w .unattended (b, .none) (pre ++ e₁ :: (mid ++ e₂ :: post)) p') (h₁ : w.attempt e₁ = true)
    (h₂ : w.attempt e₂ = true) (hidle : ∀ e ∈ mid, w.attempt e = false)
    (hup : ∀ e ∈ mid, ∀ old, w.change? e ≠ some (old, .up)) :
    w.count n (pre ++ e₁ :: mid) = w.count n pre + 1 := by
  obtain ⟨q₁, q₁', hpre, hleg₁, hrest⟩ := Course.cut h (by simp [h₁])
  obtain ⟨b₁, rfl, rfl, hchange, -⟩ := hleg₁.launched rfl h₁
  obtain ⟨q₂, q₂', hmid, hleg₂, -⟩ := Course.cut hrest (by simp [h₂])
  obtain ⟨b₂, rfl, rfl, -, -⟩ := hleg₂.launched rfl h₂
  have hconnecting : b₁.machine.state = .connecting := hpre.aimed nofun rfl
  have hcycle := hmid.cycle hidle (Or.inr hup) (.trying (k := w.count n pre) (Or.inl hconnecting))
  have hsame : w.count (w.count n pre) (e₁ :: mid) = w.count (w.count n pre) mid := by
    simp [Watch.count, hchange]
  rw [count_append, hsame]
  generalize w.count (w.count n pre) mid = last at hcycle ⊢
  cases hcycle
  rfl

/-- The first attempt after the link was up, without the operator's part. -/
theorem Course.first {pre post : List E} {e : E} {b : Bearing} (h : Course w .unattended (b, .none) (pre ++ e :: post) p')
    (hup : b.machine.state = .up) (he : w.attempt e = true) (hidle : ∀ e ∈ pre, w.attempt e = false) :
    w.count 0 pre = 1 := by
  obtain ⟨q, q', hpre, hleg, -⟩ := Course.cut h (by simp [he])
  obtain ⟨b', rfl, rfl, -, -⟩ := hleg.launched rfl he
  have hcycle := hpre.cycle hidle (Or.inl rfl) (.trying (k := 0) (Or.inr hup))
  generalize w.count 0 pre = last at hcycle ⊢
  cases hcycle
  rfl

end Count

/-! ### Whole runs -/

section Runs

variable {L Env Task E : Type} (h : Helm L Env Task E)

/-- Where the attempts of a link are made, in all its runs. -/
structure Helm.FailsOver (l : L) : Prop where
  /-- Each attempt is made at the places of the channel that the number of failures says. -/
  aims : ∀ before env task pre e post, (h.step (h.run l before).1 env task).2 = pre ++ e :: post → h.attempt e = true →
    h.aims e ((h.bearing (h.step (h.run l before).1 env task).1).channel.endpoints
      (h.secondary ((h.run l before).2 ++ pre)))
  /-- Without the operator's part, the places alternate while attempts fail. -/
  alternates : ∀ before segment pre e₁ mid e₂ post, (∀ p ∈ segment, (h.kind p.2).Unattended) →
    (h.run (h.run l before).1 segment).2 = pre ++ e₁ :: (mid ++ e₂ :: post) → h.attempt e₁ = true → h.attempt e₂ = true →
      (∀ e ∈ mid, h.attempt e = false ∧ ∀ old, h.change? e ≠ some (old, .up)) →
        h.secondary ((h.run l before).2 ++ pre ++ e₁ :: mid) = !h.secondary ((h.run l before).2 ++ pre)
  /-- The first attempt after the link was up is made at the secondary places. -/
  first : ∀ before segment pre e post, (∀ p ∈ segment, (h.kind p.2).Unattended) → h.state (h.run l before).1 = .up →
    (h.run (h.run l before).1 segment).2 = pre ++ e :: post → h.attempt e = true → (∀ e ∈ pre, h.attempt e = false) →
      h.secondary ((h.run l before).2 ++ pre) = true
  /-- No failure is counted twice for an attempt. -/
  once : ∀ tasks pre e₁ mid e₂ post, (h.run l tasks).2 = pre ++ e₁ :: (mid ++ e₂ :: post) → h.counts e₁ → h.counts e₂ →
    ∃ e ∈ mid, h.attempt e = true

variable {h}

theorem Helm.Lawful.counted_run (hl : h.Lawful) {l : L} (hnew : Counted (h.bearing l).machine 0) (tasks : List (Env × Task)) :
    Counted (h.bearing (h.run l tasks).1).machine (h.failures (h.run l tasks).2) :=
  (hl.course_run l tasks).counted hnew

theorem Helm.Lawful.failsOver (hl : h.Lawful) {l : L} (hnew : Counted (h.bearing l).machine 0) : h.FailsOver l where
  aims := by
    intro before env task pre e post heffects he
    have hcourse := hl.course (h.run l before).1 env task
    have hcounted : Counted ((h.kind task).note (h.bearing (h.run l before).1)).machine
        (h.failures (h.run l before).2) := by
      rw [Kind.note_machine]
      exact hl.counted_run hnew before
    rw [heffects] at hcourse
    have haims := hcourse.aims (fun _ => id) hcounted he
    rw [Watch.failures, ← count_append] at haims
    exact haims
  alternates := by
    intro before segment pre e₁ mid e₂ post htasks heffects h₁ h₂ hmid
    have hcourse := hl.course_unattended (h.run l before).1 htasks
    rw [heffects] at hcourse
    have hone := hcourse.alternates (n := h.failures (h.run l before).2) h₁ h₂ (fun e he => (hmid e he).1)
      fun e he => (hmid e he).2
    unfold Watch.failures at hone
    unfold Watch.secondary Watch.failures
    rw [List.append_assoc, count_append, count_append (h.run l before).2 pre, hone]
    exact odd_succ _
  first := by
    intro before segment pre e post htasks hup heffects he hidle
    have hcourse := hl.course_unattended (h.run l before).1 htasks
    rw [heffects] at hcourse
    have hnone : h.count 0 (h.run l before).2 = 0 := (hl.counted_run hnew before).up hup
    unfold Watch.secondary Watch.failures
    rw [count_append, hnone, hcourse.first hup he hidle]
    rfl
  once := by
    intro tasks pre e₁ mid e₂ post heffects h₁ h₂
    have hcourse := hl.course_run l tasks
    rw [heffects] at hcourse
    exact hcourse.attempt_between h₁ h₂

end Runs

end ReliableMulticast.Link

namespace ReliableMulticast

theorem SubscriberLink.counted_new (channel : Channel) (settings : Settings) :
    Link.Counted (SubscriberLink.new channel settings).1.bearing.machine 0 := by
  unfold SubscriberLink.new
  dsimp only
  split
  · exact (Link.counted_new channel.enabled).step .failed
  · exact Link.counted_new channel.enabled

theorem PublisherLink.counted_new (channel : Channel) (settings : Settings) :
    Link.Counted (PublisherLink.new channel settings).1.bearing.machine 0 := by
  unfold PublisherLink.new
  dsimp only
  split
  · exact (Link.counted_new channel.enabled).step .failed
  · exact Link.counted_new channel.enabled

/-- An attempt of a subscriber's link leaves a connection, whose places are all those of the attempt. -/
theorem SubscriberLink.endpoints_of_attempt {l : SubscriberLink} (hnew : Link.Counted l.bearing.machine 0)
    (tasks : List (Surroundings × Task)) (env : Surroundings) (task : Task) {e : Effect}
    (he : e ∈ ((helm.run l tasks).1.onTask env task).2) (hattempt : e.attempt = true) :
    ∃ c, (helm.run l (tasks ++ [(env, task)])).1.connection = some c ∧
      c.endpoints = (helm.run l (tasks ++ [(env, task)])).1.channel.endpoints
        (helm.secondary (helm.run l (tasks ++ [(env, task)])).2) := by
  have hrun : (helm.run l (tasks ++ [(env, task)])).1 = ((helm.run l tasks).1.onTask env task).1 := by
    rw [Link.Core.run_append]
    rfl
  obtain ⟨pre, post, heffects⟩ := List.append_of_mem he
  obtain ⟨-, c, hc, -, hendpoints⟩ := launches_onTask _ env task pre e post heffects hattempt
  have hcounted := lawful_helm.counted_run hnew (tasks ++ [(env, task)])
  have hsecondary : (helm.run l (tasks ++ [(env, task)])).1.control.isSecondary =
      helm.secondary (helm.run l (tasks ++ [(env, task)])).2 := hcounted.isSecondary
  rw [← hrun] at hc hendpoints
  rw [hsecondary] at hendpoints
  exact ⟨c, hc, hendpoints⟩

/-- **Failover.** In every run of a new link, of either kind and however long, each attempt is made at the primary or at the
secondary places as the number of failures is even or odd, which alternate while attempts fail; a subscriber's connection
takes all its places from there. Failures are the inputs `reconnect` in the states `connecting` and `up`, since the link was
last up or enabled, each counted once. A secondary place without an ip or a port of its own has that of the primary one. -/
theorem Link.fails_over (channel : Channel) (settings : Settings) :
    SubscriberLink.helm.FailsOver (SubscriberLink.new channel settings).1 ∧
      PublisherLink.helm.FailsOver (PublisherLink.new channel settings).1 ∧
      (∀ tasks env task e, let helm := SubscriberLink.helm
        let after := helm.run (SubscriberLink.new channel settings).1 (tasks ++ [(env, task)])
        e ∈ (helm.step (helm.run (SubscriberLink.new channel settings).1 tasks).1 env task).2 → helm.attempt e = true →
          ∃ c, after.1.connection = some c ∧ c.endpoints = after.1.channel.endpoints (helm.secondary after.2)) ∧
      (∀ (m : Machine) n input, (m.changes input).foldl countChange n = m.countInput n input) ∧
      ∀ (c : Channel) useSecondary, c.endpoints useSecondary =
        ⟨c.tcp.endpoint useSecondary, c.udp.endpoint useSecondary, c.resend.endpoint useSecondary⟩ ∧
          ∀ s : Service, s.endpoint false = ⟨s.ip, s.port⟩ ∧ s.endpoint true = ⟨s.ip2.getD s.ip, s.port2.getD s.port⟩ := by
  have hsubscriber := SubscriberLink.counted_new channel settings
  refine ⟨SubscriberLink.lawful_helm.failsOver hsubscriber,
    PublisherLink.lawful_helm.failsOver (PublisherLink.counted_new channel settings), ?_, count_changes, ?_⟩
  · intro tasks env task e helm after he hattempt
    exact SubscriberLink.endpoints_of_attempt hsubscriber tasks env task he hattempt
  · exact fun c useSecondary => ⟨rfl, fun s => ⟨rfl, rfl⟩⟩

/-- A channel with a second place for logins. -/
def Link.doubled : Channel :=
  { Channel.new "md1" ⟨⟨10, 0, 0, 1⟩, 9000⟩ ⟨⟨239, 1, 1, 1⟩, 9001⟩ ⟨⟨10, 0, 0, 3⟩, 9002⟩ with
    tcp := ⟨⟨10, 0, 0, 1⟩, 9000, some ⟨10, 0, 0, 2⟩, none⟩ }

/-- The second attempt of a subscriber succeeds, so the count begins again when its connection is lost. -/
example :
    let tasks : List (SubscriberLink.Surroundings × SubscriberLink.Task) :=
      [.up, .tcpClosed 1 none, .reconnectDue, .tcpConnected 2 default, .tcpFrame 2 (.control (.login "" "") 0),
        .tcpClosed 2 none, .reconnectDue, .tcpClosed 3 none, .reconnectDue].map (⟨0, fun _ => .ok 1⟩, ·)
    let effects := (SubscriberLink.helm.run (SubscriberLink.new Link.doubled .default).1 tasks).2
    effects.filter SubscriberLink.helm.attempt =
      [.connect 1 ⟨⟨10, 0, 0, 1⟩, 9000⟩, .connect 2 ⟨⟨10, 0, 0, 2⟩, 9000⟩, .connect 3 ⟨⟨10, 0, 0, 2⟩, 9000⟩,
        .connect 4 ⟨⟨10, 0, 0, 1⟩, 9000⟩] := by
  decide +kernel

/-- Two attempts of a publisher are in vain, and the listener of the third one fails later. -/
example :
    let drains : List PublisherLink.Task := [.drained .detaching, .drained .draining, .drained .releasing]
    let vain : PublisherLink.Surroundings := ⟨0, fun _ => .error .addressInUse⟩
    let heard : PublisherLink.Surroundings := ⟨0, fun _ => .ok (1, 2)⟩
    let tasks := (.up :: drains).map (vain, ·) ++ (.reconnectDue :: drains).map (vain, ·) ++
      (.reconnectDue :: .listenerFailed 1 .tooManyOpenFiles :: drains).map (heard, ·) ++ [(heard, .reconnectDue)]
    let effects := (PublisherLink.helm.run (PublisherLink.new Link.doubled .default).1 tasks).2
    effects.filter PublisherLink.helm.attempt =
      [.listenInVain (Link.doubled.endpoints false), .listenInVain (Link.doubled.endpoints true),
        .listen 1 (Link.doubled.endpoints false), .listen 2 (Link.doubled.endpoints true)] := by
  decide +kernel

end ReliableMulticast
