import Mathlib.Data.List.Induction
import ReliableMulticast.Proofs.Subscriber.Manual
import ReliableMulticast.Subscriber.ResendCall

/-!
# The calls of operators beside each other

A `Desk` is the slot for manual requests together with all calls that operators have made on one link. A call takes the slot,
waits for the link to ask the publisher and then for its frame, and its steps are events of their own: others may come
between any two of them. In particular a call that has failed first stops waiting and withdraws later, so that another call
can have taken the slot that it left behind, and an operator can drop a call that waits at any time.

`Turn` says all that an event can do, with one constructor for each thing that can happen, and `Goes` what it can do to the
call whose step it is. From them come a few facts about one event: claims stay (`Turn.claim?_mono`), a new one has the next
ticket (`Turn.claim?_cases`), the slot comes to new claims only (`Turn.slot_cases`), and a frame comes to a caller by an offer
that finds its request in the slot (`Turn.received`). They carry the invariant `Sound` over whole runs (`sound_run`). `Takes`
names the offers of a run that were in the range of the call in the slot.

Main statement (`calls_apart`): at most one call waits, it gets the next frame in its range, the frame that a call returns
with comes from the only offer that was taken for it, no offer is taken for two calls, and a call that withdraws late or has
returned is in nobody's way.
-/

namespace ReliableMulticast

/-- How far an operator's call is. -/
inductive Course
  /-- It got no place to wait. -/
  | refused (failure : ResendFailure)
  | pending (c : ResendCall)
  /-- It has failed, and still holds the place where its frame would come. -/
  | failed (c : ResendCall) (failure : ResendFailure)
  /-- It does not wait any longer, and has yet to withdraw. -/
  | leaving (c : ResendCall) (failure : ResendFailure)
  | returned (c : ResendCall) (result : Except ResendFailure Frame)
  /-- It was dropped while it waited. -/
  | dropped (c : ResendCall)

namespace Course

/-- The ticket of a call and the range that it asked for. -/
def claim? : Course → Option (Nat × Gap)
  | refused _ => none
  | pending c => some (c.ticket, c.gap)
  | failed c _ => some (c.ticket, c.gap)
  | leaving c _ => some (c.ticket, c.gap)
  | returned c _ => some (c.ticket, c.gap)
  | dropped c => some (c.ticket, c.gap)

/-- What a call has returned with. -/
def result? : Course → Option (Except ResendFailure Frame)
  | refused failure => some (.error failure)
  | returned _ result => some result
  | _ => none

end Course

/-- The calls of operators on one link, with the slot that they share. -/
structure Desk where
  settings : Settings
  manual : ManualResend
  /-- All calls so far, oldest first. -/
  calls : List Course

namespace Desk

inductive Event
  /-- An operator asks for `count` frames from `seq` on. -/
  | call (seq count : Nat)
  /-- The link says whether it has asked the publisher. -/
  | asked (k : Nat) (now : Instant) (answer : Option ResendFailure)
  /-- The call looks whether its wait is over. -/
  | look (k : Nat) (now : Instant)
  /-- A call that has failed stops waiting. -/
  | letGo (k : Nat)
  | withdraw (k : Nat)
  /-- The operator drops a call that waits. -/
  | drop (k : Nat)
  | offer (f : Frame)
  /-- The link disconnects. -/
  | clear
deriving DecidableEq, Repr, Inhabited

/-- A step of a call that was made before. -/
def Event.Inner : Event → Prop
  | .call _ _ => False
  | .offer _ => False
  | .clear => False
  | _ => True

/-- A call that has got its frame returns. One that has failed has to stop waiting and to withdraw first, and
anything may happen in between. -/
def onEnd (d : Desk) (k : Nat) (c : ResendCall) : Except ResendFailure Frame × ManualResend → Desk
  | (.ok f, m) => { d with manual := m, calls := d.calls.set k (.returned c (.ok f)) }
  | (.error failure, _) => { d with calls := d.calls.set k (.failed c failure) }

def onAsked (d : Desk) (k : Nat) (now : Instant) (answer : Option ResendFailure) : Desk :=
  match d.calls[k]? with
  | some (.pending c) =>
    match c.stage with
    | .waiting _ => d
    | .asking =>
      match c.onAsked d.manual now answer with
      | .inl c => { d with calls := d.calls.set k (.pending c) }
      | .inr result => d.onEnd k c result
  | _ => d

def onLook (d : Desk) (k : Nat) (now : Instant) : Desk :=
  match d.calls[k]? with
  | some (.pending c) =>
    match c.poll d.manual now with
    | none => d
    | some result => d.onEnd k c result
  | _ => d

def step (d : Desk) : Event → Desk
  | .call seq count =>
    match ResendCall.start d.settings d.manual seq count with
    | .error failure => { d with calls := d.calls ++ [.refused failure] }
    | .ok (c, m) => { d with manual := m, calls := d.calls ++ [.pending c] }
  | .asked k now answer => d.onAsked k now answer
  | .look k now => d.onLook k now
  | .letGo k =>
    match d.calls[k]? with
    | some (.failed c failure) =>
      { d with manual := d.manual.giveUp c.ticket, calls := d.calls.set k (.leaving c failure) }
    | _ => d
  | .withdraw k =>
    match d.calls[k]? with
    | some (.leaving c failure) =>
      let (result, m) := c.fail d.manual failure
      { d with manual := m, calls := d.calls.set k (.returned c result) }
    | _ => d
  | .drop k =>
    match d.calls[k]? with
    | some (.pending c) => { d with manual := d.manual.giveUp c.ticket, calls := d.calls.set k (.dropped c) }
    | _ => d
  | .offer f => { d with manual := (d.manual.offer f).2 }
  | .clear => { d with manual := d.manual.clear }

def run (settings : Settings) (es : List Event) : Desk := es.foldl step ⟨settings, .new, []⟩

/-! ### What calls hold and get -/

def claim? (d : Desk) (k : Nat) : Option (Nat × Gap) := d.calls[k]?.bind Course.claim?

def result? (d : Desk) (k : Nat) : Option (Except ResendFailure Frame) := d.calls[k]?.bind Course.result?

/-- The slot holds the request of this call. -/
def Occupies (d : Desk) (k : Nat) : Prop := ∃ claim, d.claim? k = some claim ∧ d.manual.slot = some claim

/-- A frame for this call may still come, and it waits for it. -/
def Live (d : Desk) (k : Nat) : Prop := ∃ ticket gap, d.claim? k = some (ticket, gap) ∧ d.manual.reply ticket = .waiting

/-- The frame has come for this call, and waits for the call to look. -/
def Got (d : Desk) (k : Nat) (f : Frame) : Prop :=
  ∃ ticket gap, d.claim? k = some (ticket, gap) ∧ d.manual.reply ticket = .received f

/-- The slot holds the request of this call, with the frame in its range. -/
def Answers (d : Desk) (k : Nat) (f : Frame) : Prop :=
  ∃ ticket gap, d.claim? k = some (ticket, gap) ∧ d.manual.slot = some (ticket, gap) ∧ gap.contains f.seq = true

/-- The event at place `n` offers this frame while the slot holds the request of this call, and it is in range. -/
def Takes (settings : Settings) (es : List Event) (k n : Nat) (f : Frame) : Prop :=
  es[n]? = some (.offer f) ∧ (run settings (es.take n)).Answers k f

/-- The ranges that the calls asked for, oldest first. -/
def ranges (es : List Event) : List Gap :=
  es.filterMap fun
    | .call seq count => some ⟨seq, count⟩
    | _ => none

/-! ### One event -/

/-- How a call goes on, and what becomes of the slot. -/
inductive Goes (m : ManualResend) : Course → ManualResend → Course → Prop
  | waits {c c' : ResendCall} (ticket : c'.ticket = c.ticket) (gap : c'.gap = c.gap) : Goes m (.pending c) m (.pending c')
  | receives {c : ResendCall} {f : Frame} (received : m.reply c.ticket = .received f) :
      Goes m (.pending c) (m.act (.poll c.ticket)) (.returned c (.ok f))
  | fails {c : ResendCall} {failure : ResendFailure} : Goes m (.pending c) m (.failed c failure)
  | leaves {c : ResendCall} {failure : ResendFailure} :
      Goes m (.failed c failure) (m.act (.giveUp c.ticket)) (.leaving c failure)
  | withdraws {c : ResendCall} {failure : ResendFailure} :
      Goes m (.leaving c failure) (m.act (.withdraw c.ticket)) (.returned c (.error failure))
  | dropped {c : ResendCall} : Goes m (.pending c) (m.act (.giveUp c.ticket)) (.dropped c)

/-- All that an event can do to a desk. -/
inductive Turn (d : Desk) : Event → Desk → Prop
  | refused {seq count : Nat} {failure : ResendFailure} :
      Turn d (.call seq count) { d with calls := d.calls ++ [.refused failure] }
  | taken {seq count : Nat} {c : ResendCall} (free : d.manual.outstanding? = none)
      (ticket : c.ticket = d.manual.replies.length) (gap : c.gap = ⟨seq, count⟩) :
      Turn d (.call seq count) { d with manual := (d.manual.add c.gap).2, calls := d.calls ++ [.pending c] }
  | goes {e : Event} {k : Nat} {course course' : Course} {m : ManualResend} (inner : e.Inner)
      (here : d.calls[k]? = some course) (goes : Goes d.manual course m course') :
      Turn d e { d with manual := m, calls := d.calls.set k course' }
  | offered {f : Frame} : Turn d (.offer f) { d with manual := d.manual.act (.offer f) }
  | cleared : Turn d .clear { d with manual := d.manual.act .clear }
  | ignored {e : Event} (inner : e.Inner) : Turn d e d

theorem turn_onEnd_fail {d : Desk} {e : Event} {k : Nat} {c : ResendCall} {failure : ResendFailure}
    (inner : e.Inner) (here : d.calls[k]? = some (.pending c)) :
    Turn d e (d.onEnd k c (c.fail d.manual failure)) := .goes inner here .fails

theorem turn_onAsked (d : Desk) (k : Nat) (now : Instant) (answer : Option ResendFailure) :
    Turn d (.asked k now answer) (d.onAsked k now answer) := by
  unfold onAsked
  split
  · next c here =>
    split
    · exact .ignored trivial
    · cases answer with
      | none => exact .goes trivial here (.waits rfl rfl)
      | some failure => exact turn_onEnd_fail trivial here
  · exact .ignored trivial

theorem turn_onLook (d : Desk) (k : Nat) (now : Instant) : Turn d (.look k now) (d.onLook k now) := by
  unfold onLook ResendCall.poll
  split
  · next c here =>
    cases hstage : c.stage with
    | asking => exact .ignored trivial
    | waiting deadline =>
      dsimp only
      cases hpoll : d.manual.poll c.ticket with
      | mk reply m =>
        cases reply with
        | received f =>
          have hreply : d.manual.reply c.ticket = .received f := by rw [← d.manual.poll_fst c.ticket, hpoll]
          have hm : m = d.manual.act (.poll c.ticket) := by
            show m = (d.manual.poll c.ticket).2
            rw [hpoll]
          rw [hm]
          exact .goes trivial here (.receives hreply)
        | waiting =>
          dsimp only
          by_cases hlate : deadline ≤ now
          · rw [if_pos hlate]
            exact turn_onEnd_fail trivial here
          · rw [if_neg hlate]
            exact .ignored trivial
        | closed => exact turn_onEnd_fail trivial here
        | givenUp => exact turn_onEnd_fail trivial here
  · exact .ignored trivial

theorem turn_call (d : Desk) (seq count : Nat) : Turn d (.call seq count) (d.step (.call seq count)) := by
  unfold step ResendCall.start
  dsimp only
  split
  · next failure _ => exact .refused
  · next c m hstart =>
    split at hstart
    · cases hstart
    · unfold ManualResend.install at hstart
      cases hfree : d.manual.outstanding? with
      | some other =>
        rw [hfree] at hstart
        cases hstart
      | none =>
        rw [hfree] at hstart
        cases hstart
        exact .taken (c := ⟨⟨seq, count⟩, d.manual.replies.length, d.settings.requestInterval, .asking⟩) hfree rfl rfl

theorem turn (d : Desk) (e : Event) : Turn d e (d.step e) := by
  cases e with
  | call seq count => exact d.turn_call seq count
  | asked k now answer => exact d.turn_onAsked k now answer
  | look k now => exact d.turn_onLook k now
  | letGo k =>
    unfold step
    dsimp only
    split
    · next c failure here => exact .goes trivial here .leaves
    · exact .ignored trivial
  | withdraw k =>
    unfold step
    dsimp only
    split
    · next c failure here => exact .goes trivial here .withdraws
    · exact .ignored trivial
  | drop k =>
    unfold step
    dsimp only
    split
    · next c here => exact .goes trivial here .dropped
    · exact .ignored trivial
  | offer f => exact .offered
  | clear => exact .cleared

/-! ### What an event leaves alone -/

theorem Goes.claim?_eq {m m' : ManualResend} {course course' : Course} (h : Goes m course m' course') :
    course'.claim? = course.claim? := by
  cases h with
  | waits ticket gap => simp [Course.claim?, ticket, gap]
  | receives _ => rfl
  | fails => rfl
  | leaves => rfl
  | withdraws => rfl
  | dropped => rfl

/-- Calls that have returned do not go on. -/
theorem Goes.result?_eq_none {m m' : ManualResend} {course course' : Course} (h : Goes m course m' course') :
    course.result? = none := by
  cases h <;> rfl

theorem Goes.act {m m' : ManualResend} {course course' : Course} (h : Goes m course m' course') :
    m' = m ∨ ∃ a, m' = m.act a ∧ (∀ gap, a ≠ .install gap) ∧ ∀ f, a ≠ .offer f := by
  cases h with
  | waits _ _ => exact Or.inl rfl
  | fails => exact Or.inl rfl
  | receives _ => exact Or.inr ⟨_, rfl, by simp, by simp⟩
  | leaves => exact Or.inr ⟨_, rfl, by simp, by simp⟩
  | withdraws => exact Or.inr ⟨_, rfl, by simp, by simp⟩
  | dropped => exact Or.inr ⟨_, rfl, by simp, by simp⟩

section Turn

variable {d d' : Desk} {e : Event}

/-- What is read off the calls stays, where it is read off a call before and after its step alike. -/
theorem bind_set {α : Type} {calls : List Course} {k : Nat} {course course' : Course} (get : Course → Option α)
    (here : calls[k]? = some course) (hget : get course' = get course) (l : Nat) :
    (calls.set k course')[l]?.bind get = calls[l]?.bind get := by
  rw [List.getElem?_set]
  by_cases hk : k = l
  · obtain ⟨hlt, -⟩ := List.getElem?_eq_some_iff.1 here
    subst hk
    rw [if_pos rfl, if_pos hlt, here, Option.bind_some, Option.bind_some, hget]
  · rw [if_neg hk]

theorem bind_concat {α : Type} (calls : List Course) (course : Course) (get : Course → Option α) (l : Nat) :
    (calls ++ [course])[l]?.bind get = if l = calls.length then get course else calls[l]?.bind get := by
  rcases Nat.lt_trichotomy l calls.length with hlt | rfl | hgt
  · rw [List.getElem?_append_left hlt, if_neg (Nat.ne_of_lt hlt)]
  · rw [List.getElem?_concat_length, Option.bind_some, if_pos rfl]
  · rw [List.getElem?_eq_none (by rw [List.length_append, List.length_singleton]; omega),
      List.getElem?_eq_none (Nat.le_of_lt hgt), if_neg (by omega)]

theorem lt_length_of_bind {α : Type} {calls : List Course} {get : Course → Option α} {l : Nat} {x : α}
    (h : calls[l]?.bind get = some x) : l < calls.length := by
  refine Nat.lt_of_not_le fun hle => ?_
  rw [List.getElem?_eq_none hle] at h
  cases h

theorem Turn.claim?_mono (h : Turn d e d') {k : Nat} {claim : Nat × Gap} (hk : d.claim? k = some claim) :
    d'.claim? k = some claim := by
  have hne := Nat.ne_of_lt (lt_length_of_bind hk)
  unfold claim? at hk ⊢
  cases h with
  | refused => rwa [bind_concat, if_neg hne]
  | taken _ _ _ => rwa [bind_concat, if_neg hne]
  | goes _ here goes => rwa [bind_set Course.claim? here goes.claim?_eq]
  | offered => exact hk
  | cleared => exact hk
  | ignored _ => exact hk

/-- A new claim is one with the next ticket, and it has the slot. -/
theorem Turn.claim?_cases (h : Turn d e d') {k ticket : Nat} {gap : Gap} (hk : d'.claim? k = some (ticket, gap)) :
    d.claim? k = some (ticket, gap) ∨
      (k = d.calls.length ∧ e = .call gap.start gap.count ∧ ticket = d.manual.replies.length ∧
        d'.manual = (d.manual.add gap).2) := by
  unfold claim? at hk ⊢
  cases h with
  | refused =>
    rw [bind_concat] at hk
    split at hk
    · cases hk
    · exact Or.inl hk
  | taken free next range =>
    rw [bind_concat] at hk
    split at hk
    · next hlast =>
      cases hk
      exact Or.inr ⟨hlast, by rw [range], next, rfl⟩
    · exact Or.inl hk
  | goes _ here goes => exact Or.inl (by rwa [bind_set Course.claim? here goes.claim?_eq] at hk)
  | offered => exact Or.inl hk
  | cleared => exact Or.inl hk
  | ignored _ => exact Or.inl hk

theorem Turn.result?_mono (h : Turn d e d') {k : Nat} {result : Except ResendFailure Frame}
    (hk : d.result? k = some result) : d'.result? k = some result := by
  have hne := Nat.ne_of_lt (lt_length_of_bind hk)
  unfold result? at hk ⊢
  cases h with
  | refused => rwa [bind_concat, if_neg hne]
  | taken _ _ _ => rwa [bind_concat, if_neg hne]
  | @goes _ l course course' m _ here goes =>
    rw [List.getElem?_set]
    by_cases hl : l = k
    · subst hl
      rw [here, Option.bind_some, goes.result?_eq_none] at hk
      cases hk
    · rwa [if_neg hl]
  | offered => exact hk
  | cleared => exact hk
  | ignored _ => exact hk

/-- A call that returns got no place to wait, or it takes its frame, or it has withdrawn. -/
theorem Turn.result?_cases (h : Turn d e d') {k : Nat} {result : Except ResendFailure Frame}
    (hk : d'.result? k = some result) :
    d.result? k = some result ∨ (d'.claim? k = none ∧ ∀ f, result ≠ .ok f) ∨
      ∃ ticket gap, d.claim? k = some (ticket, gap) ∧
        ((∃ f, result = .ok f ∧ d.manual.reply ticket = .received f) ∨
          ((∀ f, result ≠ .ok f) ∧ d'.manual = d.manual.act (.withdraw ticket))) := by
  unfold result? at hk ⊢
  cases h with
  | refused =>
    rw [bind_concat] at hk
    split at hk
    · next hlast =>
      cases hk
      refine Or.inr (Or.inl ⟨?_, by simp⟩)
      unfold claim?
      rw [bind_concat, if_pos hlast]
      rfl
    · exact Or.inl hk
  | taken _ _ _ =>
    rw [bind_concat] at hk
    split at hk
    · cases hk
    · exact Or.inl hk
  | @goes _ l course course' m _ here goes =>
    rw [List.getElem?_set] at hk
    split at hk
    · next hl =>
      subst hl
      obtain ⟨hlt, -⟩ := List.getElem?_eq_some_iff.1 here
      rw [if_pos hlt, Option.bind_some] at hk
      have hclaim : d.claim? l = course.claim? := by
        unfold claim?
        rw [here, Option.bind_some]
      refine Or.inr (Or.inr ?_)
      cases goes with
      | @receives c f received =>
        cases hk
        exact ⟨c.ticket, c.gap, hclaim, Or.inl ⟨f, rfl, received⟩⟩
      | @withdraws c failure =>
        cases hk
        exact ⟨c.ticket, c.gap, hclaim, Or.inr ⟨by simp, rfl⟩⟩
      | waits _ _ => cases hk
      | fails => cases hk
      | leaves => cases hk
      | dropped => cases hk
    · exact Or.inl hk
  | offered => exact Or.inl hk
  | cleared => exact Or.inl hk
  | ignored _ => exact Or.inl hk

theorem Turn.length_calls (h : Turn d e d') : d'.calls.length = d.calls.length + (ranges [e]).length := by
  have hnone : e.Inner → ranges [e] = [] := by
    intro inner
    cases e with
    | call seq count => cases inner
    | _ => rfl
  cases h with
  | refused => exact List.length_append
  | taken _ _ _ => exact List.length_append
  | goes inner _ _ =>
    rw [hnone inner]
    exact List.length_set
  | offered => rfl
  | cleared => rfl
  | ignored inner =>
    rw [hnone inner]
    rfl

/-- The slot changes by one act at most; it comes to a new request only with the call that makes it. -/
theorem Turn.act (h : Turn d e d') :
    d'.manual = d.manual ∨ ∃ a, d'.manual = d.manual.act a ∧ (∀ f, a = .offer f → e = .offer f) ∧
      ∀ gap, a = .install gap → d.manual.outstanding? = none →
        d'.claim? d.calls.length = some (d.manual.replies.length, gap) := by
  cases h with
  | refused => exact Or.inl rfl
  | @taken _ _ c free next range =>
    refine Or.inr ⟨.install c.gap, ?_, by simp, ?_⟩
    · simp [ManualResend.act, ManualResend.install, free]
    · intro gap hgap _
      cases hgap
      unfold claim?
      rw [bind_concat, if_pos rfl, ← next]
      rfl
  | goes _ here goes =>
    rcases goes.act with hsame | ⟨a, hact, hinstall, hoffer⟩
    · exact Or.inl hsame
    · exact Or.inr ⟨a, hact, fun f hf => absurd hf (hoffer f), fun gap hgap => absurd hgap (hinstall gap)⟩
  | @offered f =>
    refine Or.inr ⟨.offer f, rfl, fun g hg => ?_, by simp⟩
    cases hg
    rfl
  | cleared => exact Or.inr ⟨.clear, rfl, by simp, by simp⟩
  | ignored _ => exact Or.inl rfl

/-- Whoever holds the slot held it before, or has just made its request. -/
theorem Turn.slot_cases (h : Turn d e d') {claim : Nat × Gap} (hslot : d'.manual.slot = some claim) :
    d.manual.slot = some claim ∨
      (claim.1 = d.manual.replies.length ∧ d'.claim? d.calls.length = some claim) := by
  rcases h.act with hsame | ⟨a, hact, -, hinstall⟩
  · rw [hsame] at hslot
    exact Or.inl hslot
  · rw [hact] at hslot
    rcases d.manual.act_cases a with ⟨gap, rfl, hfree, hadd⟩ | ⟨hkept | hnone, -⟩
    · rw [hadd] at hslot
      obtain rfl : (d.manual.replies.length, gap) = claim := Option.some.inj hslot
      exact Or.inr ⟨rfl, hinstall gap rfl hfree⟩
    · rw [hkept] at hslot
      exact Or.inl hslot
    · rw [hnone] at hslot
      cases hslot

theorem Turn.length_le (h : Turn d e d') : d.manual.replies.length ≤ d'.manual.replies.length := by
  rcases h.act with hsame | ⟨a, hact, -, -⟩
  · rw [hsame]
  · rw [hact]
    exact d.manual.length_le_act a

theorem Turn.manual_sound (h : Turn d e d') (hd : d.manual.Sound) : d'.manual.Sound := by
  rcases h.act with hsame | ⟨a, hact, -, -⟩
  · rwa [hsame]
  · rw [hact]
    exact hd.act a

/-- A caller gets a frame from an offer that finds its request in the slot. -/
theorem Turn.received (h : Turn d e d') {ticket : Nat} {f : Frame} (hr : d'.manual.reply ticket = .received f) :
    d.manual.reply ticket = .received f ∨
      (e = .offer f ∧ ∃ gap, d.manual.slot = some (ticket, gap) ∧ gap.contains f.seq = true) := by
  rcases h.act with hsame | ⟨a, hact, hoffer, -⟩
  · rw [hsame] at hr
    exact Or.inl hr
  · rw [hact] at hr
    rcases ManualResend.reply_act_received hr with hold | ⟨ha, hslot⟩
    · exact Or.inl hold
    · exact Or.inr ⟨hoffer f ha, hslot⟩

end Turn

/-! ### Whole runs -/

theorem run_concat (settings : Settings) (es : List Event) (e : Event) :
    run settings (es ++ [e]) = (run settings es).step e := List.foldl_concat ..

theorem takes_concat_iff {settings : Settings} {es : List Event} {e : Event} {k n : Nat} {f : Frame} :
    Takes settings (es ++ [e]) k n f ↔
      Takes settings es k n f ∨ (n = es.length ∧ e = .offer f ∧ (run settings es).Answers k f) := by
  unfold Takes
  rcases Nat.lt_trichotomy n es.length with hlt | rfl | hgt
  · rw [List.getElem?_append_left hlt, List.take_append_of_le_length (Nat.le_of_lt hlt)]
    constructor
    · exact Or.inl
    · rintro (hold | ⟨hn, -, -⟩)
      · exact hold
      · omega
  · rw [List.getElem?_concat_length, List.take_left' rfl, List.getElem?_eq_none (Nat.le_refl _)]
    simp
  · rw [List.getElem?_eq_none (by rw [List.length_append, List.length_singleton]; omega),
      List.getElem?_eq_none (Nat.le_of_lt hgt)]
    constructor
    · rintro ⟨h, -⟩
      cases h
    · rintro (⟨h, -⟩ | ⟨hn, -, -⟩)
      · cases h
      · omega

theorem ranges_concat (es : List Event) (e : Event) : ranges (es ++ [e]) = ranges es ++ ranges [e] :=
  List.filterMap_append

/-- What was asked for stays asked for. -/
theorem ranges_of_take {es : List Event} {n k : Nat} {gap : Gap} (h : (ranges (es.take n))[k]? = some gap) :
    (ranges es)[k]? = some gap := by
  have hsplit : ranges es = ranges (es.take n) ++ ranges (es.drop n) := by
    unfold ranges
    rw [← List.filterMap_append, List.take_append_drop]
  rw [hsplit, List.getElem?_append_left (List.getElem?_eq_some_iff.1 h).1]
  exact h

/-- What holds of a desk `d` after the events `es`. -/
structure Sound (settings : Settings) (es : List Event) (d : Desk) : Prop where
  manual : d.manual.Sound
  length : (ranges es).length = d.calls.length
  range : ∀ k ticket gap, d.claim? k = some (ticket, gap) → (ranges es)[k]? = some gap
  below : ∀ k ticket gap, d.claim? k = some (ticket, gap) → ticket < d.manual.replies.length
  apart : ∀ k l ticket gap gap', d.claim? k = some (ticket, gap) → d.claim? l = some (ticket, gap') → k = l
  owned : ∀ claim, d.manual.slot = some claim → ∃ k, d.claim? k = some claim
  returned : ∀ k result, d.result? k = some result → ¬ d.Occupies k
  taken : ∀ k n f, Takes settings es k n f → (∃ claim, d.claim? k = some claim) ∧ ¬ d.Occupies k
  got : ∀ k f, d.Got k f → ∃ n, Takes settings es k n f
  answered : ∀ k f, d.result? k = some (.ok f) → ∃ n, Takes settings es k n f

theorem sound_begin (settings : Settings) : Sound settings [] ⟨settings, .new, []⟩ where
  manual := ManualResend.sound_new
  length := rfl
  range k ticket gap h := by cases h
  below k ticket gap h := by cases h
  apart k l ticket gap gap' h := by cases h
  owned claim h := by cases h
  returned k result h := by cases h
  taken k n f h := by cases h.1
  got k f h := by
    obtain ⟨ticket, gap, hclaim, -⟩ := h
    cases hclaim
  answered k f h := by cases h

section Step

variable {settings : Settings} {es : List Event} {d d' : Desk} {e : Event}

/-- A call that has a ticket and does not hold the slot never holds it again. -/
theorem Turn.not_occupies (h : Turn d e d') (hd : Sound settings es d) {k : Nat} {claim : Nat × Gap}
    (hk : d.claim? k = some claim) (hnot : ¬ d.Occupies k) : ¬ d'.Occupies k := by
  rintro ⟨claim', hk', hslot⟩
  rw [h.claim?_mono hk] at hk'
  cases hk'
  rcases h.slot_cases hslot with hold | ⟨hnext, -⟩
  · exact hnot ⟨claim, hk, hold⟩
  · have hbelow := hd.below k claim.1 claim.2 hk
    omega

theorem Sound.range_step (h : Sound settings es d) {k ticket : Nat} {gap : Gap}
    (hk : (d.step e).claim? k = some (ticket, gap)) : (ranges (es ++ [e]))[k]? = some gap := by
  rw [ranges_concat]
  rcases (d.turn e).claim?_cases hk with hold | ⟨rfl, rfl, -, -⟩
  · have hgap := h.range k ticket gap hold
    rw [List.getElem?_append_left (List.getElem?_eq_some_iff.1 hgap).1]
    exact hgap
  · rw [← h.length]
    exact List.getElem?_concat_length

theorem Sound.below_step (h : Sound settings es d) {k ticket : Nat} {gap : Gap}
    (hk : (d.step e).claim? k = some (ticket, gap)) : ticket < (d.step e).manual.replies.length := by
  rcases (d.turn e).claim?_cases hk with hold | ⟨-, -, rfl, hadd⟩
  · exact Nat.lt_of_lt_of_le (h.below k ticket gap hold) (d.turn e).length_le
  · rw [hadd]
    simp [ManualResend.add]

theorem Sound.apart_step (h : Sound settings es d) {k l ticket : Nat} {gap gap' : Gap}
    (hk : (d.step e).claim? k = some (ticket, gap)) (hl : (d.step e).claim? l = some (ticket, gap')) : k = l := by
  rcases (d.turn e).claim?_cases hk with hk | ⟨hnewk, -, htk, -⟩
  · rcases (d.turn e).claim?_cases hl with hl | ⟨-, -, htl, -⟩
    · exact h.apart k l ticket gap gap' hk hl
    · have hbelow := h.below k ticket gap hk
      omega
  · rcases (d.turn e).claim?_cases hl with hl | ⟨hnewl, -, -, -⟩
    · have hbelow := h.below l ticket gap' hl
      omega
    · omega

theorem Sound.owned_step (h : Sound settings es d) {claim : Nat × Gap} (hslot : (d.step e).manual.slot = some claim) :
    ∃ k, (d.step e).claim? k = some claim := by
  rcases (d.turn e).slot_cases hslot with hold | ⟨-, hnew⟩
  · obtain ⟨k, hk⟩ := h.owned claim hold
    exact ⟨k, (d.turn e).claim?_mono hk⟩
  · exact ⟨_, hnew⟩

theorem Sound.returned_step (h : Sound settings es d) {k : Nat} {result : Except ResendFailure Frame}
    (hk : (d.step e).result? k = some result) : ¬ (d.step e).Occupies k := by
  rcases (d.turn e).result?_cases hk with hold | ⟨hnone, -⟩ | ⟨ticket, gap, hclaim, hend⟩
  · rintro ⟨claim, hclaim, hslot⟩
    rcases (d.turn e).claim?_cases hclaim with hbefore | ⟨hnew, -, -, -⟩
    · exact (d.turn e).not_occupies h hbefore (h.returned k result hold) ⟨claim, hclaim, hslot⟩
    · have hlt : k < d.calls.length := lt_length_of_bind hold
      omega
  · rintro ⟨claim, hclaim, -⟩
    rw [hnone] at hclaim
    cases hclaim
  · rcases hend with ⟨f, -, hreceived⟩ | ⟨-, hwithdrawn⟩
    · -- whoever has a frame has lost the slot
      refine (d.turn e).not_occupies h hclaim ?_
      rintro ⟨claim, hclaim', hslot⟩
      rw [hclaim] at hclaim'
      cases hclaim'
      rcases h.manual.holder ticket gap hslot with hwaiting | hgone
      · rw [hreceived] at hwaiting
        cases hwaiting
      · rw [hreceived] at hgone
        cases hgone
    · rintro ⟨claim, hclaim', hslot⟩
      rw [(d.turn e).claim?_mono hclaim] at hclaim'
      cases hclaim'
      rw [hwithdrawn] at hslot
      exact ManualResend.ne_of_slot_withdraw hslot rfl

theorem Sound.taken_step (h : Sound settings es (run settings es)) {k n : Nat} {f : Frame}
    (ht : Takes settings (es ++ [e]) k n f) :
    (∃ claim, ((run settings es).step e).claim? k = some claim) ∧ ¬ ((run settings es).step e).Occupies k := by
  rcases takes_concat_iff.1 ht with hold | ⟨-, rfl, ticket, gap, hclaim, hslot, hrange⟩
  · obtain ⟨⟨claim, hclaim⟩, hnot⟩ := h.taken k n f hold
    exact ⟨⟨claim, (turn _ e).claim?_mono hclaim⟩, (turn _ e).not_occupies h hclaim hnot⟩
  · refine ⟨⟨_, (turn _ _).claim?_mono hclaim⟩, ?_⟩
    rintro ⟨claim, -, hslot'⟩
    have hfree : ((run settings es).manual.offer f).2.slot = none := ManualResend.slot_offer hslot hrange
    rw [show ((run settings es).step (.offer f)).manual.slot = none from hfree] at hslot'
    cases hslot'

theorem Sound.got_step (h : Sound settings es (run settings es)) {k : Nat} {f : Frame}
    (hgot : ((run settings es).step e).Got k f) : ∃ n, Takes settings (es ++ [e]) k n f := by
  obtain ⟨ticket, gap, hk, hr⟩ := hgot
  rcases (turn _ e).claim?_cases hk with hk | ⟨-, rfl, hnext, -⟩
  · rcases (turn _ e).received hr with hold | ⟨rfl, gap', hslot, hrange⟩
    · obtain ⟨n, hn⟩ := h.got k f ⟨ticket, gap, hk, hold⟩
      exact ⟨n, takes_concat_iff.2 (Or.inl hn)⟩
    · obtain ⟨l, hl⟩ := h.owned _ hslot
      obtain rfl := h.apart k l ticket gap gap' hk hl
      exact ⟨es.length, takes_concat_iff.2 (Or.inr ⟨rfl, rfl, ticket, gap', hl, hslot, hrange⟩)⟩
  · -- a new caller has no frame yet
    rcases (turn _ _).received hr with hold | ⟨hoffer, -⟩
    · have hlt : ticket < (run settings es).manual.replies.length :=
        ManualResend.lt_length_of_reply (by rw [hold]; simp)
      omega
    · cases hoffer

theorem Sound.answered_step (h : Sound settings es (run settings es)) {k : Nat} {f : Frame}
    (hk : ((run settings es).step e).result? k = some (.ok f)) : ∃ n, Takes settings (es ++ [e]) k n f := by
  have hn : ∃ n, Takes settings es k n f := by
    rcases (turn _ e).result?_cases hk with hold | ⟨-, hfailed⟩ | ⟨ticket, gap, hclaim, hend⟩
    · exact h.answered k f hold
    · exact absurd rfl (hfailed f)
    · rcases hend with ⟨g, hg, hreceived⟩ | ⟨hfailed, -⟩
      · cases hg
        exact h.got k f ⟨ticket, gap, hclaim, hreceived⟩
      · exact absurd rfl (hfailed f)
  obtain ⟨n, hn⟩ := hn
  exact ⟨n, takes_concat_iff.2 (Or.inl hn)⟩

theorem Sound.step (h : Sound settings es (run settings es)) (e : Event) :
    Sound settings (es ++ [e]) (run settings (es ++ [e])) := by
  rw [run_concat]
  exact {
    manual := (turn _ e).manual_sound h.manual
    length := by rw [ranges_concat, List.length_append, h.length, (turn _ e).length_calls]
    range := fun _ _ _ => h.range_step
    below := fun _ _ _ => h.below_step
    apart := fun _ _ _ _ _ => h.apart_step
    owned := fun _ => h.owned_step
    returned := fun _ _ => h.returned_step
    taken := fun _ _ _ => h.taken_step
    got := fun _ _ => h.got_step
    answered := fun _ _ => h.answered_step }

end Step

theorem sound_run (settings : Settings) (es : List Event) : Sound settings es (run settings es) := by
  induction es using List.reverseRecOn with
  | nil => exact sound_begin settings
  | append_singleton es e ih => exact ih.step e

theorem result?_run_append {settings : Settings} {es : List Event} {k : Nat} {result : Except ResendFailure Frame}
    (hk : (run settings es).result? k = some result) (more : List Event) :
    (run settings (es ++ more)).result? k = some result := by
  induction more using List.reverseRecOn with
  | nil => rwa [List.append_nil]
  | append_singleton more e ih =>
    rw [← List.append_assoc, run_concat]
    exact (turn _ e).result?_mono ih

section Sound

variable {settings : Settings} {es : List Event} {d : Desk}

theorem Sound.occupies_of_live (h : Sound settings es d) {k : Nat} (hk : d.Live k) : d.Occupies k := by
  obtain ⟨ticket, gap, hclaim, hwaiting⟩ := hk
  obtain ⟨gap', hslot⟩ := h.manual.waiting ticket hwaiting
  obtain ⟨l, hl⟩ := h.owned _ hslot
  obtain rfl := h.apart k l ticket gap gap' hclaim hl
  exact ⟨_, hl, hslot⟩

theorem Sound.occupies_unique (h : Sound settings es d) {k l : Nat} (hk : d.Occupies k) (hl : d.Occupies l) : k = l := by
  obtain ⟨claim, hclaim, hslot⟩ := hk
  obtain ⟨claim', hclaim', hslot'⟩ := hl
  rw [hslot] at hslot'
  cases hslot'
  exact h.apart k l claim.1 claim.2 claim.2 hclaim hclaim'

theorem Answers.occupies {k : Nat} {f : Frame} (h : d.Answers k f) : d.Occupies k := by
  obtain ⟨ticket, gap, hclaim, hslot, -⟩ := h
  exact ⟨_, hclaim, hslot⟩

/-- A call that waits gets the frame that is taken for it. -/
theorem Live.got {k : Nat} {f : Frame} (h : d.Live k) (ha : d.Answers k f) : (d.step (.offer f)).Got k f := by
  obtain ⟨ticket, gap, hclaim, hwaiting⟩ := h
  obtain ⟨ticket', gap', hclaim', hslot, hrange⟩ := ha
  rw [hclaim] at hclaim'
  cases hclaim'
  exact ⟨ticket, gap, hclaim, ManualResend.reply_offer_of_waiting hslot hrange hwaiting⟩

/-- The withdrawal of a call that does not hold the slot leaves the slot to whoever holds it. -/
theorem Sound.withdraw_of_occupies (h : Sound settings es d) {k l : Nat} (hne : k ≠ l) (hl : d.Occupies l) :
    (d.step (.withdraw k)).manual = d.manual := by
  obtain ⟨claim, hclaim, hslot⟩ := hl
  unfold Desk.step
  dsimp only
  split
  · next c failure here =>
    have hk : d.claim? k = some (c.ticket, c.gap) := by
      unfold claim?
      rw [here]
      rfl
    have hother : claim.1 ≠ c.ticket := by
      intro hsame
      have hclaim : d.claim? l = some (c.ticket, claim.2) := by
        rw [hclaim, ← hsame]
      exact hne (h.apart k l c.ticket c.gap claim.2 hk hclaim)
    show d.manual.withdraw c.ticket = d.manual
    unfold ManualResend.withdraw
    rw [hslot]
    dsimp only
    rw [if_neg hother]
  · rfl

end Sound

/-- A call has at most one frame taken for it: the first offer in its range ends its hold on the slot. -/
theorem takes_unique {settings : Settings} {es : List Event} {k n m : Nat} {f g : Frame} (hn : Takes settings es k n f)
    (hm : Takes settings es k m g) : m = n := by
  -- the earlier of the two has lost the slot for good by the time of the later
  have hearlier : ∀ {a b : Nat} {f g : Frame}, Takes settings es k a f → Takes settings es k b g → ¬ a < b := by
    intro a b f g ha hb hlt
    have ha : Takes settings (es.take b) k a f := by
      refine ⟨?_, ?_⟩
      · rw [List.getElem?_take_of_lt hlt]
        exact ha.1
      · rw [List.take_take, Nat.min_eq_left (Nat.le_of_lt hlt)]
        exact ha.2
    exact ((sound_run settings (es.take b)).taken k a f ha).2 hb.2.occupies
  have hnm := hearlier hn hm
  have hmn := hearlier hm hn
  omega

/-- **Calls do not get in each other's way.** However the calls of operators, offered frames, disconnects and late steps
of calls are interleaved, at most one call waits for a frame, it has the slot, and it gets the next frame that is offered in
its range. A call that returns with a frame has it from the one offer that found its request in the slot and was in its
range, and no offer serves two calls. Whoever withdraws late leaves the request of another call in its place. What a call
has returned with stays, and from then on the slot does not hold its request. -/
theorem calls_apart (settings : Settings) (es : List Event) :
    let d := run settings es
    (∀ k l, d.Live k → d.Live l → k = l) ∧ (∀ k, d.Live k → d.Occupies k) ∧
      (∀ k f, d.Live k → d.Answers k f → (d.step (.offer f)).Got k f) ∧
      (∀ k f, d.result? k = some (.ok f) → ∃ n gap, Takes settings es k n f ∧
        (∀ m g, Takes settings es k m g → m = n) ∧ (ranges es)[k]? = some gap ∧ gap.contains f.seq = true) ∧
      (∀ k l n f g, Takes settings es k n f → Takes settings es l n g → k = l) ∧
      (∀ k l, k ≠ l → d.Occupies l → (d.step (.withdraw k)).manual = d.manual) ∧
      ∀ k result, d.result? k = some result → ∀ more,
        (run settings (es ++ more)).result? k = some result ∧ ¬ (run settings (es ++ more)).Occupies k := by
  intro d
  have hd : Sound settings es d := sound_run settings es
  refine ⟨?_, fun k => hd.occupies_of_live, fun k f => Live.got, ?_, ?_, fun k l => hd.withdraw_of_occupies, ?_⟩
  · intro k l hk hl
    exact hd.occupies_unique (hd.occupies_of_live hk) (hd.occupies_of_live hl)
  · intro k f hk
    obtain ⟨n, hn⟩ := hd.answered k f hk
    obtain ⟨ticket, gap, hclaim, -, hrange⟩ := hn.2
    have hgap := (sound_run settings (es.take n)).range k ticket gap hclaim
    exact ⟨n, gap, hn, fun m g hm => takes_unique hn hm, ranges_of_take hgap, hrange⟩
  · intro k l n f g hk hl
    exact (sound_run settings (es.take n)).occupies_unique hk.2.occupies hl.2.occupies
  · intro k result hk more
    have hlater := result?_run_append hk more
    exact ⟨hlater, (sound_run settings (es ++ more)).returned k result hlater⟩

/-- The first call runs out of time and stops waiting. The second takes the slot before the first withdraws, and gets the
frame that is in its range. -/
def overtaken : List Event :=
  [.call 5 3, .asked 0 10 none, .look 0 1000000010, .letGo 0, .call 8 2, .withdraw 0, .asked 1 1000000020 none,
    .offer ⟨⟨7, 0, 1, 1, noShard⟩, [7]⟩, .offer ⟨⟨9, 0, 1, 1, noShard⟩, [9]⟩, .look 1 1000000030]

theorem apart_overtaken :
    ((run .default (overtaken.take 5)).step (.withdraw 0)).manual = (run .default (overtaken.take 5)).manual ∧
      ∃ f n gap, (run .default overtaken).result? 1 = some (.ok f) ∧ Takes .default overtaken 1 n f ∧
        (∀ m g, Takes .default overtaken 1 m g → m = n) ∧ (ranges overtaken)[1]? = some gap ∧
        gap.contains f.seq = true ∧ ¬ (run .default overtaken).Occupies 0 := by
  obtain ⟨-, -, -, -, -, hwithdraw, -⟩ := calls_apart .default (overtaken.take 5)
  obtain ⟨-, -, -, hframe, -, -, hreturned⟩ := calls_apart .default overtaken
  have hocc : (run .default (overtaken.take 5)).Occupies 1 := ⟨(1, ⟨8, 2⟩), rfl, rfl⟩
  have hfirst : (run .default overtaken).result? 0 = some (.error (.timedOut ⟨5, 3⟩ (.ofSeconds 1))) := rfl
  have hsecond : (run .default overtaken).result? 1 = some (.ok ⟨⟨9, 0, 1, 1, noShard⟩, [9]⟩) := rfl
  obtain ⟨n, gap, hn, honly, hgap, hrange⟩ := hframe 1 _ hsecond
  refine ⟨hwithdraw 0 1 (by decide) hocc, _, n, gap, hsecond, hn, honly, hgap, hrange, ?_⟩
  obtain ⟨-, hfree⟩ := hreturned 0 _ hfirst []
  rwa [List.append_nil] at hfree

end Desk

end ReliableMulticast
