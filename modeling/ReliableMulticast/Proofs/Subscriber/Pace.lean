import ReliableMulticast.Proofs.Frame.Codec
import ReliableMulticast.Proofs.Subscriber.Requests

/-!
# The pace of requests

A receiver asks for its gap in two places: where a change opens a gap, and where the timer rings. In between the gap may
shrink, grow, or move on to the next missing numbers, and each call may be the one that notices. `asked` are the requests
that an answer sends, as the publisher will read them. Only the requests of the receiver itself are meant; what an operator
asks for goes past it.

`Paces` says all that a call can do about the gap, with one constructor for each thing that can happen, and each kind of call
does one of them (`paces_onCall`). Two facts about whole runs follow. While there is a gap, the time to ask again does not
get earlier than it was (`Proper.deadline`), and so a request is followed by another one only after the interval, unless
the gap was closed for a moment (`Proper.apart`). And where the timer follows the gap (`Tended.onCalls`), a gap that opens is
asked for (`Paces.asked_of_opens`).

Main statement (`paces`): the requests in any run of calls that are `Due` when they are made. That the opening of a gap is
asked for holds with at most one end of a snapshot: a second one looks at the gap as if there had been none before, and
does not stop the timer (`opens_unasked`). A link ends the snapshot of a connection once.
-/

namespace ReliableMulticast

namespace Arrivals

/-- A range that is missing has numbers and a length that fit a request. -/
theorem gap_fits {a : Arrivals} (hb : a.bound ≤ maxSeq) (h : a.gap.isEmpty = false) :
    a.gap.start < 2 ^ 64 ∧ a.gap.count < 2 ^ 32 := by
  have hedge : a.edge ≤ maxSeq := by
    unfold edge
    cases a.pending with
    | nil => exact hb
    | cons first rest => exact seq_le_maxSeq first
  have hgap := gap_of_live (live_of_gap h)
  rw [hgap, Gap.isEmpty_between] at h
  have hlt : ¬ a.edge ≤ a.head := of_decide_eq_false h
  unfold Gap.between at hgap
  rw [hgap, if_neg hlt]
  dsimp only
  unfold maxSeq at hedge
  unfold Gap.maxCount
  omega

end Arrivals

namespace Receiver

/-- The range that an output asks for, and who is asked. -/
def Output.asked? : Output → Option (Endpoint × Gap)
  | .send dest f =>
    match f.message? with
    | .ok (some (.resendRequest seq count)) => some (dest, ⟨seq.toNat, count.toNat⟩)
    | _ => none
  | _ => none

/-- The requests for repetition in an answer. -/
def Answer.asked (a : Answer) : List (Endpoint × Gap) := a.outputs.filterMap Output.asked?

/-- The call is one that the control of a link makes at this time: the timer rings at its time or later. -/
def Due (r : Receiver) (now : Instant) : Call → Prop
  | .requestTimer => ∃ deadline, deadline ∈ r.requestAt ∧ deadline ≤ now
  | .endOfSnapshot seq => seq ≤ Arrivals.maxSeq
  | _ => True

/-- Calls that are due when they are made, and that the receiver bears. -/
def Proper (r : Receiver) : List (Instant × Call) → Prop
  | [] => True
  | (now, c) :: rest => r.Due now c ∧ (r.onCall now c).Borne ∧ (r.onCall now c).receiver.Proper rest

instance : ∀ (r : Receiver) (now : Instant) (c : Call), Decidable (r.Due now c)
  | r, now, .requestTimer => inferInstanceAs (Decidable (∃ deadline, deadline ∈ r.requestAt ∧ deadline ≤ now))
  | _, _, .endOfSnapshot seq => inferInstanceAs (Decidable (seq ≤ Arrivals.maxSeq))
  | _, _, .snapshotFrame _ => .isTrue trivial
  | _, _, .frame _ => .isTrue trivial
  | _, _, .livenessTick => .isTrue trivial

instance decidableProper : ∀ (r : Receiver) (calls : List (Instant × Call)), Decidable (r.Proper calls)
  | _, [] => .isTrue trivial
  | r, (now, c) :: rest =>
    have := decidableProper (r.onCall now c).receiver rest
    inferInstanceAs (Decidable (r.Due now c ∧ (r.onCall now c).Borne ∧ (r.onCall now c).receiver.Proper rest))

/-! ### What a call does about the gap -/

/-- All that a call can do about the gap, where `due` was the time to ask again before it: it asks for the gap that there
is afterwards, and only if nothing was under way or the timer has rung; or it finds no gap and stops the timer; or neither. -/
inductive Paces (due : Option Instant) (dest : Endpoint) (pause : Duration) (now : Instant) (rings : Prop) (a : Answer) :
    Prop
  | still (asked : a.asked = []) (timer : a.receiver.requestAt = due)
  | closed (asked : a.asked = []) (gap : a.receiver.queue.gap.isEmpty = true) (timer : a.receiver.requestAt = none)
  | asks (asked : a.asked = [(dest, a.receiver.queue.gap)]) (gap : a.receiver.queue.gap.isEmpty = false)
      (timer : a.receiver.requestAt = some (now + pause.nanos)) (cause : due = none ∨ rings)
      (bears : ∀ g, a.failure ≠ some (.gapTooLarge g))

section Call

variable {r : Receiver} {now : Instant} {rings : Prop}

theorem asked?_request (r : Receiver) {gap : Gap} (hstart : gap.start < 2 ^ 64) (hcount : gap.count < 2 ^ 32) :
    (r.request gap).asked? = some (r.resendTo, gap) := by
  have hstart : (UInt64.ofNat gap.start).toNat = gap.start := UInt64.toNat_ofNat_of_lt hstart
  have hcount : (UInt32.ofNat gap.count).toNat = gap.count := UInt32.toNat_ofNat_of_lt hcount
  unfold request Output.asked?
  dsimp only
  rw [Frame.message?_resendRequest]
  dsimp only
  rw [hstart, hcount]

theorem asked_requestNow (hb : r.queue.bound ≤ Arrivals.maxSeq) (hgap : r.queue.gap.isEmpty = false) (now : Instant) :
    (r.requestNow now r.queue.gap).asked = [(r.resendTo, r.queue.gap)] := by
  obtain ⟨hstart, hcount⟩ := Arrivals.gap_fits hb hgap
  show [r.request r.queue.gap].filterMap Output.asked? = _
  rw [List.filterMap_cons, asked?_request r hstart hcount]
  rfl

theorem paces_onGapChange {before : Gap} {change : Option GapChange} (hchange : change = GapChange.of before r.queue.gap)
    (hb : r.queue.bound ≤ Arrivals.maxSeq) (now : Instant) :
    Paces r.requestAt r.resendTo r.settings.requestInterval now rings (r.onGapChange now change) := by
  subst hchange
  by_cases heq : before = r.queue.gap
  · rw [GapChange.of, if_pos heq]
    exact .still rfl rfl
  · rw [GapChange.of, if_neg heq]
    unfold onGapChange
    dsimp only
    by_cases hempty : r.queue.gap.isEmpty = true
    · rw [if_pos hempty]
      exact .closed rfl hempty rfl
    rw [if_neg hempty]
    have hgap : r.queue.gap.isEmpty = false := by simpa using hempty
    by_cases hlarge : r.settings.maxGap < r.queue.gap.count
    · rw [if_pos hlarge]
      exact .still rfl rfl
    rw [if_neg hlarge]
    cases hat : r.requestAt with
    | none => exact .asks (asked_requestNow hb hgap now) hgap rfl (Or.inl rfl) (by simp [requestNow])
    | some deadline => exact .still rfl hat

theorem paces_settleGap {before : Gap} {change : Option GapChange} (hchange : change = GapChange.of before r.queue.gap)
    (hb : r.queue.bound ≤ Arrivals.maxSeq) (now : Instant) :
    Paces r.requestAt r.resendTo r.settings.requestInterval now rings (r.settleGap now change) := by
  have hpaces : Paces r.requestAt r.resendTo r.settings.requestInterval now rings (r.onGapChange now change) :=
    paces_onGapChange hchange hb now
  unfold settleGap
  dsimp only
  split
  · exact hpaces
  · cases hpaces with
    | still asked timer => exact .still asked timer
    | closed asked gap timer => exact .closed asked gap timer
    | asks asked gap timer cause _ =>
      refine .asks asked gap timer cause fun g => ?_
      unfold checkLength
      split <;> simp

/-- Outputs before the others ask for nothing unless they are requests. -/
theorem Paces.after {due : Option Instant} {dest : Endpoint} {pause : Duration} {a : Answer}
    (h : Paces due dest pause now rings a) {outputs : List Output} (hnone : outputs.filterMap Output.asked? = []) :
    Paces due dest pause now rings (a.after outputs) := by
  have hasked : (a.after outputs).asked = a.asked := by
    unfold Answer.asked Answer.after
    rw [List.filterMap_append, hnone, List.nil_append]
  cases h with
  | still asked timer => exact .still (hasked.trans asked) timer
  | closed asked gap timer => exact .closed (hasked.trans asked) gap timer
  | asks asked gap timer cause bears => exact .asks (hasked.trans asked) gap timer cause bears

theorem asked?_deliver (out : List Frame) :
    (out.map fun f => Output.deliver (.message f)).filterMap Output.asked? = [] := by
  induction out with
  | nil => rfl
  | cons f rest ih => simp [Output.asked?]

theorem paces_onInserted {before : Gap} {i : Arrivals.Inserted} (hchange : i.gapChange = GapChange.of before r.queue.gap)
    (hb : r.queue.bound ≤ Arrivals.maxSeq) (now : Instant) :
    Paces r.requestAt r.resendTo r.settings.requestInterval now rings (r.onInserted now i) :=
  (paces_settleGap hchange hb now).after (asked?_deliver i.delivered)

theorem paces_onRequestTimer (hb : r.queue.bound ≤ Arrivals.maxSeq) (now : Instant) (hrings : rings) :
    Paces r.requestAt r.resendTo r.settings.requestInterval now rings (r.onRequestTimer now) := by
  unfold onRequestTimer
  dsimp only
  by_cases hempty : r.queue.gap.isEmpty = true
  · rw [if_pos hempty]
    exact .closed rfl hempty rfl
  rw [if_neg hempty]
  have hgap : r.queue.gap.isEmpty = false := by simpa using hempty
  by_cases hlarge : r.settings.maxGap < r.queue.gap.count
  · rw [if_pos hlarge]
    exact .still rfl rfl
  · rw [if_neg hlarge]
    exact .asks (asked_requestNow hb hgap now) hgap rfl (Or.inr hrings) (by simp [requestNow])

theorem paces_onFrame (hb : r.queue.bound ≤ Arrivals.maxSeq) (now : Instant) (f : Frame) :
    Paces r.requestAt r.resendTo r.settings.requestInterval now rings (r.onFrame now f) := by
  have hinsert : (r.queue.insert f).2.bound ≤ Arrivals.maxSeq :=
    (r.queue.bound_insert_le f).trans (Nat.max_le.2 ⟨hb, Nat.le_refl _⟩)
  have hraise : (r.queue.raiseBound f.seq).2.bound ≤ Arrivals.maxSeq :=
    (r.queue.bound_raiseBound_le f).trans (Nat.max_le.2 ⟨hb, Nat.le_refl _⟩)
  rcases r.onFrame_cases now f with ⟨-, hf⟩ | ⟨-, stamp, hf⟩ | ⟨-, text, hf⟩ <;> rw [hf]
  · exact paces_onInserted (r := { r with active := true, queue := (r.queue.insert f).2 }) (r.queue.gapChange_insert f)
      hinsert now
  · exact paces_settleGap
      (r := { r with active := true, lastHeartbeat := some stamp, queue := (r.queue.raiseBound f.seq).2 })
      (r.queue.gapChange_raiseBound f.seq) hraise now
  · exact .still rfl rfl

theorem paces_onEndOfSnapshot (hb : r.queue.bound ≤ Arrivals.maxSeq) (now : Instant) {seq : Nat}
    (hseq : seq ≤ Arrivals.maxSeq) :
    Paces r.requestAt r.resendTo r.settings.requestInterval now rings (r.onEndOfSnapshot now seq) := by
  have hbound : (r.queue.stopQueuing seq).2.bound ≤ Arrivals.maxSeq := Nat.max_le.2 ⟨hb, hseq⟩
  exact (paces_onInserted (r := { r with snapshotSeq := some seq, queue := (r.queue.stopQueuing seq).2 })
    (r.queue.gapChange_stopQueuing seq) hbound now).after rfl

theorem paces_onLivenessTick (now : Instant) :
    Paces r.requestAt r.resendTo r.settings.requestInterval now rings r.onLivenessTick := by
  unfold onLivenessTick
  split
  · exact .still rfl rfl
  split
  · exact .still rfl rfl
  · exact .still rfl rfl

theorem paces_onCall (hb : r.queue.bound ≤ Arrivals.maxSeq) {c : Call} (hdue : r.Due now c) :
    Paces r.requestAt r.resendTo r.settings.requestInterval now (c = .requestTimer) (r.onCall now c) := by
  cases c with
  | snapshotFrame f => exact .still rfl rfl
  | endOfSnapshot seq => exact paces_onEndOfSnapshot hb now hdue
  | frame f => exact paces_onFrame hb now f
  | livenessTick => exact paces_onLivenessTick now
  | requestTimer => exact paces_onRequestTimer hb now rfl

theorem Due.worded {c : Call} (h : r.Due now c) : c.Worded := by
  cases c with
  | endOfSnapshot seq => exact h
  | _ => exact trivial

theorem resendTo_settleGap (r : Receiver) (now : Instant) (change : Option GapChange) :
    (r.settleGap now change).receiver.resendTo = r.resendTo := by
  rw [receiver_settleGap]
  unfold onGapChange
  repeat' split
  all_goals rfl

theorem resendTo_onCall (r : Receiver) (now : Instant) (c : Call) :
    (r.onCall now c).receiver.resendTo = r.resendTo := by
  cases c with
  | snapshotFrame f => rfl
  | endOfSnapshot seq => exact resendTo_settleGap _ now _
  | frame f =>
    show (r.onFrame now f).receiver.resendTo = _
    rcases r.onFrame_cases now f with ⟨-, h⟩ | ⟨-, stamp, h⟩ | ⟨-, text, h⟩ <;> rw [h]
    · exact resendTo_settleGap _ now _
    · exact resendTo_settleGap _ now _
  | requestTimer =>
    simp only [onCall, onRequestTimer]
    repeat' split
    all_goals rfl
  | livenessTick =>
    simp only [onCall, onLivenessTick]
    repeat' split
    all_goals rfl

end Call

/-! ### Whole runs -/

theorem onCalls_append (r : Receiver) (calls more : List (Instant × Call)) :
    r.onCalls (calls ++ more) = (r.onCalls calls).onCalls more := List.foldl_append

theorem Proper.append {r : Receiver} {calls more : List (Instant × Call)} (h : r.Proper (calls ++ more)) :
    r.Proper calls ∧ (r.onCalls calls).Proper more := by
  induction calls generalizing r with
  | nil => exact ⟨trivial, h⟩
  | cons call rest ih =>
    obtain ⟨hdue, hborne, hrest⟩ := h
    obtain ⟨hcalls, hmore⟩ := ih hrest
    exact ⟨⟨hdue, hborne, hcalls⟩, hmore⟩

theorem Proper.concat {r : Receiver} {calls : List (Instant × Call)} (h : r.Proper calls) {now : Instant} {c : Call}
    (hdue : (r.onCalls calls).Due now c) (hborne : ((r.onCalls calls).onCall now c).Borne) :
    r.Proper (calls ++ [(now, c)]) := by
  induction calls generalizing r with
  | nil => exact ⟨hdue, hborne, trivial⟩
  | cons call rest ih => exact ⟨h.1, h.2.1, ih h.2.2 hdue hborne⟩

theorem EndsOnce.of_append {calls more : List (Instant × Call)} (h : EndsOnce (calls ++ more)) : EndsOnce calls := by
  unfold EndsOnce at h ⊢
  rw [List.filter_append, List.length_append] at h
  omega

theorem Proper.borne {r : Receiver} {calls : List (Instant × Call)} (h : r.Proper calls) :
    ∀ a ∈ r.answers calls, a.Borne := by
  induction calls generalizing r with
  | nil => simp [answers]
  | cons call rest ih =>
    obtain ⟨-, hborne, hrest⟩ := h
    intro a ha
    rcases List.mem_cons.1 ha with rfl | ha
    · exact hborne
    · exact ih hrest a ha

theorem Proper.bound {r : Receiver} {calls : List (Instant × Call)} (h : r.Proper calls)
    (hb : r.queue.bound ≤ Arrivals.maxSeq) : (r.onCalls calls).queue.bound ≤ Arrivals.maxSeq := by
  induction calls generalizing r with
  | nil => exact hb
  | cons call rest ih => exact ih h.2.2 (bound_onCall hb call.1 h.1.worded)

theorem resendTo_onCalls (r : Receiver) (calls : List (Instant × Call)) : (r.onCalls calls).resendTo = r.resendTo := by
  induction calls generalizing r with
  | nil => rfl
  | cons call rest ih => exact (ih _).trans (resendTo_onCall r call.1 call.2)

/-- While there is a gap, the time to ask again does not get earlier. -/
theorem Proper.deadline {r : Receiver} {calls : List (Instant × Call)} (h : r.Proper calls)
    (hb : r.queue.bound ≤ Arrivals.maxSeq) {earliest deadline : Instant} (hat : r.requestAt = some deadline)
    (hle : earliest ≤ deadline) :
    (∃ p, p <+: calls ∧ (r.onCalls p).queue.gap.isEmpty = true) ∨
      ∃ later, (r.onCalls calls).requestAt = some later ∧ earliest ≤ later := by
  induction calls generalizing r deadline with
  | nil => exact Or.inr ⟨deadline, hat, hle⟩
  | cons call rest ih =>
    obtain ⟨now, c⟩ := call
    obtain ⟨hdue, -, hrest⟩ := h
    have hnext : ∀ {later : Instant}, (r.onCall now c).receiver.requestAt = some later → earliest ≤ later →
        (∃ p, p <+: (now, c) :: rest ∧ (r.onCalls p).queue.gap.isEmpty = true) ∨
          ∃ later, (r.onCalls ((now, c) :: rest)).requestAt = some later ∧ earliest ≤ later := by
      intro later hlater hle
      rcases ih hrest (bound_onCall hb _ hdue.worded) hlater hle with ⟨p, hp, hempty⟩ | hlater
      · exact Or.inl ⟨(now, c) :: p, List.cons_prefix_cons.2 ⟨rfl, hp⟩, hempty⟩
      · exact Or.inr hlater
    cases paces_onCall hb hdue with
    | still _ timer => exact hnext (timer.trans hat) hle
    | closed _ gap _ => exact Or.inl ⟨[(now, c)], List.cons_prefix_cons.2 ⟨rfl, List.nil_prefix⟩, gap⟩
    | asks _ _ timer cause _ =>
      rcases cause with hnone | rfl
      · rw [hat] at hnone
        cases hnone
      · -- the timer has rung, so the time before has passed
        obtain ⟨due, hrequest, hrung⟩ := hdue
        obtain rfl : deadline = due := Option.some.inj (hat.symm.trans hrequest)
        exact hnext timer ((hle.trans hrung).trans (Nat.le_add_right _ _))

/-- Where the timer follows the gap, a gap that opens is asked for. -/
theorem Paces.asked_of_opens {r r' : Receiver} {now : Instant} {rings : Prop} {a : Answer} (hr : r.Armed)
    (h : Paces r.requestAt r'.resendTo r'.settings.requestInterval now rings a) (ha : a.receiver.Armed)
    (hclosed : r.queue.gap.isEmpty = true) (hopen : a.receiver.queue.gap.isEmpty = false) : a.asked ≠ [] := by
  cases h with
  | still _ timer =>
    unfold Armed at hr ha
    rw [timer, hr, hclosed, hopen] at ha
    cases ha
  | closed _ gap _ =>
    rw [hopen] at gap
    cases gap
  | asks asked _ _ _ _ => simp [asked]

/-- Between two requests lies an interval, or a moment without a gap. -/
theorem Proper.apart {r : Receiver} {before between : List (Instant × Call)} {t now : Instant} {c c' : Call}
    (h : r.Proper (before ++ (t, c') :: between)) (hb : r.queue.bound ≤ Arrivals.maxSeq)
    (hdue : (r.onCalls (before ++ (t, c') :: between)).Due now c)
    (hfirst : ((r.onCalls before).onCall t c').asked ≠ [])
    (hasks : ((r.onCalls (before ++ (t, c') :: between)).onCall now c).asked ≠ []) :
    t + r.settings.requestInterval.nanos ≤ now ∨
      ∃ p, p <+: between ∧ (r.onCalls (before ++ (t, c') :: p)).queue.gap.isEmpty = true := by
  obtain ⟨hbefore, hdue', -, hbetween⟩ := h.append
  have hb' := hbefore.bound hb
  cases paces_onCall hb' hdue' with
  | still asked _ => exact absurd asked hfirst
  | closed asked _ _ => exact absurd asked hfirst
  | asks _ _ timer _ _ =>
    rw [settings_onCalls] at timer
    rcases hbetween.deadline (bound_onCall hb' t hdue'.worded) timer (Nat.le_refl _) with ⟨p, hp, hempty⟩ | ⟨later, hlater, hle⟩
    · refine Or.inr ⟨p, hp, ?_⟩
      rw [onCalls_append]
      exact hempty
    · -- the timer was set all the time, so the second request is a ring
      have hlater : (r.onCalls (before ++ (t, c') :: between)).requestAt = some later := by
        rw [onCalls_append]
        exact hlater
      cases paces_onCall (h.bound hb) hdue with
      | still asked _ => exact absurd asked hasks
      | closed asked _ _ => exact absurd asked hasks
      | asks _ _ _ cause _ =>
        rcases cause with hnone | rfl
        · rw [hlater] at hnone
          cases hnone
        · obtain ⟨deadline, hdeadline, hrung⟩ := hdue
          obtain rfl : later = deadline := Option.some.inj (hlater.symm.trans hdeadline)
          exact Or.inl (hle.trans hrung)

/-- **Requests are exact and keep their pace.** Let a new receiver be given any calls that are due and that it bears, and
then one more call that is due. If this call asks for something, it asks once, at the place for requests, and for exactly
the gap that there is then. If there was no gap before and there is one now, it does ask, where there was at most one end of
a snapshot. If it asks and an earlier call has asked, then a whole interval lies between them, or a moment without a gap.
And it does not ask if its gap is too large. -/
theorem paces (settings : Settings) (resendTo : Endpoint) (calls : List (Instant × Call))
    (hcalls : (new settings resendTo).Proper calls) (now : Instant) (c : Call)
    (hdue : ((new settings resendTo).onCalls calls).Due now c) :
    let r := (new settings resendTo).onCalls calls
    let a := r.onCall now c
    (a.asked ≠ [] → a.asked = [(resendTo, a.receiver.queue.gap)] ∧ a.receiver.queue.gap.isEmpty = false) ∧
      (EndsOnce (calls ++ [(now, c)]) → a.Borne → r.queue.gap.isEmpty = true → a.receiver.queue.gap.isEmpty = false →
        a.asked ≠ []) ∧
      (∀ before t c' between, calls = before ++ (t, c') :: between →
        (((new settings resendTo).onCalls before).onCall t c').asked ≠ [] → a.asked ≠ [] →
          t + settings.requestInterval.nanos ≤ now ∨
            ∃ p, p <+: between ∧
              ((new settings resendTo).onCalls (before ++ (t, c') :: p)).queue.gap.isEmpty = true) ∧
      ∀ g, a.failure = some (.gapTooLarge g) → a.asked = [] := by
  intro r a
  have hb : r.queue.bound ≤ Arrivals.maxSeq := hcalls.bound (Nat.zero_le _)
  have hdest : r.resendTo = resendTo := resendTo_onCalls (new settings resendTo) calls
  have hpaces : Paces r.requestAt r.resendTo r.settings.requestInterval now (c = .requestTimer) a := paces_onCall hb hdue
  refine ⟨fun hasks => ?_, fun honce hborne hclosed hopen => ?_, ?_, fun g hlarge => ?_⟩
  · cases hpaces with
    | still asked _ => exact absurd asked hasks
    | closed asked _ _ => exact absurd asked hasks
    | asks asked gap _ _ _ => exact ⟨by rw [asked, hdest], gap⟩
  · have hr : r.Tended := (tended_new settings resendTo).onCalls (Or.inr ⟨rfl, honce.of_append⟩) hcalls.borne
    have ha := (tended_new settings resendTo).onCalls (Or.inr ⟨rfl, honce⟩) (hcalls.concat hdue hborne).borne
    rw [onCalls_append] at ha
    exact hpaces.asked_of_opens hr.armed ha.armed hclosed hopen
  · rintro before t c' between rfl hfirst hasks
    exact hcalls.apart (Nat.zero_le _) hdue hfirst hasks
  · cases hpaces with
    | still asked _ => exact asked
    | closed asked _ _ => exact asked
    | asks _ _ _ _ bears => exact absurd hlarge (bears g)

/-- A gap of two numbers opens with the end of the snapshot. One of them comes before the timer rings. -/
def lingering : List (Instant × Call) :=
  [(1, .frame ⟨⟨12, 0, 0, 1, noShard⟩, []⟩), (2, .endOfSnapshot 10), (3, .frame ⟨⟨11, 0, 0, 1, noShard⟩, []⟩)]

/-- The end of the snapshot asks for both numbers, and the timer, which rings late, for the one that is left. -/
theorem paces_lingering :
    let r := (new .default default).onCalls lingering
    ((new .default default).onCalls (lingering.take 1) |>.onCall 2 (.endOfSnapshot 10)).asked ≠ [] ∧
      (r.onCall 1000000007 .requestTimer).asked = [(default, ⟨10, 1⟩)] ∧
        (2 + Settings.default.requestInterval.nanos ≤ 1000000007 ∨ ∃ p, p <+: lingering.drop 2 ∧
          ((new .default default).onCalls (lingering.take 1 ++ (2, .endOfSnapshot 10) :: p)).queue.gap.isEmpty = true) := by
  intro r
  have hproper : (new .default default).Proper lingering := by decide +kernel
  have hdue : r.Due 1000000007 .requestTimer := by decide +kernel
  obtain ⟨-, hopens, -, -⟩ := paces .default default (lingering.take 1) (by decide +kernel) 2 (.endOfSnapshot 10)
    (by decide +kernel)
  have hfirst := hopens (by decide +kernel) (by decide +kernel) (by decide +kernel) (by decide +kernel)
  obtain ⟨hexact, -, hapart, -⟩ := paces .default default lingering hproper 1000000007 .requestTimer hdue
  have hasks : (r.onCall 1000000007 .requestTimer).asked ≠ [] := by decide +kernel
  have hgap : (r.onCall 1000000007 .requestTimer).receiver.queue.gap = ⟨10, 1⟩ := by decide +kernel
  refine ⟨hfirst, ?_, hapart (lingering.take 1) 2 (.endOfSnapshot 10) (lingering.drop 2) rfl hfirst hasks⟩
  rw [← hgap]
  exact (hexact hasks).1

/-- A second end of a snapshot leaves the timer running though it finds no gap, and the gap that opens next is not asked
for. -/
theorem opens_unasked :
    let calls : List (Instant × Call) :=
      [(1, .endOfSnapshot 1), (2, .frame ⟨⟨3, 0, 0, 1, noShard⟩, []⟩), (3, .endOfSnapshot 10)]
    let r := (new .default default).onCalls calls
    let a := r.onCall 4 (.frame ⟨⟨12, 0, 0, 1, noShard⟩, []⟩)
    (new .default default).Proper calls ∧ a.failure = none ∧ r.queue.gap.isEmpty = true ∧
      a.receiver.queue.gap = ⟨10, 2⟩ ∧ a.asked = [] := by
  intro calls r a
  exact ⟨by decide +kernel, by decide +kernel, by decide +kernel, by decide +kernel, by decide +kernel⟩

end Receiver

end ReliableMulticast
