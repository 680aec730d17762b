import ReliableMulticast.Proofs.Mailbox.Office
import Mathlib.Data.List.Nodup

/-!
# How the calls on a role end

A drain ends when the role asks for its next task with everything handed out that was posted before the drain
(`Bars.ended_iff`), and the call of a request when it is answered or dropped (`Pends.ended_iff`). Both are one argument: a
call waits until an event ends it (`ends_or_waits`). What a role and its callers can rely on is `run_keeps_contract`.
-/

namespace ReliableMulticast

namespace Office

variable {τ : Type} {x : Office τ} {e : Event τ} {k : Nat} {outcome outcome' : CallOutcome}

/-! ### What has ended -/

theorem ended_step (x : Office τ) (e : Event τ) : x.ended <+: (x.step e).ended := by
  have hturn := x.turn_step e
  generalize x.step e = y at hturn ⊢
  cases hturn with
  | idle => exact List.prefix_refl _
  | handles => exact List.prefix_refl _
  | posted => exact List.prefix_refl _
  | called => exact List.prefix_refl _
  | refused => exact List.prefix_append ..
  | handed => exact List.prefix_append ..
  | settled => exact List.prefix_append ..
  | closed => exact List.prefix_append ..

theorem ended_after (x : Office τ) (es : List (Event τ)) : x.ended <+: (x.after es).ended := by
  induction es generalizing x with
  | nil => exact List.prefix_refl _
  | cons e es ih => exact (ended_step x e).trans (ih _)

theorem role_step (x : Office τ) (e : Event τ) : (x.step e).role = x.role := by
  have hturn := x.turn_step e
  generalize x.step e = y at hturn ⊢
  cases hturn with
  | _ => rfl

theorem role_run (role : String) (es : List (Event τ)) : (run role es).role = role := by
  induction es using List.reverseRecOn with
  | nil => rfl
  | append_singleton es e ih => rw [run_concat, role_step, ih]

theorem closed_step (x : Office τ) (e : Event τ) :
    (x.step e).mailbox.closed = true ↔ x.mailbox.closed = true ∨ e = .close := by
  have hturn := x.turn_step e
  generalize x.step e = y at hturn ⊢
  cases hturn with
  | idle h =>
    refine ⟨.inl, ?_⟩
    rintro (hclosed | rfl)
    · exact hclosed
    · rcases h with h | ⟨hclosed, -⟩
      · simpa [able] using h
      · exact hclosed
  | handles n he => rcases he with rfl | rfl <;> simp
  | posted he => simp [he]
  | called he => cases he <;> simp
  | refused he => cases he <;> simp
  | handed he => simp [he, Mailbox.next]
  | settled he => cases he <;> simp
  | closed he => simp [he]

theorem closed_run (role : String) (es : List (Event τ)) : (run role es).mailbox.closed = true ↔ .close ∈ es := by
  induction es using List.reverseRecOn with
  | nil => simp [run, after, begin, Mailbox.new]
  | append_singleton es e ih =>
    rw [run_concat, closed_step, ih, List.mem_append, List.mem_singleton]
    exact or_congr_right eq_comm

theorem Sound.nodup (h : x.Sound) : (x.ended.map (·.1) ++ x.held ++ x.queued).Nodup :=
  h.placed.nodup_iff.2 List.nodup_range

/-- A call ends in one way. -/
theorem Sound.ended_unique (h : x.Sound) (hk : (k, outcome) ∈ x.ended) (hk' : (k, outcome') ∈ x.ended) :
    outcome = outcome' := by
  have hnodup := (List.nodup_append.1 (List.nodup_append.1 h.nodup).1).1
  exact congrArg Prod.snd (List.inj_on_of_nodup_map hnodup hk hk' rfl)

/-- A call that is in the mailbox or held by the role has not ended. -/
theorem Sound.not_ended (h : x.Sound) (hk : k ∈ x.queued ∨ k ∈ x.held) : (k, outcome) ∉ x.ended := by
  intro hended
  have hmem : k ∈ x.ended.map (·.1) := List.mem_map.2 ⟨_, hended, rfl⟩
  rcases hk with hk | hk
  · exact (List.nodup_append.1 h.nodup).2.2 k (List.mem_append_left _ hmem) k hk rfl
  · exact (List.nodup_append.1 (List.nodup_append.1 h.nodup).1).2.2 k hmem k hk rfl

theorem Sound.open_of_mem (h : x.Sound) {envelope : Envelope τ Nat} (hmem : envelope ∈ x.mailbox.queue) :
    x.mailbox.closed = false := by
  cases hclosed : x.mailbox.closed with
  | true =>
    rw [h.lost hclosed] at hmem
    cases hmem
  | false => rfl

/-! ### Runs that meet an event -/

/-- In the run of these events there is one of which this holds, with what the office is when it comes. -/
def Meets (P : Office τ → Event τ → Prop) (x : Office τ) (es : List (Event τ)) : Prop :=
  ∃ before e after, es = before ++ e :: after ∧ P (x.after before) e

theorem not_meets_nil {P : Office τ → Event τ → Prop} : ¬ Meets P x [] := by
  rintro ⟨before, e, after, h, -⟩
  simp at h

theorem meets_cons {P : Office τ → Event τ → Prop} {es : List (Event τ)} :
    Meets P x (e :: es) ↔ P x e ∨ Meets P (x.step e) es := by
  constructor
  · rintro ⟨before, e', after, h, hP⟩
    cases before with
    | nil =>
      obtain ⟨rfl, rfl⟩ := List.cons.inj h
      exact .inl hP
    | cons e'' before =>
      obtain ⟨rfl, rfl⟩ := List.cons.inj h
      exact .inr ⟨before, e', after, rfl, hP⟩
  · rintro (hP | ⟨before, e', after, rfl, hP⟩)
    · exact ⟨[], e, es, rfl, hP⟩
    · exact ⟨e :: before, e', after, rfl, hP⟩

/-- **A call waits until an event ends it**, if at every event it does one or the other. -/
theorem ends_or_waits (k : Nat) (Waits : Office τ → Prop) (Ends : Office τ → Event τ → CallOutcome → Prop)
    (hstep : ∀ x e, x.Sound → Waits x → (∃ outcome, Ends x e outcome ∧ (k, outcome) ∈ (x.step e).ended) ∨
      (∀ outcome, ¬ Ends x e outcome) ∧ Waits (x.step e))
    (h : x.Sound) (hx : Waits x) (es : List (Event τ)) :
    (∃ outcome, Meets (Ends · · outcome) x es ∧ (k, outcome) ∈ (x.after es).ended) ∨
      (∀ outcome, ¬ Meets (Ends · · outcome) x es) ∧ Waits (x.after es) := by
  induction es generalizing x with
  | nil => exact .inr ⟨fun _ => not_meets_nil, hx⟩
  | cons e es ih =>
    simp only [meets_cons]
    rcases hstep x e h hx with ⟨outcome, hends, hended⟩ | ⟨hnot, hwaits⟩
    · exact .inl ⟨outcome, .inl hends, (ended_after _ es).subset hended⟩
    · rcases ih (h.step e) hwaits with ⟨outcome, hends, hended⟩ | ⟨hnot', hwaits'⟩
      · exact .inl ⟨outcome, .inr hends, hended⟩
      · exact .inr ⟨fun outcome => not_or.2 ⟨hnot outcome, hnot' outcome⟩, hwaits'⟩

/-! ### Barriers -/

/-- The barrier of a call is in the mailbox, behind the tasks that were posted before it: so many, with those that are
handed out already. -/
def Bars (k due : Nat) (x : Office τ) : Prop :=
  ∃ front behind, x.mailbox.queue = front ++ .barrier k :: behind ∧
    x.returned.length + (Mailbox.tasks front).length = due

/-- The event lets a barrier pass behind so many tasks: the role asks for the next one with all of them handed out, or it
drops its end of the mailbox. -/
def Passes (due : Nat) (x : Office τ) (e : Event τ) : Prop := e = .close ∨ e = .next ∧ due ≤ x.returned.length

variable {due : Nat}

theorem Bars.mem (h : x.Bars k due) : .barrier k ∈ x.mailbox.queue := by
  obtain ⟨front, behind, hqueue, -⟩ := h
  rw [hqueue]
  exact List.mem_append_right _ List.mem_cons_self

theorem Bars.queued (h : x.Bars k due) : k ∈ x.queued := List.mem_filterMap.2 ⟨_, h.mem, rfl⟩

theorem Bars.mem_ended (h : x.Sound) (hbars : x.Bars k due) (hpasses : x.Passes due e) :
    (k, .drained) ∈ (x.step e).ended := by
  have hopen := h.open_of_mem hbars.mem
  rcases hpasses with rfl | ⟨rfl, hdue⟩
  · rw [step, if_pos (by simp [able, hopen])]
    exact List.mem_append_right _ (List.mem_filterMap.2 ⟨_, hbars.mem, rfl⟩)
  · obtain ⟨front, behind, hqueue, hlength⟩ := hbars
    have hfront : Mailbox.tasks front = [] := List.eq_nil_of_length_eq_zero (by omega)
    have hpassed : k ∈ x.mailbox.next.1 := by
      show k ∈ (Mailbox.advance x.mailbox.queue).1
      rw [hqueue]
      exact Mailbox.mem_advance_of_barriers hfront k behind
    rw [step, if_pos (by simp [able, hopen])]
    exact List.mem_append_right _ (List.mem_map_of_mem hpassed)

theorem Bars.turn {y : Office τ} (hbars : x.Bars k due) (hnot : ¬ x.Passes due e) (hturn : Turn x e y) : y.Bars k due := by
  obtain ⟨front, behind, hqueue, hlength⟩ := hbars
  cases hturn with
  | idle => exact ⟨front, behind, hqueue, hlength⟩
  | handles => exact ⟨front, behind, hqueue, hlength⟩
  | @posted t he hopen =>
    refine ⟨front, behind ++ [.task t], ?_, hlength⟩
    rw [hqueue, List.append_assoc]
    rfl
  | @called envelope outcome he hopen =>
    refine ⟨front, behind ++ [envelope], ?_, hlength⟩
    rw [hqueue, List.append_assoc]
    rfl
  | refused => exact ⟨front, behind, hqueue, hlength⟩
  | handed he hopen =>
    have hfront : Mailbox.tasks front ≠ [] := by
      intro hnil
      apply hnot
      rw [hnil, List.length_nil] at hlength
      exact .inr ⟨he, by omega⟩
    obtain ⟨envelope, hnext, htasks, hrest⟩ := Mailbox.next_of_front _ hqueue hfront
    refine ⟨_, behind, hrest, ?_⟩
    rw [htasks, List.length_cons] at hlength
    rw [hnext, List.length_append]
    simp only [Option.toList_some, List.length_cons, List.length_nil]
    omega
  | settled => exact ⟨front, behind, hqueue, hlength⟩
  | closed he hopen => exact absurd (.inl he) hnot

theorem Bars.step (x : Office τ) (e : Event τ) (h : x.Sound) (hbars : x.Bars k due) :
    (∃ outcome : CallOutcome, (outcome = .drained ∧ x.Passes due e) ∧ (k, outcome) ∈ (x.step e).ended) ∨
      (∀ outcome : CallOutcome, ¬ (outcome = .drained ∧ x.Passes due e)) ∧ (x.step e).Bars k due := by
  by_cases hpasses : x.Passes due e
  · exact .inl ⟨.drained, ⟨rfl, hpasses⟩, hbars.mem_ended h hpasses⟩
  · exact .inr ⟨fun _ hends => hpasses hends.2, hbars.turn hpasses (x.turn_step e)⟩

/-- A barrier holds exactly until an event lets it pass. -/
theorem Bars.ended_iff (h : x.Sound) (hbars : x.Bars k due) (es : List (Event τ)) :
    (k, outcome) ∈ (x.after es).ended ↔ outcome = .drained ∧ Meets (Passes due) x es := by
  rcases ends_or_waits k (Bars k due) (fun x e outcome => outcome = .drained ∧ x.Passes due e) Bars.step h hbars es with
    ⟨outcome', ⟨before, e, after, hes, rfl, hpasses⟩, hended⟩ | ⟨hnot, hwaits⟩
  · constructor
    · intro hended'
      exact ⟨(h.after es).ended_unique hended' hended, before, e, after, hes, hpasses⟩
    · rintro ⟨rfl, -⟩
      exact hended
  · constructor
    · intro hended
      exact absurd hended ((h.after es).not_ended (.inl hwaits.queued))
    · rintro ⟨rfl, before, e, after, hes, hpasses⟩
      exact absurd ⟨before, e, after, hes, rfl, hpasses⟩ (hnot .drained)

/-! ### Requests -/

/-- The request of a call can still be answered: it is in the mailbox, or the role holds it. -/
def Pends (t : τ) (k : Nat) (x : Office τ) : Prop := .request t k ∈ x.mailbox.queue ∨ k ∈ x.held

/-- What ends the call of a request. -/
inductive Ends (t : τ) (k : Nat) (x : Office τ) : Event τ → CallOutcome → Prop
  /-- The role drops its end of the mailbox, and the request in it. -/
  | lost (h : .request t k ∈ x.mailbox.queue) : Ends t k x .close (.failed .unanswered)
  | forgotten (h : k ∈ x.held) : Ends t k x (.forget k) (.failed .unanswered)
  | replied (h : k ∈ x.held) : Ends t k x (.reply k) .answered

variable {t : τ}

theorem Pends.queued (h : x.Pends t k) : k ∈ x.queued ∨ k ∈ x.held :=
  h.imp_left fun hmem => List.mem_filterMap.2 ⟨_, hmem, rfl⟩

theorem Ends.mem_ended (h : x.Sound) (hends : x.Ends t k e outcome) : (k, outcome) ∈ (x.step e).ended := by
  cases hends with
  | lost hmem =>
    rw [step, if_pos (by simp [able, h.open_of_mem hmem])]
    exact List.mem_append_right _ (List.mem_filterMap.2 ⟨_, hmem, rfl⟩)
  | forgotten hk =>
    rw [step, if_pos (by simp [able, hk])]
    exact List.mem_append_right _ (List.mem_singleton.2 rfl)
  | replied hk =>
    rw [step, if_pos (by simp [able, hk])]
    exact List.mem_append_right _ (List.mem_singleton.2 rfl)

theorem Pends.turn {y : Office τ} (hpends : x.Pends t k) (hnot : ∀ outcome, ¬ x.Ends t k e outcome)
    (hturn : Turn x e y) : y.Pends t k := by
  cases hturn with
  | idle => exact hpends
  | handles => exact hpends
  | posted => exact hpends.imp_left (List.mem_append_left _)
  | called => exact hpends.imp_left (List.mem_append_left _)
  | refused => exact hpends
  | handed he hopen =>
    rcases hpends with hmem | hheld
    · rw [Mailbox.queue_next x.mailbox, List.mem_append, List.mem_append] at hmem
      rcases hmem with (hpassed | hnext) | hkept
      · obtain ⟨k', -, hk'⟩ := List.mem_map.1 hpassed
        cases hk'
      · exact .inr (List.mem_append_right _ (List.mem_filterMap.2 ⟨_, hnext, rfl⟩))
      · exact .inl hkept
    · exact .inr (List.mem_append_left _ hheld)
  | @settled k' outcome he hk' =>
    refine hpends.imp_right fun hheld => (List.mem_erase_of_ne ?_).2 hheld
    rintro rfl
    cases he with
    | reply => exact hnot _ (.replied hheld)
    | forget => exact hnot _ (.forgotten hheld)
  | closed he hopen =>
    rcases hpends with hmem | hheld
    · rw [he] at hnot
      exact absurd (.lost hmem) (hnot _)
    · exact .inr hheld

theorem Pends.step (x : Office τ) (e : Event τ) (h : x.Sound) (hpends : x.Pends t k) :
    (∃ outcome, x.Ends t k e outcome ∧ (k, outcome) ∈ (x.step e).ended) ∨
      (∀ outcome, ¬ x.Ends t k e outcome) ∧ (x.step e).Pends t k := by
  by_cases hends : ∃ outcome, x.Ends t k e outcome
  · obtain ⟨outcome, hends⟩ := hends
    exact .inl ⟨outcome, hends, hends.mem_ended h⟩
  · have hnot := not_exists.1 hends
    exact .inr ⟨hnot, hpends.turn hnot (x.turn_step e)⟩

theorem mem_ended_of_meets (h : x.Sound) {es : List (Event τ)} (hmeets : Meets (Ends t k · · outcome) x es) :
    (k, outcome) ∈ (x.after es).ended := by
  obtain ⟨before, e, after, rfl, hends⟩ := hmeets
  rw [after_append]
  exact (ended_after _ after).subset (hends.mem_ended (h.after before))

/-- The call of a request ends exactly with what ends it. -/
theorem Pends.ended_iff (h : x.Sound) (hpends : x.Pends t k) (es : List (Event τ)) :
    (k, outcome) ∈ (x.after es).ended ↔ Meets (Ends t k · · outcome) x es := by
  refine ⟨fun hended => ?_, mem_ended_of_meets h⟩
  rcases ends_or_waits k (Pends t k) (Ends t k) Pends.step h hpends es with ⟨outcome', hmeets, hended'⟩ | ⟨-, hwaits⟩
  · obtain rfl := (h.after es).ended_unique hended hended'
    exact hmeets
  · exact absurd hended ((h.after es).not_ended hwaits.queued)

/-- It hangs only while somebody can answer it. -/
theorem Pends.not_ended_iff (h : x.Sound) (hpends : x.Pends t k) (es : List (Event τ)) :
    (∀ outcome, (k, outcome) ∉ (x.after es).ended) ↔ (x.after es).Pends t k := by
  refine ⟨fun hnot => ?_, fun hwaits _ => (h.after es).not_ended hwaits.queued⟩
  rcases ends_or_waits k (Pends t k) (Ends t k) Pends.step h hpends es with ⟨outcome, -, hended⟩ | ⟨-, hwaits⟩
  · exact absurd hended (hnot outcome)
  · exact hwaits

/-! ### The contract -/

theorem step_of_calls {envelope : Envelope τ Nat} (he : x.Calls e envelope outcome) (hhandles : x.mailbox.handles ≠ 0) :
    x.step e = x.call envelope outcome := by
  cases he with
  | ask t => exact if_pos (bne_iff_ne.2 hhandles)
  | drain => exact if_pos (bne_iff_ne.2 hhandles)

theorem mem_ended_of_refused {envelope : Envelope τ Nat} (he : x.Calls e envelope outcome)
    (hhandles : x.mailbox.handles ≠ 0) (hclosed : x.mailbox.closed = true) (es : List (Event τ)) :
    (x.calls, outcome) ∈ ((x.step e).after es).ended := by
  apply (ended_after _ es).subset
  rw [step_of_calls he hhandles, call, Mailbox.post_of_closed hclosed]
  exact List.mem_append_right _ (List.mem_singleton.2 rfl)

theorem queue_of_calls {envelope : Envelope τ Nat} (he : x.Calls e envelope outcome) (hhandles : x.mailbox.handles ≠ 0)
    (hopen : x.mailbox.closed = false) : (x.step e).mailbox.queue = x.mailbox.queue ++ [envelope] := by
  rw [step_of_calls he hhandles, call, Mailbox.post_of_open hopen]
  rfl

theorem returned_of_calls {envelope : Envelope τ Nat} (he : x.Calls e envelope outcome)
    (hhandles : x.mailbox.handles ≠ 0) : (x.step e).returned = x.returned := by
  rw [step_of_calls he hhandles]
  unfold call
  split
  split
  · rfl
  · rfl

theorem pends_of_ask (hhandles : x.mailbox.handles ≠ 0) (hopen : x.mailbox.closed = false) (t : τ) :
    (x.step (.ask t)).Pends t x.calls := by
  left
  rw [queue_of_calls (.ask t) hhandles hopen]
  exact List.mem_append_right _ (List.mem_singleton.2 rfl)

/-- A drain ends when the role asks for its next task with all tasks handed out that were posted before it, or when the
role is gone. -/
theorem Sound.drain_ended_iff (h : x.Sound) (hhandles : x.mailbox.handles ≠ 0) (es : List (Event τ)) :
    (x.calls, outcome) ∈ ((x.step .drain).after es).ended ↔
      outcome = .drained ∧ (x.mailbox.closed = true ∨ Meets (Passes x.accepted.length) (x.step .drain) es) := by
  have hsound := h.step .drain
  cases hclosed : x.mailbox.closed with
  | true =>
    have hended := mem_ended_of_refused .drain hhandles hclosed es
    constructor
    · intro hended'
      exact ⟨(hsound.after es).ended_unique hended' hended, .inl rfl⟩
    · rintro ⟨rfl, -⟩
      exact hended
  | false =>
    have hbars : (x.step .drain).Bars x.calls x.accepted.length := by
      refine ⟨x.mailbox.queue, [], queue_of_calls .drain hhandles hclosed, ?_⟩
      rw [returned_of_calls .drain hhandles, h.kept hclosed, List.length_append]
    rw [hbars.ended_iff hsound]
    simp

/-- The call of a request ends when it is answered, when it is dropped, and at once when the role is gone. -/
theorem Sound.ask_ended_iff (h : x.Sound) (hhandles : x.mailbox.handles ≠ 0) (t : τ) (es : List (Event τ)) :
    (x.calls, outcome) ∈ ((x.step (.ask t)).after es).ended ↔
      (x.mailbox.closed = true ∧ outcome = .failed (.queueClosed x.role)) ∨
        Meets (Ends t x.calls · · outcome) (x.step (.ask t)) es := by
  have hsound := h.step (.ask t)
  cases hclosed : x.mailbox.closed with
  | true =>
    have hended := mem_ended_of_refused (.ask t) hhandles hclosed es
    constructor
    · intro hended'
      exact .inl ⟨rfl, (hsound.after es).ended_unique hended' hended⟩
    · rintro (⟨-, rfl⟩ | hmeets)
      · exact hended
      · exact mem_ended_of_meets hsound hmeets
  | false =>
    rw [(pends_of_ask hhandles hclosed t).ended_iff hsound]
    simp

/-- The call of a request hangs only while the request can still be answered. -/
theorem Sound.ask_hangs_iff (h : x.Sound) (hhandles : x.mailbox.handles ≠ 0) (t : τ) (es : List (Event τ)) :
    (∀ outcome, (x.calls, outcome) ∉ ((x.step (.ask t)).after es).ended) ↔
      ((x.step (.ask t)).after es).Pends t x.calls := by
  have hsound := h.step (.ask t)
  cases hclosed : x.mailbox.closed with
  | true =>
    have hended := mem_ended_of_refused (.ask t) hhandles hclosed es
    constructor
    · intro hnot
      exact absurd hended (hnot _)
    · intro hpends outcome
      exact (hsound.after es).not_ended hpends.queued
  | false => exact (pends_of_ask hhandles hclosed t).not_ended_iff hsound es

/-- While the role is there it is handed the oldest task that it has not got, and its mailbox ends when there is none and
no handle is left. -/
theorem Sound.next (h : x.Sound) (hopen : x.mailbox.closed = false) :
    x.mailbox.next.2.1.envelope? = x.accepted[x.returned.length]? ∧
      (x.mailbox.next.2.1 = .ended ↔ x.mailbox.handles = 0 ∧ x.returned = x.accepted) := by
  rw [h.kept hopen]
  constructor
  · rw [List.getElem?_append_right (Nat.le_refl _), Nat.sub_self, ← List.head?_eq_getElem?, Mailbox.head?_tasks]
  · rw [Mailbox.next_eq_ended_iff, and_comm, List.self_eq_append_right]

theorem run_append_cons (role : String) (before : List (Event τ)) (e : Event τ) (after : List (Event τ)) :
    run role (before ++ e :: after) = ((run role before).step e).after after :=
  after_append ..

/-- **What a role and its callers can rely on**, in whatever order they use the mailbox. What the role is handed are the
first of the tasks that were posted with success, and while it is there it gets the next one of them; it is told that its
mailbox has ended only with no handle left and everything handed out. A task is refused exactly when the role is gone. A
drain ends when the role comes back with everything handed out that was posted before, whatever was posted behind it, or
when the role is gone. The call of a request ends when the role is gone or drops the request, and then with an error, and
it hangs only while somebody can still answer it. -/
theorem run_keeps_contract (role : String) (es : List (Event τ)) :
    (run role es).returned <+: (run role es).accepted ∧
    (∀ t, ((run role es).mailbox.run t).1 = false ↔ .close ∈ es) ∧
    (.close ∉ es →
      (run role es).mailbox.next.2.1.envelope? = (run role es).accepted[(run role es).returned.length]? ∧
      ((run role es).mailbox.next.2.1 = .ended ↔
        (run role es).mailbox.handles = 0 ∧ (run role es).returned = (run role es).accepted)) ∧
    (∀ before after, es = before ++ .drain :: after → (run role before).mailbox.handles ≠ 0 →
      ∀ outcome, ((run role before).calls, outcome) ∈ (run role es).ended ↔
        outcome = .drained ∧ (.close ∈ before ∨
          Meets (Passes (run role before).accepted.length) (run role (before ++ [.drain])) after)) ∧
    (∀ before t after, es = before ++ .ask t :: after → (run role before).mailbox.handles ≠ 0 →
      (∀ outcome, ((run role before).calls, outcome) ∈ (run role es).ended ↔
        (.close ∈ before ∧ outcome = .failed (.queueClosed role)) ∨
          Meets (Ends t (run role before).calls · · outcome) (run role (before ++ [.ask t])) after) ∧
      ((∀ outcome, ((run role before).calls, outcome) ∉ (run role es).ended) ↔
        (run role es).Pends t (run role before).calls)) := by
  have hsound := sound_run role es
  refine ⟨hsound.ordered, fun t => ?_, fun hopen => hsound.next ?_, ?_, ?_⟩
  · rw [← closed_run role es]
    unfold Mailbox.run Mailbox.post
    split <;> simp_all
  · rw [← closed_run role es] at hopen
    exact Bool.eq_false_iff.2 hopen
  · rintro before after rfl hhandles outcome
    rw [← closed_run role before, run_concat, run_append_cons]
    exact (sound_run role before).drain_ended_iff hhandles after
  · rintro before t after rfl hhandles
    rw [run_concat, run_append_cons]
    refine ⟨fun outcome => ?_, (sound_run role before).ask_hangs_iff hhandles t after⟩
    rw [← closed_run role before, (sound_run role before).ask_ended_iff hhandles t after, role_run]

theorem contract_of_drain_and_ask :
    let es : List (Event Nat) := [.post 5, .drain, .post 6, .next, .next, .ask 7, .next, .reply 1]
    .close ∉ es ∧ (run "test" [(.post 5 : Event Nat)]).mailbox.handles ≠ 0 ∧
      (0, .drained) ∈ (run "test" es).ended ∧ (1, .answered) ∈ (run "test" es).ended ∧
      (run "test" es).mailbox.next.2.1 ≠ .ended := by
  intro es
  have hopen : .close ∉ es := by decide
  have hhandles : (run "test" [(.post 5 : Event Nat)]).mailbox.handles ≠ 0 := by decide
  obtain ⟨-, -, hnext, hdrain, hask⟩ := run_keeps_contract "test" es
  refine ⟨hopen, hhandles, ?_, ?_, ?_⟩
  · refine (hdrain [.post 5] _ rfl hhandles .drained).2 ?_
    exact ⟨rfl, .inr ⟨[.post 6, .next], .next, [.ask 7, .next, .reply 1], rfl, .inr ⟨rfl, by decide⟩⟩⟩
  · refine ((hask [.post 5, .drain, .post 6, .next, .next] 7 _ rfl (by decide)).1 .answered).2 ?_
    exact .inr ⟨[.next], .reply 1, [], rfl, .replied (by decide)⟩
  · rw [Ne, (hnext hopen).2]
    decide

end Office

end ReliableMulticast
