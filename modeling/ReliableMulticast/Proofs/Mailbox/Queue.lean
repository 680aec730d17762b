import ReliableMulticast.Mailbox
import Mathlib.Data.List.Basic

/-!
# What a mailbox hands out

Asking a mailbox for the next task cuts its queue into three parts (`Mailbox.queue_next`): the barriers at its head, the
task behind them, if there is one, and the rest. A barrier is passed exactly if no task is in front of it
(`Mailbox.mem_advance_of_barriers`, `Mailbox.advance_append`).
-/

namespace ReliableMulticast

variable {τ κ : Type}

namespace Envelope

/-- It asks the role to deal with something, and is not just a barrier. -/
def isTask : Envelope τ κ → Bool
  | task _ => true
  | request _ _ => true
  | barrier _ => false

def caller? : Envelope τ κ → Option κ
  | task _ => none
  | request _ caller => some caller
  | barrier caller => some caller

end Envelope

namespace Mailbox

/-- What is handed out with an answer. -/
def Next.envelope? : Next τ κ → Option (Envelope τ κ)
  | task t => some (.task t)
  | request t caller => some (.request t caller)
  | pending => none
  | ended => none

/-- The tasks among what is posted. -/
def tasks (queue : List (Envelope τ κ)) : List (Envelope τ κ) := queue.filter (·.isTask)

theorem tasks_append (queue queue' : List (Envelope τ κ)) : tasks (queue ++ queue') = tasks queue ++ tasks queue' :=
  List.filter_append ..

theorem tasks_barriers (callers : List κ) : tasks (callers.map (.barrier · : κ → Envelope τ κ)) = [] := by
  induction callers with
  | nil => rfl
  | cons caller callers ih => exact ih

/-! ### Posting -/

theorem post_of_open {m : Mailbox τ κ} (h : m.closed = false) (e : Envelope τ κ) :
    m.post e = (true, { m with queue := m.queue ++ [e] }) := by
  unfold post
  rw [h]
  rfl

theorem post_of_closed {m : Mailbox τ κ} (h : m.closed = true) (e : Envelope τ κ) : m.post e = (false, m) := by
  unfold post
  rw [if_pos h]

theorem mem_queue_post {m : Mailbox τ κ} {e e' : Envelope τ κ} (h : e' ∈ (m.post e).2.queue) : e' ∈ m.queue ∨ e' = e := by
  unfold post at h
  split at h
  · exact Or.inl h
  · rcases List.mem_append.1 h with h | h
    · exact Or.inl h
    · exact Or.inr (List.mem_singleton.1 h)

/-! ### Handing out -/

theorem queue_of_take? {m box : Mailbox τ κ} {e : Envelope τ κ} (h : m.take? = some (e, box)) :
    m.queue = e :: box.queue ∧ box.closed = m.closed := by
  unfold take? at h
  split at h
  · cases h
  · next hqueue =>
    cases h
    exact ⟨hqueue, rfl⟩

theorem queue_advance (queue : List (Envelope τ κ)) : queue =
    (advance queue).1.map .barrier ++ ((advance queue).2.1.bind Next.envelope?).toList ++ (advance queue).2.2 := by
  induction queue with
  | nil => rfl
  | cons e rest ih =>
    cases e with
    | task t => rfl
    | request t caller => rfl
    | barrier caller => exact congrArg (.barrier caller :: ·) ih

/-- There is a task to hand out, or all there was were barriers. -/
theorem advance_cases (queue : List (Envelope τ κ)) :
    (∃ next e, (advance queue).2.1 = some next ∧ next.envelope? = some e ∧ e.isTask = true) ∨
      ((advance queue).2.1 = none ∧ (advance queue).2.2 = []) := by
  induction queue with
  | nil => exact .inr ⟨rfl, rfl⟩
  | cons e rest ih =>
    cases e with
    | task t => exact .inl ⟨_, _, rfl, rfl, rfl⟩
    | request t caller => exact .inl ⟨_, _, rfl, rfl, rfl⟩
    | barrier caller => exact ih

/-- A barrier is passed when there are only barriers in front of it. -/
theorem mem_advance_of_barriers {front : List (Envelope τ κ)} (h : tasks front = []) (caller : κ)
    (behind : List (Envelope τ κ)) : caller ∈ (advance (front ++ .barrier caller :: behind)).1 := by
  induction front with
  | nil => exact List.mem_cons_self
  | cons e front ih =>
    cases e with
    | task t => cases h
    | request t caller' => cases h
    | barrier caller' => exact List.mem_cons_of_mem _ (ih h)

/-- Where there is a task, nothing behind it matters. -/
theorem advance_append {front : List (Envelope τ κ)} (h : tasks front ≠ []) (behind : List (Envelope τ κ)) :
    advance (front ++ behind) = ((advance front).1, (advance front).2.1, (advance front).2.2 ++ behind) := by
  induction front with
  | nil => exact absurd rfl h
  | cons e front ih =>
    cases e with
    | task t => rfl
    | request t caller => rfl
    | barrier caller =>
      show (caller :: (advance (front ++ behind)).1, (advance (front ++ behind)).2.1, (advance (front ++ behind)).2.2) = _
      rw [ih h]
      rfl

variable (m : Mailbox τ κ)

theorem envelope?_next : m.next.2.1.envelope? = (advance m.queue).2.1.bind Next.envelope? := by
  show ((advance m.queue).2.1.getD _).envelope? = _
  rcases advance_cases m.queue with ⟨next, e, hnext, -⟩ | ⟨hnone, -⟩
  · rw [hnext]
    rfl
  · rw [hnone]
    by_cases hhandles : m.handles = 0
    · rw [if_pos hhandles]
      rfl
    · rw [if_neg hhandles]
      rfl

/-- **The queue that a mailbox hands out of**: barriers that it passes, what it hands out, and what it keeps. -/
theorem queue_next : m.queue = m.next.1.map .barrier ++ m.next.2.1.envelope?.toList ++ m.next.2.2.queue := by
  rw [envelope?_next]
  exact queue_advance m.queue

theorem isTask_of_next {e : Envelope τ κ} (h : m.next.2.1.envelope? = some e) : e.isTask = true := by
  rw [envelope?_next] at h
  rcases advance_cases m.queue with ⟨next, e', hnext, he', htask⟩ | ⟨hnone, -⟩
  · rw [hnext] at h
    obtain rfl : e' = e := Option.some.inj (he'.symm.trans h)
    exact htask
  · rw [hnone] at h
    cases h

theorem tasks_next : tasks m.queue = m.next.2.1.envelope?.toList ++ tasks m.next.2.2.queue := by
  conv => lhs; rw [queue_next m]
  rw [tasks_append, tasks_append, tasks_barriers, List.nil_append]
  congr 1
  cases h : m.next.2.1.envelope? with
  | none => rfl
  | some e => exact List.filter_cons_of_pos (isTask_of_next m h)

/-- Where nothing is handed out nothing is kept, and the handles that are left decide whether to wait. -/
theorem next_of_envelope?_eq_none (h : m.next.2.1.envelope? = none) :
    m.next.2.2.queue = [] ∧ m.next.2.1 = if m.handles = 0 then .ended else .pending := by
  rw [envelope?_next] at h
  rcases advance_cases m.queue with ⟨next, e, hnext, he, -⟩ | ⟨hnone, hrest⟩
  · rw [hnext, Option.bind_some, he] at h
    cases h
  · refine ⟨hrest, ?_⟩
    show (advance m.queue).2.1.getD _ = _
    rw [hnone]
    rfl

/-- Where there is a task in the front of the queue, the first one is handed out, and what is behind stays behind. -/
theorem next_of_front {front behind : List (Envelope τ κ)} (hqueue : m.queue = front ++ behind) (h : tasks front ≠ []) :
    ∃ e, m.next.2.1.envelope? = some e ∧ tasks front = e :: tasks (advance front).2.2 ∧
      m.next.2.2.queue = (advance front).2.2 ++ behind := by
  have hadvance : advance m.queue = ((advance front).1, (advance front).2.1, (advance front).2.2 ++ behind) := by
    rw [hqueue]
    exact advance_append h behind
  have htasks := tasks_next { m with queue := front }
  rw [envelope?_next] at htasks
  rcases advance_cases front with ⟨next, e, hnext, he, -⟩ | ⟨hnone, hrest⟩
  · refine ⟨e, ?_, ?_, congrArg (·.2.2) hadvance⟩
    · rw [envelope?_next, hadvance, hnext]
      exact he
    · rw [hnext, Option.bind_some, he] at htasks
      exact htasks
  · refine absurd (htasks.trans ?_) h
    rw [hnone, show next _ = (_, _, { m with queue := (advance front).2.2 }) from rfl, hrest]
    rfl

/-- What is handed out is the first of the tasks. -/
theorem head?_tasks : (tasks m.queue).head? = m.next.2.1.envelope? := by
  rw [tasks_next]
  cases h : m.next.2.1.envelope? with
  | none =>
    rw [(next_of_envelope?_eq_none m h).1]
    rfl
  | some e => rfl

/-- A mailbox has ended when no task is posted and no handle is left. -/
theorem next_eq_ended_iff : m.next.2.1 = .ended ↔ tasks m.queue = [] ∧ m.handles = 0 := by
  rw [← List.head?_eq_none_iff, head?_tasks]
  constructor
  · intro h
    have hnone : m.next.2.1.envelope? = none := by
      rw [h]
      rfl
    refine ⟨hnone, ?_⟩
    by_contra hhandles
    have hpending := (next_of_envelope?_eq_none m hnone).2
    rw [h, if_neg hhandles] at hpending
    cases hpending
  · rintro ⟨hnone, hhandles⟩
    rw [(next_of_envelope?_eq_none m hnone).2, if_pos hhandles]

variable {m}

theorem mem_queue_of_next {e : Envelope τ κ} (h : m.next.2.1.envelope? = some e) : e ∈ m.queue := by
  rw [queue_next m, h]
  simp

theorem task_mem_of_next {t : τ} (h : m.next.2.1 = .task t) : .task t ∈ m.queue := by
  apply mem_queue_of_next
  rw [h]
  rfl

theorem request_mem_of_next {t : τ} {caller : κ} (h : m.next.2.1 = .request t caller) : .request t caller ∈ m.queue := by
  apply mem_queue_of_next
  rw [h]
  rfl

theorem mem_queue_of_mem_next {e : Envelope τ κ} (h : e ∈ m.next.2.2.queue) : e ∈ m.queue := by
  rw [queue_next m]
  exact List.mem_append_right _ h

end Mailbox

end ReliableMulticast
