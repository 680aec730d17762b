import ReliableMulticast.Fault
import ReliableMulticast.Proofs.Mailbox.Queue
import Mathlib.Data.List.Induction
import Mathlib.Data.List.Range

/-!
# A role with its mailbox

A role takes tasks from its mailbox while others post tasks, make calls on it and come and go. An `Office` is what comes
of such events, in whatever order they are. `Turn` says all that an event can do, and `Sound` what holds after every run:
each call is in one place, and what was posted is handed out in its order (`sound_run`).
-/

namespace ReliableMulticast

/-- How a call on a role ends. -/
inductive CallOutcome
  /-- The wait for everything posted before is over. -/
  | drained
  | answered
  | failed (error : CallError)
deriving DecidableEq, Repr

/-- A role with its mailbox and the calls on it. Calls are numbered in their order, and a caller is known to the mailbox by
that number. -/
structure Office (τ : Type) where
  role : String
  mailbox : Mailbox τ Nat
  /-- The number of calls so far. -/
  calls : Nat
  /-- The calls whose requests the role has taken, and for which it still can reply. -/
  held : List Nat
  /-- The calls that have ended, in the order in which they did. -/
  ended : List (Nat × CallOutcome)
  /-- The tasks that were posted with success, oldest first. -/
  accepted : List (Envelope τ Nat)
  /-- The tasks that were handed out to the role, oldest first. -/
  returned : List (Envelope τ Nat)

namespace Office

variable {τ : Type}

/-- What can happen to it. A caller that waits may keep its handle or drop it. -/
inductive Event (τ : Type)
  /-- Somebody posts a task. -/
  | post (t : τ)
  /-- Somebody posts a task and waits for the reply. -/
  | ask (t : τ)
  /-- Somebody waits until everything posted so far has been dealt with. -/
  | drain
  | clone
  | dropHandle
  /-- The role looks into the mailbox for its next task. Where there is none it waits, and looks again when there may be; so
  a look during which something is posted is one before and one after that. -/
  | next
  /-- The role replies to a request. -/
  | reply (k : Nat)
  /-- The role drops a request without a reply. -/
  | forget (k : Nat)
  /-- The role drops its end of the mailbox. -/
  | close
deriving DecidableEq, Repr

def begin (role : String) : Office τ := ⟨role, .new, 0, [], [], [], []⟩

/-- Who posts needs a handle, who asks for tasks needs the other end of the mailbox, and a reply needs its request. -/
def able (x : Office τ) : Event τ → Bool
  | .post _ => x.mailbox.handles != 0
  | .ask _ => x.mailbox.handles != 0
  | .drain => x.mailbox.handles != 0
  | .clone => x.mailbox.handles != 0
  | .dropHandle => x.mailbox.handles != 0
  | .next => !x.mailbox.closed
  | .reply k => x.held.contains k
  | .forget k => x.held.contains k
  | .close => !x.mailbox.closed

/-- How a call ends whose envelope is lost. -/
def lost? : Envelope τ Nat → Option (Nat × CallOutcome)
  | .task _ => none
  | .request _ k => some (k, .failed .unanswered)
  | .barrier k => some (k, .drained)

/-- Makes a call: posts its envelope, or ends at once if that is refused. -/
def call (x : Office τ) (e : Envelope τ Nat) (refused : CallOutcome) : Office τ :=
  let (ok, mailbox) := x.mailbox.post e
  if ok then
    { x with mailbox := mailbox, calls := x.calls + 1, accepted := x.accepted ++ [e].filter (·.isTask) }
  else { x with mailbox := mailbox, calls := x.calls + 1, ended := x.ended ++ [(x.calls, refused)] }

/-- Ends a call whose request the role holds. -/
def settle (x : Office τ) (k : Nat) (outcome : CallOutcome) : Office τ :=
  { x with held := x.held.erase k, ended := x.ended ++ [(k, outcome)] }

def act (x : Office τ) : Event τ → Office τ
  | .post t =>
    let (ok, mailbox) := x.mailbox.run t
    { x with mailbox := mailbox, accepted := if ok then x.accepted ++ [.task t] else x.accepted }
  | .ask t => x.call (.request t x.calls) (.failed (.queueClosed x.role))
  | .drain => x.call (.barrier x.calls) .drained
  | .clone => { x with mailbox := x.mailbox.clone }
  | .dropHandle => { x with mailbox := x.mailbox.dropHandle }
  | .next =>
    let (passed, next, mailbox) := x.mailbox.next
    { x with
      mailbox := mailbox
      held := x.held ++ next.envelope?.toList.filterMap (·.caller?)
      ended := x.ended ++ passed.map (·, .drained)
      returned := x.returned ++ next.envelope?.toList }
  | .reply k => x.settle k .answered
  | .forget k => x.settle k (.failed .unanswered)
  | .close =>
    let (lost, mailbox) := x.mailbox.close
    { x with mailbox := mailbox, ended := x.ended ++ lost.filterMap lost? }

def step (x : Office τ) (e : Event τ) : Office τ := if x.able e then x.act e else x

def after (x : Office τ) (es : List (Event τ)) : Office τ := es.foldl step x

def run (role : String) (es : List (Event τ)) : Office τ := (begin role).after es

theorem after_append (x : Office τ) (es es' : List (Event τ)) : x.after (es ++ es') = (x.after es).after es' :=
  List.foldl_append ..

theorem run_concat (role : String) (es : List (Event τ)) (e : Event τ) : run role (es ++ [e]) = (run role es).step e :=
  after_append ..

/-! ### What an event can do -/

/-- The event makes a call that posts this envelope, and that ends like this if it is refused. -/
inductive Calls (x : Office τ) : Event τ → Envelope τ Nat → CallOutcome → Prop
  | ask (t : τ) : Calls x (.ask t) (.request t x.calls) (.failed (.queueClosed x.role))
  | drain : Calls x .drain (.barrier x.calls) .drained

/-- The event ends a call whose request the role holds. -/
inductive Settles : Event τ → Nat → CallOutcome → Prop
  | reply (k : Nat) : Settles (.reply k) k .answered
  | forget (k : Nat) : Settles (.forget k) k (.failed .unanswered)

/-- All that an event can do. -/
inductive Turn (x : Office τ) (e : Event τ) : Office τ → Prop
  | idle (h : x.able e = false ∨ x.mailbox.closed = true ∧ ∃ t, e = .post t) : Turn x e x
  | handles (n : Nat) (he : e = .clone ∨ e = .dropHandle) :
    Turn x e { x with mailbox := { x.mailbox with handles := n } }
  | posted {t : τ} (he : e = .post t) (hopen : x.mailbox.closed = false) :
    Turn x e
      { x with
        mailbox := { x.mailbox with queue := x.mailbox.queue ++ [.task t] }
        accepted := x.accepted ++ [.task t] }
  | called {envelope : Envelope τ Nat} {outcome : CallOutcome} (he : x.Calls e envelope outcome)
    (hopen : x.mailbox.closed = false) :
    Turn x e
      { x with
        mailbox := { x.mailbox with queue := x.mailbox.queue ++ [envelope] }
        calls := x.calls + 1
        accepted := x.accepted ++ [envelope].filter (·.isTask) }
  | refused {envelope : Envelope τ Nat} {outcome : CallOutcome} (he : x.Calls e envelope outcome)
    (hclosed : x.mailbox.closed = true) :
    Turn x e { x with calls := x.calls + 1, ended := x.ended ++ [(x.calls, outcome)] }
  | handed (he : e = .next) (hopen : x.mailbox.closed = false) :
    Turn x e
      { x with
        mailbox := x.mailbox.next.2.2
        held := x.held ++ x.mailbox.next.2.1.envelope?.toList.filterMap (·.caller?)
        ended := x.ended ++ x.mailbox.next.1.map (·, .drained)
        returned := x.returned ++ x.mailbox.next.2.1.envelope?.toList }
  | settled {k : Nat} {outcome : CallOutcome} (he : Settles e k outcome) (hk : k ∈ x.held) :
    Turn x e { x with held := x.held.erase k, ended := x.ended ++ [(k, outcome)] }
  | closed (he : e = .close) (hopen : x.mailbox.closed = false) :
    Turn x e
      { x with
        mailbox := { x.mailbox with queue := [], closed := true }
        ended := x.ended ++ x.mailbox.queue.filterMap lost? }

theorem turn_call {x : Office τ} {e : Event τ} {envelope : Envelope τ Nat} {outcome : CallOutcome}
    (he : x.Calls e envelope outcome) : Turn x e (x.call envelope outcome) := by
  unfold call
  cases hclosed : x.mailbox.closed with
  | true =>
    rw [Mailbox.post_of_closed hclosed]
    exact .refused he hclosed
  | false =>
    rw [Mailbox.post_of_open hclosed]
    exact .called he hclosed

theorem turn_step (x : Office τ) (e : Event τ) : Turn x e (x.step e) := by
  unfold step
  split
  · next hable =>
    cases e with
    | post t =>
      dsimp only [act]
      cases hclosed : x.mailbox.closed with
      | true =>
        rw [show x.mailbox.run t = (false, x.mailbox) from Mailbox.post_of_closed hclosed _]
        exact .idle (.inr ⟨hclosed, t, rfl⟩)
      | false =>
        rw [show x.mailbox.run t = (true, _) from Mailbox.post_of_open hclosed _]
        exact .posted rfl hclosed
    | ask t => exact turn_call (.ask t)
    | drain => exact turn_call .drain
    | clone => exact .handles _ (.inl rfl)
    | dropHandle => exact .handles _ (.inr rfl)
    | next => exact .handed rfl (by simpa [able] using hable)
    | reply k => exact .settled (.reply k) (by simpa [able] using hable)
    | forget k => exact .settled (.forget k) (by simpa [able] using hable)
    | close => exact .closed rfl (by simpa [able] using hable)
  · next hable => exact .idle (.inl (by simpa using hable))

/-! ### Where a call is -/

/-- The calls in the mailbox. -/
def queued (x : Office τ) : List Nat := x.mailbox.queue.filterMap (·.caller?)

/-- Every call is in one place, and what was posted and not handed out is in the mailbox while there is somebody to hand it
out to. -/
structure Sound (x : Office τ) : Prop where
  placed : (x.ended.map (·.1) ++ x.held ++ x.queued).Perm (List.range x.calls)
  kept : x.mailbox.closed = false → x.accepted = x.returned ++ Mailbox.tasks x.mailbox.queue
  ordered : x.returned <+: x.accepted
  lost : x.mailbox.closed = true → x.mailbox.queue = []

theorem sound_begin (role : String) : Sound (begin role : Office τ) :=
  ⟨List.Perm.refl _, fun _ => rfl, List.prefix_refl _, fun _ => rfl⟩

theorem Calls.caller?_eq {x : Office τ} {e : Event τ} {envelope : Envelope τ Nat} {outcome : CallOutcome}
    (h : x.Calls e envelope outcome) : envelope.caller? = some x.calls := by
  cases h with
  | ask t => rfl
  | drain => rfl

theorem map_lost? (queue : List (Envelope τ Nat)) :
    (queue.filterMap lost?).map (·.1) = queue.filterMap (·.caller?) := by
  induction queue with
  | nil => rfl
  | cons e queue ih =>
    cases e with
    | task t => exact ih
    | request t k => exact congrArg (k :: ·) ih
    | barrier k => exact congrArg (k :: ·) ih

theorem callers_barriers (callers : List Nat) :
    (callers.map (.barrier · : Nat → Envelope τ Nat)).filterMap (·.caller?) = callers := by
  induction callers with
  | nil => rfl
  | cons k callers ih => exact congrArg (k :: ·) ih

/-- Where the calls in the mailbox go when the role looks into it. -/
theorem queued_next (x : Office τ) : x.queued =
    x.mailbox.next.1 ++ x.mailbox.next.2.1.envelope?.toList.filterMap (·.caller?) ++
      x.mailbox.next.2.2.queue.filterMap (·.caller?) := by
  unfold queued
  conv => lhs; rw [Mailbox.queue_next x.mailbox]
  rw [List.filterMap_append, List.filterMap_append, callers_barriers]

variable {x y : Office τ} {e : Event τ}

theorem Sound.kept_post (h : x.Sound) (hopen : x.mailbox.closed = false) (envelope : Envelope τ Nat) :
    x.accepted ++ [envelope].filter (·.isTask) = x.returned ++ Mailbox.tasks (x.mailbox.queue ++ [envelope]) := by
  rw [h.kept hopen, Mailbox.tasks_append, List.append_assoc]
  rfl

/-- **An event keeps each call in one place**, and the tasks in their order. -/
theorem Sound.turn (h : x.Sound) (hturn : Turn x e y) : y.Sound := by
  have hplaced := h.placed
  cases hturn with
  | idle => exact h
  | handles n => exact ⟨h.placed, h.kept, h.ordered, h.lost⟩
  | @posted t he hopen =>
    constructor
    · simpa [queued, Envelope.caller?] using hplaced
    · exact fun _ => h.kept_post hopen (.task t)
    · exact h.ordered.trans (List.prefix_append ..)
    · exact fun hclosed => absurd (hopen.symm.trans hclosed) Bool.false_ne_true
  | @called envelope outcome he hopen =>
    constructor
    · simpa [queued, he.caller?_eq, List.range_succ] using hplaced.append_right [x.calls]
    · exact fun _ => h.kept_post hopen envelope
    · exact h.ordered.trans (List.prefix_append ..)
    · exact fun hclosed => absurd (hopen.symm.trans hclosed) Bool.false_ne_true
  | @refused envelope outcome he hclosed =>
    -- from here on calls only move, and the places are the same as before if each call is in them as often
    refine ⟨?_, h.kept, h.ordered, h.lost⟩
    rw [List.range_succ]
    apply List.Perm.trans _ (hplaced.append_right [x.calls])
    simp only [queued, List.map_append, List.perm_iff_count, List.count_append]
    intro k
    simp only [List.map_cons, List.map_nil]
    omega
  | handed he hopen =>
    have hkept : x.accepted = x.returned ++ x.mailbox.next.2.1.envelope?.toList ++
        Mailbox.tasks x.mailbox.next.2.2.queue := by
      rw [h.kept hopen, List.append_assoc, Mailbox.tasks_next]
    constructor
    · apply List.Perm.trans _ hplaced
      rw [queued_next x]
      simp only [queued, List.map_append, List.map_map, Function.comp_def, List.map_id', List.perm_iff_count,
        List.count_append]
      intro k
      omega
    · exact fun _ => hkept
    · exact ⟨_, hkept.symm⟩
    · exact fun hclosed => absurd (hopen.symm.trans hclosed) Bool.false_ne_true
  | @settled k outcome he hk =>
    refine ⟨?_, h.kept, h.ordered, h.lost⟩
    apply List.Perm.trans _ hplaced
    have herase := List.perm_iff_count.1 (List.perm_cons_erase hk)
    simp only [queued, List.map_append, List.perm_iff_count, List.count_append]
    intro k'
    have := herase k'
    simp only [List.count_cons, List.map_cons, List.map_nil, List.count_nil] at this ⊢
    omega
  | closed he hopen =>
    refine ⟨?_, nofun, h.ordered, fun _ => rfl⟩
    apply List.Perm.trans _ hplaced
    simp only [queued, List.map_append, map_lost?, List.perm_iff_count, List.count_append, List.filterMap_nil,
      List.count_nil]
    intro k
    omega

theorem Sound.step (h : x.Sound) (e : Event τ) : (x.step e).Sound := h.turn (x.turn_step e)

theorem Sound.after (h : x.Sound) (es : List (Event τ)) : (x.after es).Sound := by
  induction es generalizing x with
  | nil => exact h
  | cons e es ih => exact ih (h.step e)

theorem sound_run (role : String) (es : List (Event τ)) : (run role es).Sound := (sound_begin role).after es

end Office

end ReliableMulticast
