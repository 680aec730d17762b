/-!
Mailboxes: the queue of work of one role, fed through handles. Beside plain tasks it carries
requests, whose caller waits for an answer, and barriers, whose caller waits until the role has
dealt with everything posted before.
-/

namespace ReliableMulticast

inductive Envelope (τ κ : Type)
  | task (t : τ)
  | request (t : τ) (caller : κ)
  | barrier (caller : κ)
deriving DecidableEq, Repr

structure Mailbox (τ κ : Type) where
  /-- What is posted and not yet taken, oldest first. -/
  queue : List (Envelope τ κ)
  /-- The handles through which more can be posted. -/
  handles : Nat
  /-- The role is gone. -/
  closed : Bool
deriving DecidableEq, Repr

namespace Mailbox

variable {τ κ : Type}

/-- An empty mailbox with one handle. -/
def new : Mailbox τ κ := ⟨[], 1, false⟩

instance : Inhabited (Mailbox τ κ) := ⟨new⟩

/-- What comes of asking for the next task. -/
inductive Next (τ κ : Type)
  | task (t : τ)
  | request (t : τ) (caller : κ)
  /-- Nothing is posted, but more may come. -/
  | pending
  /-- Nothing is posted, and nothing can be any more. -/
  | ended
deriving DecidableEq, Repr

def clone (m : Mailbox τ κ) : Mailbox τ κ := { m with handles := m.handles + 1 }

def dropHandle (m : Mailbox τ κ) : Mailbox τ κ := { m with handles := m.handles - 1 }

/-- Posts an envelope; it is refused when the role is gone. -/
def post (m : Mailbox τ κ) (e : Envelope τ κ) : Bool × Mailbox τ κ :=
  if m.closed then (false, m) else (true, { m with queue := m.queue ++ [e] })

def run (m : Mailbox τ κ) (t : τ) : Bool × Mailbox τ κ := m.post (.task t)

/-- The first task of a queue, the callers whose barriers stood before it, and what is behind. -/
def advance : List (Envelope τ κ) → List κ × Option (Next τ κ) × List (Envelope τ κ)
  | [] => ([], none, [])
  | .task t :: rest => ([], some (.task t), rest)
  | .request t caller :: rest => ([], some (.request t caller), rest)
  | .barrier caller :: rest =>
    let (callers, next, rest) := advance rest
    (caller :: callers, next, rest)

/-- Asks for the next task. Barriers before it are passed, since everything posted before them
has been dealt with; their callers are the first part of the answer. -/
def next (m : Mailbox τ κ) : List κ × Next τ κ × Mailbox τ κ :=
  let (callers, next, queue) := advance m.queue
  (callers, next.getD (if m.handles = 0 then .ended else .pending), { m with queue := queue })

/-- Takes the oldest envelope. -/
def take? (m : Mailbox τ κ) : Option (Envelope τ κ × Mailbox τ κ) :=
  match m.queue with
  | [] => none
  | e :: rest => some (e, { m with queue := rest })

/-- The role ends. What was posted is lost: the answer is the envelopes nobody took. -/
def close (m : Mailbox τ κ) : List (Envelope τ κ) × Mailbox τ κ :=
  (m.queue, { m with queue := [], closed := true })

end Mailbox

end ReliableMulticast
