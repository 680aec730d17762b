import ReliableMulticast.Proofs.Publisher.Serving

/-!
# What a source gets through

A source gets its application data through and no control message (`SnapshotScript.accepted`). At the first control
message it comes back with an error, unless it passes over errors (`SnapshotScript.returned`).

Source and session are two tasks with a channel between them that has room for some frames. A `Pipe` is the three of them.
The tasks take turns as they please: in a turn the source writes one frame, if there is room for it, or comes to its end;
in a turn the session takes one frame out of the channel and writes it, or ends the snapshot when the source has ended and
the channel is empty.

Main statements: whatever the turns, the session writes what the source got through, in order, and is over only when it has
written all of that and ended the snapshot with what the source came back with (`Pipe.delivers`). It is over as soon as
both tasks have had enough turns (`Pipe.over_of_rounds`).
-/

namespace ReliableMulticast

namespace SnapshotScript

/-- The frames that get through. Without passing over errors nothing gets through behind the first control message. -/
def accepted (s : SnapshotScript) : List Frame :=
  if s.ignoreErrors then s.frames.filter (!·.isControl) else s.frames.takeWhile (!·.isControl)

/-- The frame whose refusal the source comes back with. -/
def refused? (s : SnapshotScript) : Option Frame :=
  if s.ignoreErrors then none else s.frames.find? (·.isControl)

/-- What the source comes back with. -/
def returned (s : SnapshotScript) : SnapshotEnd :=
  match s.refused? with
  | some f => .failed (SnapshotError.controlMessage f.type).message
  | none => s.ending

/-- The source returns without an error. -/
def succeeds (s : SnapshotScript) : Bool := s.returned = .complete

/-- How often the source is held up. -/
def holds (s : SnapshotScript) : Nat := s.items.count .hold

/-- The script gets these frames through, and then it has `rest` to do. -/
structure Yields (s : SnapshotScript) (fs : List Frame) (rest : SnapshotScript) : Prop where
  accepted : s.accepted = fs ++ rest.accepted
  returned : s.returned = rest.returned

variable {s rest : SnapshotScript} {fs : List Frame}

theorem Yields.succeeds (h : s.Yields fs rest) : s.succeeds = rest.succeeds := by
  unfold SnapshotScript.succeeds
  rw [h.returned]

theorem Yields.trans {t : SnapshotScript} {gs : List Frame} (h : s.Yields fs rest) (hrest : rest.Yields gs t) :
    s.Yields (fs ++ gs) t :=
  ⟨by rw [h.accepted, hrest.accepted, List.append_assoc], h.returned.trans hrest.returned⟩

theorem yields_of_data (hframes : s.frames = fs ++ rest.frames) (hignore : s.ignoreErrors = rest.ignoreErrors)
    (hending : s.ending = rest.ending) (hdata : ∀ f ∈ fs, f.isControl = false) : s.Yields fs rest := by
  have hpass : ∀ f ∈ fs, (!f.isControl) = true := fun f hf => by rw [hdata f hf]; rfl
  have hnone : fs.find? (·.isControl) = none := List.find?_eq_none.2 fun f hf => by simp [hdata f hf]
  refine ⟨?_, ?_⟩
  · unfold accepted
    rw [hignore, hframes]
    split
    · rw [List.filter_append, List.filter_eq_self.2 hpass]
    · exact List.takeWhile_append_of_pos hpass
  · unfold returned refused?
    rw [hignore, hframes, hending, List.find?_append, hnone, Option.none_or]

/-- Errors that the source passes over. -/
theorem yields_of_control (hframes : s.frames = fs ++ rest.frames) (hignore : s.ignoreErrors = true)
    (hrest : rest.ignoreErrors = true) (hending : s.ending = rest.ending) (hcontrol : ∀ f ∈ fs, f.isControl = true) :
    s.Yields [] rest := by
  refine ⟨?_, ?_⟩
  · unfold accepted
    rw [hignore, hrest, if_pos rfl, if_pos rfl, hframes, List.filter_append,
      List.filter_eq_nil_iff.2 fun f hf => by simp [hcontrol f hf]]
  · unfold returned refused?
    rw [hignore, hrest, if_pos rfl, if_pos rfl]
    exact hending

section Items

variable {f : Frame} (items : List SnapshotItem) (ignoreErrors : Bool) (ending : SnapshotEnd)

theorem yields_hold : Yields ⟨.hold :: items, ignoreErrors, ending⟩ [] ⟨items, ignoreErrors, ending⟩ :=
  yields_of_data rfl rfl rfl (by rintro g ⟨⟩)

theorem yields_write_zero : Yields ⟨.write f 0 :: items, ignoreErrors, ending⟩ [] ⟨items, ignoreErrors, ending⟩ :=
  yields_of_data rfl rfl rfl (by rintro g ⟨⟩)

theorem yields_write (times : Nat) (hdata : f.isControl = false) :
    Yields ⟨.write f times :: items, ignoreErrors, ending⟩ (List.replicate times f) ⟨items, ignoreErrors, ending⟩ :=
  yields_of_data rfl rfl rfl fun g hg => by rwa [List.eq_of_mem_replicate hg]

theorem yields_write_succ (n : Nat) (hdata : f.isControl = false) :
    Yields ⟨.write f (n + 1) :: items, ignoreErrors, ending⟩ [f] ⟨.write f n :: items, ignoreErrors, ending⟩ :=
  yields_of_data rfl rfl rfl fun g hg => by rwa [List.mem_singleton.1 hg]

theorem yields_refused (times : Nat) (hcontrol : f.isControl = true) :
    Yields ⟨.write f times :: items, true, ending⟩ [] ⟨items, true, ending⟩ := by
  have hframes : SnapshotScript.frames ⟨.write f times :: items, true, ending⟩ =
      List.replicate times f ++ SnapshotScript.frames ⟨items, true, ending⟩ := rfl
  exact yields_of_control hframes rfl rfl rfl fun g hg => by rwa [List.eq_of_mem_replicate hg]

/-- The error that a source comes back with. -/
theorem stops_refused (n : Nat) (hcontrol : f.isControl = true) :
    accepted ⟨.write f (n + 1) :: items, false, ending⟩ = [] ∧
      returned ⟨.write f (n + 1) :: items, false, ending⟩ =
        .failed (SnapshotError.controlMessage f.type).message := by
  have hframes : SnapshotScript.frames ⟨.write f (n + 1) :: items, false, ending⟩ =
      f :: (List.replicate n f ++ SnapshotScript.frames ⟨items, false, ending⟩) := rfl
  refine ⟨?_, ?_⟩
  · unfold accepted
    rw [hframes, if_neg Bool.false_ne_true]
    exact List.takeWhile_cons_of_neg (by simp [hcontrol])
  · unfold returned refused?
    rw [hframes, if_neg Bool.false_ne_true, List.find?_cons_of_pos hcontrol]

end Items

end SnapshotScript

namespace SnapshotRun

/-- What a run has still to do. -/
def left (r : SnapshotRun) : SnapshotScript := ⟨r.items, r.ignoreErrors, r.ending⟩

theorem refusal?_eq (f : Frame) : refusal? false f = if f.isControl then some (.controlMessage f.type) else none := rfl

/-- Frames that a source has written at one go, what is left of it, and how it ended if it did: it got through what it
can, either to its end or up to a hold. -/
def Bursts (s : SnapshotScript) (p : List Frame × SnapshotRun × Option SnapshotEnd) : Prop :=
  (p.2.2 = some s.returned ∧ p.1 = s.accepted) ∨
    (p.2.2 = none ∧ s.Yields p.1 p.2.1.left ∧ p.2.1.left.holds < s.holds)

theorem Bursts.prepend {s rest : SnapshotScript} {fs : List Frame} {p : List Frame × SnapshotRun × Option SnapshotEnd}
    (h : Bursts rest p) (hyields : s.Yields fs rest) (hholds : rest.holds = s.holds) : Bursts s (fs ++ p.1, p.2) := by
  rcases h with ⟨hended, hframes⟩ | ⟨hheld, hmore, hless⟩
  · exact Or.inl ⟨by rw [hended, hyields.returned], by rw [hframes, hyields.accepted]⟩
  · exact Or.inr ⟨hheld, hyields.trans hmore, by rwa [← hholds]⟩

open SnapshotScript (yields_hold yields_write_zero yields_write yields_refused stops_refused)

theorem bursts_proceed (ignoreErrors : Bool) (ending : SnapshotEnd) (items : List SnapshotItem) (written : Nat)
    (errors : List SnapshotError) :
    Bursts ⟨items, ignoreErrors, ending⟩ (proceed false ignoreErrors ending items written errors) := by
  induction items generalizing written errors with
  | nil => exact Or.inl (by cases ignoreErrors <;> exact ⟨rfl, rfl⟩)
  | cons item rest ih =>
    cases item with
    | hold =>
      refine Or.inr ⟨rfl, yields_hold rest ignoreErrors ending, ?_⟩
      simp [proceed, left, SnapshotScript.holds]
    | write f times =>
      have hholds : (⟨rest, ignoreErrors, ending⟩ : SnapshotScript).holds =
          (⟨.write f times :: rest, ignoreErrors, ending⟩ : SnapshotScript).holds :=
        (List.count_cons_of_ne (by simp)).symm
      unfold proceed
      by_cases htimes : times = 0
      · subst htimes
        rw [if_pos rfl]
        exact (ih written errors).prepend (yields_write_zero rest ignoreErrors ending) hholds
      rw [if_neg htimes, refusal?_eq]
      cases hcontrol : f.isControl with
      | false =>
        exact (ih (written + times) errors).prepend (yields_write rest ignoreErrors ending times hcontrol) hholds
      | true =>
        cases ignoreErrors with
        | true =>
          exact (ih written (errors ++ [.controlMessage f.type])).prepend (yields_refused rest ending times hcontrol) hholds
        | false =>
          obtain ⟨n, rfl⟩ := Nat.exists_eq_add_one_of_ne_zero htimes
          obtain ⟨haccepted, hreturned⟩ := stops_refused rest ending n hcontrol
          exact Or.inl ⟨congrArg some hreturned.symm, haccepted.symm⟩

theorem bursts_resume (r : SnapshotRun) : Bursts r.left (r.resume false) :=
  bursts_proceed r.ignoreErrors r.ending r.items r.written r.errors

end SnapshotRun

/-! ### Two tasks and a channel -/

theorem Session.over_onSnapshotEnd {s : Session} {seq : Nat} (hstage : s.stage = .snapshot seq) (ending : SnapshotEnd) :
    (s.onSnapshotEnd none ending).1 = { s with stage := .over } := by
  unfold onSnapshotEnd
  rw [hstage]
  cases ending <;> rfl

/-- A source and a session with the channel between them. -/
structure Pipe where
  source : SnapshotRun
  /-- What the task of the source came back with, if it did. -/
  ended : Option SnapshotEnd
  /-- What the source has got through and the session has not yet taken. -/
  queue : List Frame
  session : Session
deriving DecidableEq, Repr, Inhabited

namespace Pipe

inductive Turn
  | source
  | session
deriving DecidableEq, Repr

def start (session : Session) (script : SnapshotScript) : Pipe := ⟨.new script, none, [], session⟩

/-- The source writes a frame, unless there is no room for it, or gets an error, or comes to its end. Where it is held up,
the turn ends the hold. -/
def onSource (room : Nat) (p : Pipe) : Pipe :=
  match p.ended, p.source.items with
  | some _, _ => p
  | none, [] => { p with ended := some p.source.ending }
  | none, .hold :: rest => { p with source := { p.source with items := rest } }
  | none, .write _ 0 :: rest => { p with source := { p.source with items := rest } }
  | none, .write f (n + 1) :: rest =>
    match SnapshotRun.refusal? p.session.isOver f with
    | none =>
      if p.queue.length < room then
        { p with
          source := { p.source with items := .write f n :: rest, written := p.source.written + 1 }
          queue := p.queue ++ [f] }
      else p
    | some e =>
      { p with
        source := { p.source with items := rest, errors := p.source.errors ++ [e] }
        ended := if p.source.ignoreErrors then none else some (.failed e.message) }

/-- While it streams, the session writes the next frame of the channel. When there is none and there will be none, it ends
the snapshot. -/
def onSession (p : Pipe) : Pipe × List Session.Output :=
  match p.session.stage, p.queue, p.ended with
  | .snapshot _, f :: rest, _ =>
    let (session, outputs) := p.session.onSnapshotFrame none f
    ({ p with queue := rest, session := session }, outputs)
  | .snapshot _, [], some ending =>
    let (session, outputs) := p.session.onSnapshotEnd none ending
    ({ p with session := session }, outputs)
  | _, _, _ => (p, [])

def turn (room : Nat) (p : Pipe) : Turn → Pipe × List Session.Output
  | .source => (p.onSource room, [])
  | .session => p.onSession

def run (room : Nat) (p : Pipe) : List Turn → Pipe × List Session.Output
  | [] => (p, [])
  | t :: rest =>
    let (p, outputs) := p.turn room t
    let (p, more) := run room p rest
    (p, outputs ++ more)

theorem run_cons (room : Nat) (p : Pipe) (t : Turn) (rest : List Turn) :
    p.run room (t :: rest) =
      (((p.turn room t).1.run room rest).1, (p.turn room t).2 ++ ((p.turn room t).1.run room rest).2) := rfl

/-! ### What comes out -/

/-- The frames that the session has still to write. -/
def owed (p : Pipe) : List Frame := p.queue ++ if p.ended.isNone then p.source.left.accepted else []

/-- What the source comes back with, or did. -/
def outcome (p : Pipe) : SnapshotEnd := p.ended.getD p.source.left.returned

open SnapshotScript (yields_hold yields_write_zero yields_write_succ yields_refused stops_refused)

/-- A turn after which the source still goes on. -/
theorem keeps_of_yields {p : Pipe} {r : SnapshotRun} {fs queue : List Frame} (hgoing : p.ended = none)
    (hyields : p.source.left.Yields fs r.left) (hqueue : queue = p.queue ++ fs) :
    { p with source := r, queue := queue }.owed = p.owed ∧ { p with source := r, queue := queue }.outcome = p.outcome := by
  unfold owed outcome
  dsimp only
  rw [hgoing, Option.isNone_none, if_pos rfl, if_pos rfl, hyields.accepted, hqueue, List.append_assoc]
  exact ⟨rfl, hyields.returned.symm⟩

/-- A turn of the source makes no difference to what comes out. -/
theorem onSource_keeps {p : Pipe} (room : Nat) (hopen : p.session.isOver = false) :
    (p.onSource room).session = p.session ∧ (p.onSource room).owed = p.owed ∧ (p.onSource room).outcome = p.outcome := by
  obtain ⟨⟨items, ignoreErrors, ending, written, errors⟩, ended, queue, session⟩ := p
  cases ended with
  | some e => exact ⟨rfl, rfl, rfl⟩
  | none =>
    match items with
    | [] => cases ignoreErrors <;> exact ⟨rfl, rfl, rfl⟩
    | .hold :: rest =>
      have hyields := yields_hold rest ignoreErrors ending
      exact ⟨rfl, keeps_of_yields (r := ⟨rest, ignoreErrors, ending, written, errors⟩) rfl hyields
        (List.append_nil queue).symm⟩
    | .write f 0 :: rest =>
      have hyields := yields_write_zero (f := f) rest ignoreErrors ending
      exact ⟨rfl, keeps_of_yields (r := ⟨rest, ignoreErrors, ending, written, errors⟩) rfl hyields
        (List.append_nil queue).symm⟩
    | .write f (n + 1) :: rest =>
      unfold onSource
      dsimp only
      rw [show session.isOver = false from hopen, SnapshotRun.refusal?_eq]
      cases hcontrol : f.isControl with
      | false =>
        have hyields := yields_write_succ rest ignoreErrors ending n hcontrol
        rw [if_neg Bool.false_ne_true]
        dsimp only
        split
        · exact ⟨rfl, keeps_of_yields
            (p := ⟨⟨.write f (n + 1) :: rest, ignoreErrors, ending, written, errors⟩, none, queue, session⟩)
            (r := ⟨.write f n :: rest, ignoreErrors, ending, written + 1, errors⟩) rfl hyields rfl⟩
        · exact ⟨rfl, rfl, rfl⟩
      | true =>
        cases ignoreErrors with
        | true =>
          have hyields := yields_refused rest ending (n + 1) hcontrol
          exact ⟨rfl, keeps_of_yields
            (p := ⟨⟨.write f (n + 1) :: rest, true, ending, written, errors⟩, none, queue, session⟩)
            (r := ⟨rest, true, ending, written, errors ++ [.controlMessage f.type]⟩) rfl hyields
            (List.append_nil queue).symm⟩
        | false =>
          obtain ⟨haccepted, hreturned⟩ := stops_refused rest ending n hcontrol
          exact ⟨rfl, congrArg (queue ++ ·) haccepted.symm, hreturned.symm⟩

/-- A turn of the session brings out a frame that is owed, or what ends the snapshot. It has no effect only where the
session has to wait for the source. -/
theorem onSession_cases {p : Pipe} {seq : Nat} (hstage : p.session.stage = .snapshot seq) :
    (p.queue = [] ∧ p.ended = none ∧ p.onSession = (p, [])) ∨
      (∃ f rest, p.queue = f :: rest ∧ p.onSession = ({ p with queue := rest }, [.write f])) ∨
      p.queue = [] ∧ p.ended = some p.outcome ∧
        p.onSession =
          ({ p with session := (p.session.onSnapshotEnd none p.outcome).1 },
            (p.session.onSnapshotEnd none p.outcome).2) := by
  obtain ⟨source, ended, queue, session⟩ := p
  dsimp only at hstage
  unfold onSession
  dsimp only
  rw [hstage]
  match queue, ended with
  | f :: rest, _ => exact Or.inr (Or.inl ⟨f, rest, rfl, rfl⟩)
  | [], some ending => exact Or.inr (Or.inr ⟨rfl, rfl, rfl⟩)
  | [], none => exact Or.inl ⟨rfl, rfl, rfl⟩

theorem onSession_of_idle {p : Pipe} (hstage : ∀ seq, p.session.stage ≠ .snapshot seq) : p.onSession = (p, []) := by
  unfold onSession
  split
  · next hseq _ => exact absurd hseq (hstage _)
  · next hseq _ _ => exact absurd hseq (hstage _)
  · rfl

/-- What has come out of a pipe: some of what was owed, or all of it and what ends the snapshot. -/
def Delivered (p : Pipe) (q : Pipe × List Session.Output) : Prop :=
  (q.1.session = p.session ∧ q.1.outcome = p.outcome ∧
      ∃ sent, q.2 = sent.map .write ∧ p.owed = sent ++ q.1.owed) ∨
    (q.1.session = (p.session.onSnapshotEnd none p.outcome).1 ∧
      q.2 = p.owed.map .write ++ (p.session.onSnapshotEnd none p.outcome).2)

theorem delivered_turn {p : Pipe} {seq : Nat} (room : Nat) (hstage : p.session.stage = .snapshot seq) (t : Turn) :
    p.Delivered (p.turn room t) := by
  have hopen : p.session.isOver = false := by simp [Session.isOver, hstage]
  cases t with
  | source =>
    obtain ⟨hsession, howed, houtcome⟩ := onSource_keeps room hopen
    exact Or.inl ⟨hsession, houtcome, [], rfl, howed.symm⟩
  | session =>
    show p.Delivered p.onSession
    rcases onSession_cases hstage with ⟨-, -, hidle⟩ | ⟨f, rest, hqueue, hwrites⟩ | ⟨hqueue, hended, hends⟩
    · rw [hidle]
      exact Or.inl ⟨rfl, rfl, [], rfl, rfl⟩
    · rw [hwrites]
      refine Or.inl ⟨rfl, rfl, [f], rfl, ?_⟩
      simp [owed, hqueue]
    · rw [hends]
      refine Or.inr ⟨rfl, ?_⟩
      simp [owed, hqueue, hended]

theorem session_onSource (room : Nat) (p : Pipe) : (p.onSource room).session = p.session := by
  unfold onSource
  split
  · rfl
  · rfl
  · rfl
  · rfl
  · split
    · split <;> rfl
    · rfl

/-- Behind the end of the snapshot nothing comes out. -/
theorem run_of_over {p : Pipe} (room : Nat) (hover : p.session.stage = .over) (turns : List Turn) :
    (p.run room turns).1.session = p.session ∧ (p.run room turns).2 = [] := by
  induction turns generalizing p with
  | nil => exact ⟨rfl, rfl⟩
  | cons t rest ih =>
    have hturn : (p.turn room t).1.session = p.session ∧ (p.turn room t).2 = [] := by
      cases t with
      | source => exact ⟨session_onSource room p, rfl⟩
      | session =>
        have hidle : p.onSession = (p, []) := onSession_of_idle fun seq hseq => by
          rw [hover] at hseq
          cases hseq
        exact ⟨congrArg (·.1.session) hidle, congrArg Prod.snd hidle⟩
    obtain ⟨hsession, hmore⟩ := ih (p := (p.turn room t).1) (by rw [hturn.1, hover])
    rw [run_cons, hturn.2, hmore]
    exact ⟨hsession.trans hturn.1, rfl⟩

theorem delivered_run {p : Pipe} {seq : Nat} (room : Nat) (hstage : p.session.stage = .snapshot seq) (turns : List Turn) :
    p.Delivered (p.run room turns) := by
  induction turns generalizing p with
  | nil => exact Or.inl ⟨rfl, rfl, [], rfl, rfl⟩
  | cons t rest ih =>
    rw [run_cons]
    rcases delivered_turn room hstage t with ⟨hsession, houtcome, sent, hsent, howed⟩ | ⟨hsession, hall⟩
    · have hrun : (p.turn room t).1.Delivered ((p.turn room t).1.run room rest) := ih (by rw [hsession, hstage])
      unfold Delivered at hrun
      rw [hsession, houtcome] at hrun
      rcases hrun with ⟨hsession', houtcome', more, hmore, howed'⟩ | ⟨hsession', hall'⟩
      · refine Or.inl ⟨hsession', houtcome', sent ++ more, ?_, ?_⟩
        · dsimp only
          rw [hsent, hmore, List.map_append]
        · rw [howed, howed', List.append_assoc]
      · refine Or.inr ⟨hsession', ?_⟩
        dsimp only
        rw [hsent, hall', howed, List.map_append, List.append_assoc]
    · have hover : (p.turn room t).1.session.stage = .over := by rw [hsession, Session.over_onSnapshotEnd hstage]
      obtain ⟨hkeep, hnothing⟩ := run_of_over room hover rest
      refine Or.inr ⟨hkeep.trans hsession, ?_⟩
      dsimp only
      rw [hall, hnothing, List.append_nil]

/-- **What comes out of a pipe**, whatever the turns of the two tasks and whatever room there is between them: some of what
the source gets through, or all of it and what ends the snapshot. -/
theorem delivers {s : Session} {seq : Nat} (hstage : s.stage = .snapshot seq) (script : SnapshotScript) (room : Nat)
    (turns : List Turn) :
    let q := (start s script).run room turns
    (q.1.session = s ∧ ∃ sent, q.2 = sent.map .write ∧ sent <+: script.accepted) ∨
      (q.1.session = { s with stage := .over } ∧
        q.2 = script.accepted.map .write ++ (s.onSnapshotEnd none script.returned).2) := by
  rcases delivered_run (p := start s script) room hstage turns with ⟨hsession, -, sent, hsent, howed⟩ | ⟨hsession, hall⟩
  · exact Or.inl ⟨hsession, sent, hsent, _, howed.symm⟩
  · exact Or.inr ⟨hsession.trans (Session.over_onSnapshotEnd hstage _), hall⟩

/-! ### Enough turns -/

/-- The turns that an item costs both tasks together. -/
def cost : SnapshotItem → Nat
  | .write _ times => 2 * times + 1
  | .hold => 1

/-- The turns that a source and its frames cost both tasks together. -/
def pending (ended : Option SnapshotEnd) (items : List SnapshotItem) : Nat :=
  match ended with
  | some _ => 0
  | none => (items.map cost).sum + 1

/-- The turns with an effect that are still to come, at most. -/
def work (p : Pipe) : Nat := pending p.ended p.source.items + p.queue.length + (!p.session.isOver).toNat

/-- A turn of the source leaves less to do, except where it has ended or the channel is full. -/
theorem onSource_works (room : Nat) (p : Pipe) :
    ((p.ended ≠ none ∨ room ≤ p.queue.length) ∧ p.onSource room = p) ∨ (p.onSource room).work < p.work := by
  obtain ⟨⟨items, ignoreErrors, ending, written, errors⟩, ended, queue, session⟩ := p
  cases ended with
  | some e => exact Or.inl ⟨Or.inl nofun, rfl⟩
  | none =>
    match items with
    | [] =>
      refine Or.inr ?_
      simp only [onSource, work, pending, List.map_nil, List.sum_nil]
      omega
    | .hold :: rest =>
      refine Or.inr ?_
      simp only [onSource, work, pending, cost, List.map_cons, List.sum_cons]
      omega
    | .write f 0 :: rest =>
      refine Or.inr ?_
      simp only [onSource, work, pending, cost, List.map_cons, List.sum_cons]
      omega
    | .write f (n + 1) :: rest =>
      unfold onSource
      dsimp only
      split
      · split
        · refine Or.inr ?_
          simp only [work, pending, cost, List.map_cons, List.sum_cons, List.length_append, List.length_singleton]
          omega
        · next hfull => exact Or.inl ⟨Or.inr (Nat.le_of_not_lt hfull), rfl⟩
      · refine Or.inr ?_
        cases ignoreErrors with
        | true =>
          simp only [work, pending, cost, List.map_cons, List.sum_cons, if_true]
          omega
        | false =>
          simp only [work, pending, cost, List.map_cons, List.sum_cons, if_neg Bool.false_ne_true]
          omega

/-- A turn of the session leaves less to do, except where it has to wait for the source. -/
theorem onSession_works {p : Pipe} {seq : Nat} (hstage : p.session.stage = .snapshot seq) :
    (p.queue = [] ∧ p.ended = none ∧ p.onSession = (p, [])) ∨ p.onSession.1.work < p.work := by
  refine (onSession_cases hstage).imp_right ?_
  rintro (⟨f, rest, hqueue, hwrites⟩ | ⟨hqueue, hended, hends⟩)
  · rw [hwrites]
    simp only [work, hqueue, List.length_cons]
    omega
  · have hopen : p.session.isOver = false := by simp [Session.isOver, hstage]
    have hover : Session.isOver { p.session with stage := .over } = true := rfl
    rw [hends, Session.over_onSnapshotEnd hstage]
    simp only [work, hopen, hover]
    exact Nat.lt_succ_self _

theorem turn_works (room : Nat) (p : Pipe) (t : Turn) : (p.turn room t).1 = p ∨ (p.turn room t).1.work < p.work := by
  cases t with
  | source => exact (onSource_works room p).imp_left And.right
  | session =>
    by_cases hstreams : ∃ seq, p.session.stage = .snapshot seq
    · obtain ⟨seq, hstage⟩ := hstreams
      exact (onSession_works hstage).imp_left fun h => congrArg Prod.fst h.2.2
    · exact Or.inl (congrArg Prod.fst (onSession_of_idle fun seq hseq => hstreams ⟨seq, hseq⟩))

theorem work_run_le (room : Nat) (p : Pipe) (turns : List Turn) : (p.run room turns).1.work ≤ p.work := by
  induction turns generalizing p with
  | nil => exact le_rfl
  | cons t rest ih =>
    rw [run_cons]
    rcases turn_works room p t with hidle | hless
    · rw [hidle]
      exact ih p
    · exact (ih _).trans hless.le

/-- Before the end of the snapshot one of the two can do something: where the session has to wait, the source has not ended
and the channel is empty. -/
theorem exists_turn_works {p : Pipe} {seq room : Nat} (hroom : 0 < room) (hstage : p.session.stage = .snapshot seq) :
    ∃ t, (p.turn room t).1.work < p.work := by
  rcases onSession_works hstage with ⟨hqueue, hended, -⟩ | hless
  · refine ⟨.source, (onSource_works room p).resolve_left ?_⟩
    rintro ⟨hdone | hfull, -⟩
    · exact hdone hended
    · rw [hqueue, List.length_nil] at hfull
      omega
  · exact ⟨.session, hless⟩

/-- As soon as each of the two tasks has had a turn, there is less to do. -/
theorem work_run_lt {p : Pipe} {seq room : Nat} (hroom : 0 < room) (hstage : p.session.stage = .snapshot seq)
    {turns : List Turn} (hturns : ∀ t, t ∈ turns) : (p.run room turns).1.work < p.work := by
  obtain ⟨t, hworks⟩ := exists_turn_works hroom hstage
  have hmem : t ∈ turns := hturns t
  clear hturns
  induction turns with
  | nil => cases hmem
  | cons u rest ih =>
    rw [run_cons]
    rcases turn_works room p u with hidle | hless
    · -- the turn that does something is still to come
      have hne : t ≠ u := by
        rintro rfl
        rw [hidle] at hworks
        exact lt_irrefl _ hworks
      rw [hidle]
      exact ih ((List.mem_cons.1 hmem).resolve_left hne)
    · exact (work_run_le room _ rest).trans_lt hless

theorem run_append (room : Nat) (p : Pipe) (turns turns' : List Turn) :
    (p.run room (turns ++ turns')).1 = ((p.run room turns).1.run room turns').1 := by
  induction turns generalizing p with
  | nil => rfl
  | cons t rest ih => exact ih _

/-- Rounds in which both tasks have a turn get the session to its end. -/
theorem over_of_rounds {p : Pipe} {seq room : Nat} (hroom : 0 < room) (hstage : p.session.stage = .snapshot seq)
    {rounds : List (List Turn)} (hturns : ∀ turns ∈ rounds, ∀ t, t ∈ turns) (hwork : p.work ≤ rounds.length) :
    (p.run room rounds.flatten).1.session.stage = .over := by
  induction rounds generalizing p with
  | nil =>
    simp [work, Session.isOver, hstage] at hwork
  | cons turns rest ih =>
    have hless : (p.run room turns).1.work < p.work := work_run_lt hroom hstage (hturns turns List.mem_cons_self)
    rw [List.flatten_cons, run_append]
    rcases delivered_run room hstage turns with ⟨hsession, -⟩ | ⟨hsession, -⟩
    · refine ih (by rw [hsession, hstage]) (fun turns' h => hturns turns' (List.mem_cons_of_mem _ h)) ?_
      rw [List.length_cons] at hwork
      omega
    · have hover : (p.run room turns).1.session.stage = .over := by rw [hsession, Session.over_onSnapshotEnd hstage]
      rw [(run_of_over room hover _).1, hover]

end Pipe

end ReliableMulticast
