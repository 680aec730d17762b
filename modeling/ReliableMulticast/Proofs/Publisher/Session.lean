import ReliableMulticast.Proofs.Frame.Codec
import ReliableMulticast.Publisher.Session

/-!
# The number that ends a snapshot

A session asks for the head of the transmitter once, after the login and before the snapshot begins. `onInput` is one step
of a session, at the stage that it has reached; the transmitter's answer, as soon as there is one, lies ready for it.

Main statement (`ends_onInput`): a session streams its snapshot under the number that was answered (`Ends.stage`), and
with that number it ends the snapshot (`Ends.written`).
-/

namespace ReliableMulticast

namespace SnapshotRun

/-- A source gets no control messages through. -/
theorem isControl_of_mem_proceed {gone ignoreErrors : Bool} {ending : SnapshotEnd} {items : List SnapshotItem}
    {written : Nat} {errors : List SnapshotError} {f : Frame}
    (h : f ∈ (proceed gone ignoreErrors ending items written errors).1) : f.isControl = false := by
  induction items generalizing written errors with
  | nil => cases h
  | cons item rest ih =>
    cases item with
    | hold => cases h
    | write g times =>
      unfold proceed at h
      split at h
      · exact ih h
      split at h
      · next hrefusal =>
        rcases List.mem_append.1 h with h | h
        · have hfree : g.isControl = false := by
            unfold refusal? at hrefusal
            cases hg : g.isControl with
            | false => rfl
            | true => simp [hg] at hrefusal
          rw [List.eq_of_mem_replicate h]
          exact hfree
        · exact ih h
      split at h
      · exact ih h
      · cases h

end SnapshotRun

namespace Session

/-! ### Steps -/

/-- What a session waits for. Where the other end is gone, `broken` is the error that a write comes back with. -/
inductive Input
  | read (broken : Option IoError) (outcome : Stream.Outcome)
  | loginTimeout
  /-- The answer to the question for the head is taken. -/
  | head
  | noHead (error : CallError)
  /-- The source goes on with its run. -/
  | source (broken : Option IoError) (run : SnapshotRun)
deriving Repr, Inhabited

/-- The source writes up to its next hold, or to its end. -/
def onSource (s : Session) (broken : Option IoError) (run : SnapshotRun) : Session × List Output :=
  let (frames, _, ending) := run.resume s.isOver
  let (s, outputs) := s.onSnapshotFrames broken frames
  match ending with
  | none => (s, outputs)
  | some ending =>
    let (s, more) := s.onSnapshotEnd broken ending
    (s, outputs ++ more)

def onInput (s : Session) (answer? : Option Nat) (input : Input) : Session × List Output :=
  match s.stage, input with
  | .login _, .read broken outcome => s.onRead broken outcome
  | .login _, .loginTimeout => s.onLoginTimeout
  | .head, .head =>
    match answer? with
    | some seq => s.onHead (.ok seq)
    | none => (s, [])
  | .head, .noHead e => s.onHead (.error e)
  | .snapshot _, .source broken run => s.onSource broken run
  | _, _ => (s, [])

def Output.frame? : Output → Option Frame
  | .write f => some f
  | _ => none

/-- What goes to the other end, in order. -/
def frames (outputs : List Output) : List Frame := outputs.filterMap Output.frame?

theorem frames_append (outputs outputs' : List Output) :
    frames (outputs ++ outputs') = frames outputs ++ frames outputs' :=
  List.filterMap_append

/-! ### Stages and ends -/

/-- What a session may come to in a step, given what the transmitter answered. -/
structure Ends (s : Session) (answer? : Option Nat) (p : Session × List Output) : Prop where
  stage : ∀ seq, p.1.stage = .snapshot seq → s.stage = .snapshot seq ∨ answer? = some seq
  written : ∀ f ∈ frames p.2, ∀ n, f.EndsAt n → ∃ seq, s.stage = .snapshot seq ∧ n = seq % 2 ^ 64

variable {s : Session} {answer? : Option Nat} {broken : Option IoError}

theorem ends_refl (s : Session) (answer? : Option Nat) : Ends s answer? (s, []) :=
  ⟨fun _ h => Or.inl h, by rintro f ⟨⟩⟩

theorem ends_fail (s : Session) (answer? : Option Nat) (failure : SessionFailure) :
    Ends s answer? (s.fail failure) :=
  ⟨by rintro seq ⟨⟩, by rintro f ⟨⟩⟩

theorem not_endsAt_acknowledgement (username : String) (n : Nat) : ¬(acknowledgement username).EndsAt n := by
  intro h
  have htype := Frame.type_of_endsAt h
  cases htype

theorem ends_onLogin (username password : String) : Ends s answer? (s.onLogin broken username password) := by
  unfold onLogin
  split
  · cases broken with
    | some e => exact ⟨by rintro seq ⟨⟩, by rintro f ⟨⟩⟩
    | none =>
      refine ⟨by rintro seq ⟨⟩, fun f hf n hn => ?_⟩
      obtain rfl : f = acknowledgement username := List.mem_singleton.1 hf
      exact absurd hn (not_endsAt_acknowledgement username n)
  · exact ends_fail s answer? _

theorem ends_onRead (outcome : Stream.Outcome) : Ends s answer? (s.onRead broken outcome) := by
  unfold onRead
  split
  · exact ends_fail s answer? _
  · exact ends_fail s answer? _
  · split
    · exact ends_fail s answer? _
    · exact ends_onLogin _ _
    · exact ends_fail s answer? _

/-! ### The snapshot -/

/-- The frames of a snapshot go out as they are, until the other end is gone. -/
theorem onSnapshotFrames_cases (s : Session) (broken : Option IoError) (fs : List Frame) :
    ((s.onSnapshotFrames broken fs).1 = s ∨ (s.onSnapshotFrames broken fs).1.stage = .over) ∧
      ∀ f ∈ frames (s.onSnapshotFrames broken fs).2, f ∈ fs := by
  induction fs with
  | nil => exact ⟨Or.inl rfl, by rintro f ⟨⟩⟩
  | cons g rest ih =>
    unfold onSnapshotFrames
    split
    · next seq hstage =>
      cases broken with
      | some e =>
        -- the session is over, and what is left of the snapshot is dropped
        have hover : (onSnapshotFrames { s with stage := .over } (some e) rest) = ({ s with stage := .over }, []) := by
          cases rest <;> rfl
        simp [onSnapshotFrame, writeThen, fail, finish, hover, frames, Output.frame?]
      | none =>
        obtain ⟨hkeep, hmem⟩ := ih
        refine ⟨hkeep, fun f hf => ?_⟩
        rcases List.mem_cons.1 hf with rfl | hf
        · exact List.mem_cons_self
        · exact List.mem_cons_of_mem _ (hmem f hf)
    · exact ⟨Or.inl rfl, by rintro f ⟨⟩⟩

theorem ends_conclude {seq : Nat} (hstage : s.stage = .snapshot seq) (ok : Bool) :
    Ends s answer? (s.conclude broken seq ok) := by
  unfold conclude
  cases broken with
  | some e => exact ends_fail s answer? _
  | none =>
    refine ⟨by rintro seq' ⟨⟩, fun f hf n hn => ⟨seq, hstage, ?_⟩⟩
    obtain rfl : f = s.endOfSnapshot seq ok := List.mem_singleton.1 hf
    rw [Frame.endsAt_endOfSnapshot hn, UInt64.toNat_ofNat']

theorem ends_onSnapshotEnd (s : Session) (answer? : Option Nat) (broken : Option IoError) (ending : SnapshotEnd) :
    Ends s answer? (s.onSnapshotEnd broken ending) := by
  unfold onSnapshotEnd
  split
  · next seq hstage =>
    cases ending with
    | complete => exact ends_conclude hstage true
    | failed reason =>
      have hends : Ends s answer? (s.conclude broken seq false) := ends_conclude hstage false
      exact ⟨hends.stage, hends.written⟩
    | crashed =>
      have hends : Ends s answer? (s.conclude broken seq false) := ends_conclude hstage false
      exact ⟨hends.stage, hends.written⟩
  · exact ends_refl s answer?

theorem ends_onSource (run : SnapshotRun) : Ends s answer? (s.onSource broken run) := by
  obtain ⟨hkeep, hmem⟩ := onSnapshotFrames_cases s broken (run.resume s.isOver).1
  -- none of the source's frames ends a snapshot
  have hsource : ∀ f ∈ frames (s.onSnapshotFrames broken (run.resume s.isOver).1).2, ∀ n, ¬f.EndsAt n := by
    intro f hf n hn
    have hdata := SnapshotRun.isControl_of_mem_proceed (hmem f hf)
    have htype := Frame.type_of_endsAt hn
    simp [Frame.isControl, htype] at hdata
  have hstage : ∀ seq, (s.onSnapshotFrames broken (run.resume s.isOver).1).1.stage = .snapshot seq →
      s.stage = .snapshot seq := by
    intro seq hseq
    rcases hkeep with hkeep | hover
    · rwa [hkeep] at hseq
    · rw [hover] at hseq
      cases hseq
  unfold onSource
  dsimp only
  split
  · exact ⟨fun seq hseq => Or.inl (hstage seq hseq), fun f hf n hn => absurd hn (hsource f hf n)⟩
  · next ending _ =>
    have hends := ends_onSnapshotEnd (s.onSnapshotFrames broken (run.resume s.isOver).1).1 answer? broken ending
    refine ⟨fun seq hseq => ?_, fun f hf n hn => ?_⟩
    · rcases hends.stage seq hseq with hseq | hanswer
      · exact Or.inl (hstage seq hseq)
      · exact Or.inr hanswer
    · rw [frames_append] at hf
      rcases List.mem_append.1 hf with hf | hf
      · exact absurd hn (hsource f hf n)
      · obtain ⟨seq, hseq, hn⟩ := hends.written f hf n hn
        exact ⟨seq, hstage seq hseq, hn⟩

/-- Whatever happens to a session, it ends its snapshot with the number that the transmitter answered. -/
theorem ends_onInput (s : Session) (answer? : Option Nat) (input : Input) : Ends s answer? (s.onInput answer? input) := by
  unfold onInput
  split
  · exact ends_onRead _
  · exact ends_fail s answer? _
  · split
    · exact ⟨by rintro seq ⟨⟩; exact Or.inr rfl, by rintro f ⟨⟩⟩
    · exact ends_refl s none
  · exact ends_fail s answer? _
  · exact ends_onSource _
  · exact ends_refl s answer?

end Session

end ReliableMulticast
