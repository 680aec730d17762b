import ReliableMulticast.Proofs.Publisher.Session

/-!
# The turns of a session

`Turn` is all that one step can do to the stage of a session: it stays or ends, its login is accepted and it asks for the
head, or it starts its snapshot under the answer. Only the last two have an effect beside frames and reports.

Main statement (`turn_onInput`): every step of a session is a turn.
-/

namespace ReliableMulticast

namespace Session

/-- Neither the question for the head nor the start of the snapshot. -/
def Output.Quiet : Output → Prop
  | .askHead => False
  | .startSnapshot => False
  | _ => True

/-- What a step can do to the stage of a session, given what the transmitter answered. -/
inductive Turn (s : Session) (answer? : Option Nat) (p : Session × List Output) : Prop
  | stay : p.1.stage = s.stage → (∀ o ∈ p.2, o.Quiet) → Turn s answer? p
  | ended : p.1.stage = .over → (∀ o ∈ p.2, o.Quiet) → Turn s answer? p
  /-- The login is accepted, and the head is asked for. -/
  | accept (deadline : Instant) : s.stage = .login deadline → p.1.stage = .head → .startSnapshot ∉ p.2 → Turn s answer? p
  /-- The answer is there, and the snapshot starts. -/
  | start (seq : Nat) : s.stage = .head → answer? = some seq → p.1.stage = .snapshot seq → .askHead ∉ p.2 →
      .startSnapshot ∈ p.2 → Turn s answer? p

variable {s : Session} {answer? : Option Nat} {broken : Option IoError}

theorem turn_refl (s : Session) (answer? : Option Nat) : Turn s answer? (s, []) :=
  .stay rfl (by rintro o ⟨⟩)

theorem turn_fail (s : Session) (answer? : Option Nat) (failure : SessionFailure) : Turn s answer? (s.fail failure) := by
  refine .ended rfl ?_
  intro o ho
  rw [List.mem_singleton.1 ho]
  trivial

theorem turn_onLogin {deadline : Instant} (hstage : s.stage = .login deadline) (username password : String) :
    Turn s answer? (s.onLogin broken username password) := by
  unfold onLogin
  split
  · cases broken with
    | some e =>
      refine .ended rfl ?_
      intro o ho
      rcases List.mem_cons.1 ho with rfl | ho
      · trivial
      · rw [List.mem_singleton.1 ho]
        trivial
    | none =>
      refine .accept deadline hstage rfl ?_
      simp [writeThen]
  · exact turn_fail s answer? _

theorem turn_onRead {deadline : Instant} (hstage : s.stage = .login deadline) (outcome : Stream.Outcome) :
    Turn s answer? (s.onRead broken outcome) := by
  unfold onRead
  split
  · exact turn_fail s answer? _
  · exact turn_fail s answer? _
  · split
    · exact turn_fail s answer? _
    · exact turn_onLogin hstage _ _
    · exact turn_fail s answer? _

theorem quiet_onSnapshotFrames (s : Session) (broken : Option IoError) (fs : List Frame) :
    ∀ o ∈ (s.onSnapshotFrames broken fs).2, o.Quiet := by
  induction fs generalizing s with
  | nil => rintro o ⟨⟩
  | cons f rest ih =>
    unfold onSnapshotFrames
    split
    · intro o ho
      rcases List.mem_append.1 ho with ho | ho
      · cases broken with
        | some e =>
          rw [List.mem_singleton.1 ho]
          trivial
        | none =>
          rw [List.mem_singleton.1 ho]
          trivial
      · exact ih _ o ho
    · rintro o ⟨⟩

theorem turn_conclude (s : Session) (answer? : Option Nat) (broken : Option IoError) (seq : Nat) (ok : Bool) :
    Turn s answer? (s.conclude broken seq ok) := by
  unfold conclude
  cases broken with
  | some e => exact turn_fail s answer? _
  | none =>
    refine .ended rfl ?_
    simp [writeThen, Output.Quiet]

theorem Turn.warn {p : Session × List Output} (h : Turn s answer? p) (text : String) :
    Turn s answer? (p.1, .warn text :: p.2) := by
  have hquiet : (∀ o ∈ p.2, o.Quiet) → ∀ o ∈ Output.warn text :: p.2, o.Quiet := by
    intro hp o ho
    rcases List.mem_cons.1 ho with rfl | ho
    · trivial
    · exact hp o ho
  cases h with
  | stay hstage hp => exact .stay hstage (hquiet hp)
  | ended hstage hp => exact .ended hstage (hquiet hp)
  | accept deadline hlogin hhead hp => exact .accept deadline hlogin hhead (by simpa using hp)
  | start seq hhead hanswer hstage hask hp =>
    exact .start seq hhead hanswer hstage (by simpa using hask) (List.mem_cons_of_mem _ hp)

theorem turn_onSnapshotEnd (s : Session) (answer? : Option Nat) (broken : Option IoError) (ending : SnapshotEnd) :
    Turn s answer? (s.onSnapshotEnd broken ending) := by
  unfold onSnapshotEnd
  split
  · next seq _ =>
    cases ending with
    | complete => exact turn_conclude s answer? broken seq true
    | failed reason => exact (turn_conclude s answer? broken seq false).warn _
    | crashed => exact (turn_conclude s answer? broken seq false).warn _
  · exact turn_refl s answer?

/-- A source moves its session nowhere but to its end. -/
theorem turn_onSource {seq : Nat} (hstage : s.stage = .snapshot seq) (run : SnapshotRun) :
    Turn s answer? (s.onSource broken run) := by
  have hquiet := quiet_onSnapshotFrames s broken (run.resume s.isOver).1
  obtain ⟨hkeep, -⟩ := onSnapshotFrames_cases s broken (run.resume s.isOver).1
  unfold onSource
  dsimp only
  generalize s.onSnapshotFrames broken (run.resume s.isOver).1 = streamed at hquiet hkeep
  have hstay : streamed.1.stage = s.stage ∨ streamed.1.stage = .over := by
    rcases hkeep with hkeep | hover
    · exact Or.inl (by rw [hkeep])
    · exact Or.inr hover
  split
  · rcases hstay with hstay | hover
    · exact .stay hstay hquiet
    · exact .ended hover hquiet
  · next ending _ =>
    have happend : ∀ more : List Output, (∀ o ∈ more, o.Quiet) → ∀ o ∈ streamed.2 ++ more, o.Quiet := by
      intro more hmore o ho
      rcases List.mem_append.1 ho with ho | ho
      · exact hquiet o ho
      · exact hmore o ho
    cases turn_onSnapshotEnd streamed.1 answer? broken ending with
    | stay hsame hmore =>
      rcases hstay with hstay | hover
      · exact .stay (hsame.trans hstay) (happend _ hmore)
      · exact .ended (hsame.trans hover) (happend _ hmore)
    | ended hover hmore => exact .ended hover (happend _ hmore)
    | accept deadline hlogin =>
      rcases hstay with hstay | hover
      · rw [hstay, hstage] at hlogin
        cases hlogin
      · rw [hover] at hlogin
        cases hlogin
    | start seq' hhead =>
      rcases hstay with hstay | hover
      · rw [hstay, hstage] at hhead
        cases hhead
      · rw [hover] at hhead
        cases hhead

theorem turn_onInput (s : Session) (answer? : Option Nat) (input : Input) : Turn s answer? (s.onInput answer? input) := by
  unfold onInput
  split
  · next hstage => exact turn_onRead hstage _
  · exact turn_fail s answer? _
  · next hstage =>
    split
    · next seq => exact .start seq hstage rfl rfl (by simp [onHead]) (by simp [onHead])
    · exact turn_refl s none
  · exact turn_fail s answer? _
  · next seq hstage => exact turn_onSource hstage _
  · exact turn_refl s answer?

/-- Nothing but a frame from the other end makes a session ask for the head. -/
theorem asking_of_onInput {input : Input} (h : (s.onInput answer? input).1.stage = .head) :
    s.stage = .head ∨ ∃ broken f, input = .read broken (.frame f) := by
  cases s.turn_onInput answer? input with
  | stay hstage => exact Or.inl (hstage.symm.trans h)
  | ended hover => cases hover.symm.trans h
  | start seq hhead => exact Or.inl hhead
  | accept deadline hlogin =>
    cases input with
    | read broken outcome =>
      cases outcome with
      | frame f => exact Or.inr ⟨broken, f, rfl⟩
      | ended => simp [onInput, hlogin, onRead, fail, finish] at h
      | failed e => simp [onInput, hlogin, onRead, fail, finish] at h
    | loginTimeout => simp [onInput, hlogin, onLoginTimeout, fail, finish] at h
    | head => simp [onInput, hlogin] at h
    | noHead e => simp [onInput, hlogin] at h
    | source broken run => simp [onInput, hlogin] at h

end Session

end ReliableMulticast
