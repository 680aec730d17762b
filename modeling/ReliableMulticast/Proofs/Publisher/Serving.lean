import ReliableMulticast.Proofs.Channel.Login
import ReliableMulticast.Proofs.Frame.Stream
import ReliableMulticast.Proofs.Publisher.Session

/-!
# What a session writes

A source may be held up on its way, and it goes on from where it was (`SnapshotRun.course`). As long as it writes nothing
but application data, it gets all of its frames through, in their order (`SnapshotRun.resume_of_data`).

Main statement (`Session.frames_serve`): a session that reads the login of its own channel writes the acknowledgement, the
frames of the source, and the frame that ends the snapshot with the number that the transmitter answered, and it is over.
-/

namespace ReliableMulticast

/-! ### Sources -/

def SnapshotItem.frames : SnapshotItem → List Frame
  | .write f times => List.replicate times f
  | .hold => []

/-- All frames of a script, in their order. -/
def SnapshotScript.frames (s : SnapshotScript) : List Frame := s.items.flatMap SnapshotItem.frames

namespace SnapshotRun

/-- All frames that a run has still to write. -/
def frames (r : SnapshotRun) : List Frame := r.items.flatMap SnapshotItem.frames

/-- A run up to its next hold, from there to the one after it, and so on; at most `fuel` times. -/
def course : Nat → SnapshotRun → List SnapshotRun
  | 0, _ => []
  | fuel + 1, r =>
    let (_, next, ending?) := r.resume false
    r :: (if ending?.isNone then course fuel next else [])

/-- Application data gets through, up to the next hold or to the end. -/
theorem proceed_of_data {ignoreErrors : Bool} {ending : SnapshotEnd} {items : List SnapshotItem} {written : Nat}
    {errors : List SnapshotError} (h : ∀ f ∈ items.flatMap SnapshotItem.frames, f.isControl = false) :
    let p := proceed false ignoreErrors ending items written errors
    (p.2.2 = some ending ∧ p.1 = items.flatMap SnapshotItem.frames) ∨
      (p.2.2 = none ∧ p.2.1.ending = ending ∧ p.2.1.items.length < items.length ∧
        p.1 ++ p.2.1.frames = items.flatMap SnapshotItem.frames) := by
  induction items generalizing written with
  | nil => exact Or.inl ⟨rfl, rfl⟩
  | cons item rest ih =>
    rw [List.flatMap_cons] at h
    cases item with
    | hold => exact Or.inr ⟨rfl, rfl, Nat.lt_succ_self _, rfl⟩
    | write f times =>
      have hrest : ∀ g ∈ rest.flatMap SnapshotItem.frames, g.isControl = false := fun g hg =>
        h g (List.mem_append_right _ hg)
      dsimp only
      unfold proceed
      by_cases htimes : times = 0
      · subst htimes
        rw [if_pos rfl, List.flatMap_cons]
        rcases @ih written hrest with ⟨hended, hframes⟩ | ⟨hheld, hending, hlength, hframes⟩
        · exact Or.inl ⟨hended, hframes⟩
        · exact Or.inr ⟨hheld, hending, Nat.lt_succ_of_lt hlength, hframes⟩
      · have hf : f.isControl = false := h f (List.mem_append_left _ (List.mem_replicate.2 ⟨htimes, rfl⟩))
        have htaken : refusal? false f = none := by simp [refusal?, hf]
        rw [if_neg htimes, htaken, List.flatMap_cons]
        dsimp only
        rcases @ih (written + times) hrest with ⟨hended, hframes⟩ | ⟨hheld, hending, hlength, hframes⟩
        · refine Or.inl ⟨hended, ?_⟩
          rw [hframes]
          rfl
        · refine Or.inr ⟨hheld, hending, Nat.lt_succ_of_lt hlength, ?_⟩
          rw [List.append_assoc, hframes]
          rfl

theorem resume_of_data {r : SnapshotRun} (h : ∀ f ∈ r.frames, f.isControl = false) :
    ((r.resume false).2.2 = some r.ending ∧ (r.resume false).1 = r.frames) ∨
      ((r.resume false).2.2 = none ∧ (r.resume false).2.1.ending = r.ending ∧
        (r.resume false).2.1.items.length < r.items.length ∧
        (r.resume false).1 ++ (r.resume false).2.1.frames = r.frames) :=
  proceed_of_data h

end SnapshotRun

namespace Session

/-! ### Sessions -/

/-- Inputs one after the other, with all outputs. -/
def onInputs (s : Session) (answer? : Option Nat) : List Input → Session × List Output
  | [] => (s, [])
  | input :: rest =>
    let (s, outputs) := s.onInput answer? input
    let (s, more) := onInputs s answer? rest
    (s, outputs ++ more)

theorem onInputs_cons (s : Session) (answer? : Option Nat) (input : Input) (rest : List Input) :
    s.onInputs answer? (input :: rest) =
      (((s.onInput answer? input).1.onInputs answer? rest).1,
        (s.onInput answer? input).2 ++ ((s.onInput answer? input).1.onInputs answer? rest).2) := rfl

/-- A session from its first read to the end of its snapshot: what it has read are these chunks, the transmitter answers
with `head`, and the source goes through the script. -/
def serve (s : Session) (login : List Bytes) (head : UInt64) (script : SnapshotScript) : Session × List Output :=
  s.onInputs (some head.toNat)
    (.read none (Stream.read login).1 :: .head ::
      ((SnapshotRun.new script).course (script.items.length + 1)).map (.source none))

theorem onSnapshotFrames_of_snapshot {s : Session} {seq : Nat} (hstage : s.stage = .snapshot seq) (fs : List Frame) :
    s.onSnapshotFrames none fs = (s, fs.map .write) := by
  induction fs with
  | nil => rfl
  | cons f rest ih =>
    unfold onSnapshotFrames
    rw [hstage]
    dsimp only [onSnapshotFrame, writeThen]
    rw [ih]
    rfl

theorem frames_map_write (fs : List Frame) : frames (fs.map .write) = fs := by
  unfold frames
  rw [List.filterMap_map]
  exact List.filterMap_some

/-- The source writes all of its frames, however often it is held up, and then the session ends the snapshot. -/
theorem frames_course {s : Session} {seq : Nat} (hstage : s.stage = .snapshot seq) (answer? : Option Nat) {fuel : Nat}
    {r : SnapshotRun} (hfuel : r.items.length < fuel) (hdata : ∀ f ∈ r.frames, f.isControl = false)
    (hending : r.ending = .complete) :
    let p := s.onInputs answer? ((r.course fuel).map (.source none))
    p.1.stage = .over ∧ frames p.2 = r.frames ++ [s.endOfSnapshot seq true] := by
  induction fuel generalizing r with
  | zero => exact absurd hfuel (Nat.not_lt_zero _)
  | succ fuel ih =>
    have hgoing : s.isOver = false := by simp [isOver, hstage]
    have hstream := onSnapshotFrames_of_snapshot hstage (r.resume false).1
    have hsource : s.onInput answer? (.source none r) = s.onSource none r := by
      unfold onInput
      rw [hstage]
    dsimp only [SnapshotRun.course]
    rw [List.map_cons, onInputs_cons, hsource]
    unfold onSource
    rw [hgoing]
    dsimp only
    rw [hstream]
    rcases SnapshotRun.resume_of_data hdata with ⟨hended, hframes⟩ | ⟨hheld, hkeep, hless, hframes⟩
    · rw [hended, hframes, hending]
      dsimp only [onSnapshotEnd]
      rw [hstage]
      refine ⟨rfl, ?_⟩
      show frames ((_ ++ _) ++ []) = _
      rw [List.append_nil, frames_append, frames_map_write]
      rfl
    · rw [hheld, Option.isNone_none, if_pos rfl]
      dsimp only
      have hrest : ∀ f ∈ (r.resume false).2.1.frames, f.isControl = false := by
        intro f hf
        refine hdata f ?_
        rw [← hframes]
        exact List.mem_append_right _ hf
      obtain ⟨hover, hwritten⟩ := ih (by omega) hrest (hkeep.trans hending)
      refine ⟨hover, ?_⟩
      rw [frames_append, frames_map_write, hwritten, ← List.append_assoc, hframes]

/-- The login that a subscriber sends for this channel, in whatever chunks. -/
theorem read_loginFrame {c : Channel} {login : List Bytes} (h : login.flatten = (SubscriberLink.loginFrame c).encode) :
    (Stream.read login).1 = .frame (SubscriberLink.loginFrame c) := by
  have hsized : (SubscriberLink.loginFrame c).WellSized := Frame.wellSized_control _ _
  obtain ⟨hread, -⟩ := Stream.read_encode_append hsized []
  have hsame : login.flatten = [(SubscriberLink.loginFrame c).encode ++ []].flatten := by simp [h]
  rw [(Stream.read_congr hsame).1, hread]

theorem onRead_loginFrame {s : Session} (hfits : s.channel.Fits) (hname : Bytes.NulFree s.channel.username)
    (hword : Bytes.NulFree s.channel.password) :
    s.onRead none (.frame (SubscriberLink.loginFrame s.channel)) =
      ({ s with stage := .head },
        [.report .sending, .write (acknowledgement s.channel.username), .askHead]) := by
  have hmatch := s.channel.credentialsMatch_beforeNul_iff.2 ⟨hname, hword⟩
  unfold onRead
  dsimp only
  rw [Channel.message?_loginFrame hfits]
  dsimp only
  unfold onLogin
  rw [if_pos hmatch, (Bytes.beforeNul_eq_self_iff _).2 hname]
  rfl

/-- **What a session writes** to a subscriber of its own channel: the acknowledgement of the login, the snapshot, and the
number from which on it will hear live frames. -/
theorem frames_serve {s : Session} {deadline : Instant} (hstage : s.stage = .login deadline) (hvalid : s.channel.Valid)
    (hname : Bytes.NulFree s.channel.username) (hword : Bytes.NulFree s.channel.password) {login : List Bytes}
    (hlogin : login.flatten = (SubscriberLink.loginFrame s.channel).encode) (head : UInt64) {script : SnapshotScript}
    (hdata : ∀ f ∈ script.frames, f.isControl = false) (hending : script.ending = .complete) :
    (s.serve login head script).1.stage = .over ∧
      frames (s.serve login head script).2 =
        acknowledgement s.channel.username :: (script.frames ++ [.control (.endOfSnapshot s.channel.id head true) 0]) := by
  have hread : s.onInput (some head.toNat) (.read none (Stream.read login).1) =
      ({ s with stage := .head }, [.report .sending, .write (acknowledgement s.channel.username), .askHead]) := by
    unfold onInput
    rw [hstage, read_loginFrame hlogin]
    exact onRead_loginFrame hvalid.fits hname hword
  have hhead : onInput { s with stage := .head } (some head.toNat) .head =
      ({ s with stage := .snapshot head.toNat }, [.startSnapshot]) := rfl
  obtain ⟨hover, hframes⟩ := frames_course (s := { s with stage := .snapshot head.toNat }) rfl (some head.toNat)
    (r := .new script) (Nat.lt_succ_self script.items.length) hdata hending
  unfold serve
  rw [onInputs_cons, hread, onInputs_cons, hhead]
  dsimp only
  refine ⟨hover, ?_⟩
  rw [frames_append, frames_append, hframes, endOfSnapshot, UInt64.ofNat_toNat]
  rfl

end Session

end ReliableMulticast
