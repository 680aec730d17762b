import ReliableMulticast.Proofs.Publisher.Source
import ReliableMulticast.Simulation.Visit

/-!
# The script of a session

A client that goes on reading may send what it likes in whatever chunks, stall, and end its stream; the source may write
what it likes and come to any end (`Visit.Act`, `SnapshotScript`). What the session makes of it is decided by the first thing
on the stream within the time for a login (`Visit.login`):

* Before that the session waits (`Visit.Waiting`), and each act of the client either leaves it waiting, or completes what it
  reads, or is too late (`Visit.act_of_waiting`).
* A login that is admitted starts the snapshot, and from then on the client sees what the source gets through
  (`Visit.Streamed`). Anything else ends the session (`Visit.Answered`).

Main statement (`Visit.follows_script`): a session performs its script to the last frame and the last report for a user whom
it admits (`Session.Performs`), and otherwise writes nothing and reports why (`Session.Refuses`).
-/

namespace ReliableMulticast

namespace Session

/-- What a session tells its link. -/
inductive Report
  | state (state : Link.TcpState)
  | closed (result : Except SessionFailure Bool)
deriving Repr

def Output.report? : Output → Option Report
  | .report state => some (.state state)
  | .closed result => some (.closed result)
  | _ => none

def reports (outputs : List Output) : List Report := outputs.filterMap Output.report?

theorem reports_append (outputs outputs' : List Output) :
    reports (outputs ++ outputs') = reports outputs ++ reports outputs' :=
  List.filterMap_append

theorem reports_map_write (fs : List Frame) : reports (fs.map .write) = [] := by
  unfold reports
  rw [List.filterMap_map]
  exact List.filterMap_eq_nil_iff.2 fun f _ => rfl

/-- What a session of the channel writes and reports for a user whom it admits, before its end and at its end. The
transmitter has answered with `head`. -/
inductive Performs (c : Channel) (head : UInt64) (source : SnapshotScript) (username : String) :
    List Frame → List Report → Bool → Prop
  | going {written : List Frame} (h : written <+: acknowledgement username :: source.accepted) :
    Performs c head source username written [.state .sending] false
  | complete :
    Performs c head source username
      (acknowledgement username :: source.accepted ++ [.control (.endOfSnapshot c.id head source.succeeds) 0])
      [.state .sending, .state .disconnect, .closed (.ok source.succeeds)] true

/-- What a session writes and reports where nobody is admitted. -/
inductive Refuses : List Frame → List Report → Bool → Prop
  | waiting : Refuses [] [] false
  | refused (failure : SessionFailure) : Refuses [] [.closed (.error failure)] true

/-- What has been read is a login with the credentials of the channel. -/
def Admits (c : Channel) (outcome : Stream.Outcome) (username : String) : Prop :=
  ∃ f password, outcome = .frame f ∧ f.message? = .ok (some (.login username password)) ∧
    c.credentialsMatch username password = true

theorem Admits.unique {c : Channel} {outcome : Stream.Outcome} {username username' : String}
    (h : Admits c outcome username) (h' : Admits c outcome username') : username = username' := by
  obtain ⟨f, password, hframe, hlogin, -⟩ := h
  obtain ⟨f', password', hframe', hlogin', -⟩ := h'
  obtain rfl : f = f' := Stream.Outcome.frame.inj (hframe.symm.trans hframe')
  rw [hlogin] at hlogin'
  cases hlogin'
  rfl

/-- A session takes the login of a user whom it admits, and fails on everything else. -/
theorem onRead_cases (s : Session) (outcome : Stream.Outcome) :
    (∃ username, Admits s.channel outcome username ∧
        s.onRead none outcome =
          ({ s with stage := .head }, [.report .sending, .write (acknowledgement username), .askHead])) ∨
      (∀ username, ¬Admits s.channel outcome username) ∧ ∃ failure, s.onRead none outcome = s.fail failure := by
  unfold onRead
  split
  · refine Or.inr ⟨?_, _, rfl⟩
    rintro username ⟨f, password, ⟨⟩, -⟩
  · refine Or.inr ⟨?_, _, rfl⟩
    rintro username ⟨f, password, ⟨⟩, -⟩
  · next f =>
    split
    · next e hmessage =>
      refine Or.inr ⟨?_, _, rfl⟩
      rintro username ⟨f', password, ⟨⟩, hlogin, -⟩
      rw [hmessage] at hlogin
      cases hlogin
    · next username password hmessage =>
      by_cases hmatch : s.channel.credentialsMatch username password = true
      · refine Or.inl ⟨username, ⟨f, password, rfl, hmessage, hmatch⟩, ?_⟩
        unfold onLogin
        rw [if_pos hmatch]
        rfl
      · refine Or.inr ⟨?_, .invalidCredentials username, ?_⟩
        · rintro username' ⟨f', password', ⟨⟩, hlogin, hmatch'⟩
          rw [hmessage] at hlogin
          cases hlogin
          exact hmatch hmatch'
        · unfold onLogin
          rw [if_neg hmatch]
    · next hother hmessage =>
      refine Or.inr ⟨?_, _, rfl⟩
      rintro username ⟨f', password, ⟨⟩, hlogin, -⟩
      rw [hmessage] at hlogin
      exact hother username password (Except.ok.inj hlogin)

theorem frames_onSnapshotEnd {s : Session} {seq : Nat} (hstage : s.stage = .snapshot seq) (script : SnapshotScript) :
    frames (s.onSnapshotEnd none script.returned).2 = [s.endOfSnapshot seq script.succeeds] ∧
      reports (s.onSnapshotEnd none script.returned).2 =
        [.state .disconnect, .closed (.ok script.succeeds)] := by
  unfold onSnapshotEnd SnapshotScript.succeeds
  rw [hstage]
  cases script.returned <;> exact ⟨rfl, rfl⟩

theorem endOfSnapshot_toNat (s : Session) (head : UInt64) (ok : Bool) :
    s.endOfSnapshot head.toNat ok = .control (.endOfSnapshot s.channel.id head ok) 0 := by
  rw [endOfSnapshot, UInt64.ofNat_toNat]

end Session

/-- The two tasks of an admitted session, whatever their turns and whatever room there is between them. -/
theorem Pipe.performs {s : Session} {script : SnapshotScript} {head : UInt64} (username : String)
    (hstage : s.stage = .snapshot head.toNat) (room : Nat) (turns : List Pipe.Turn) :
    let q := (start s script).run room turns
    Session.Performs s.channel head script username (Session.acknowledgement username :: Session.frames q.2)
      (.state .sending :: Session.reports q.2) q.1.session.isOver := by
  obtain ⟨hlast, hreports⟩ := Session.frames_onSnapshotEnd hstage script
  rcases delivers hstage script room turns with ⟨hsession, sent, hsent, hprefix⟩ | ⟨hsession, hall⟩
  · have hopen : s.isOver = false := by simp [Session.isOver, hstage]
    dsimp only
    rw [hsession, hsent, hopen, Session.frames_map_write, Session.reports_map_write]
    exact .going (List.cons_prefix_cons.2 ⟨rfl, hprefix⟩)
  · dsimp only
    rw [hsession, hall, Session.frames_append, Session.frames_map_write, hlast, Session.endOfSnapshot_toNat,
      Session.reports_append, Session.reports_map_write, hreports]
    exact .complete

namespace Simulation.Visit

open Session (Report Performs Refuses Admits)

/-- What can happen to a visit whose client goes on reading. -/
inductive Act
  | send (bytes : Bytes)
  /-- The client sends nothing more. -/
  | finish
  | advance (d : Duration)
  /-- The source is let go on. -/
  | release
deriving DecidableEq, Repr

/-- How much time passes. -/
def Act.lasts : Act → Nat
  | .advance d => d.nanos
  | _ => 0

/-- What is on the stream when the client has done this. -/
def sent : List Act → List Bytes
  | [] => []
  | .send bytes :: rest => bytes :: sent rest
  | .finish :: _ => []
  | _ :: rest => sent rest

/-- The acts up to the end of a time. What happens at the last moment still counts. -/
def within (time : Nat) : List Act → List Act
  | [] => []
  | a :: rest => a :: if a.lasts < time then within (time - a.lasts) rest else []

def apply (v : Visit) : Act → Visit × List Sight
  | .send bytes => (v.send bytes false, [])
  | .finish => (v.finish, [])
  | .advance d => ((v.advance? d).getD v, [])
  | .release => v.release.2

/-- An act, and all that follows from it. -/
def act (v : Visit) (a : Act) : Visit × List Sight :=
  let (v, early) := v.apply a
  let (v, late) := v.settle
  (v, early ++ late)

def run (v : Visit) : List Act → Visit × List Sight
  | [] => (v, [])
  | a :: rest =>
    let (v, seen) := v.act a
    let (v, more) := run v rest
    (v, seen ++ more)

theorem act_eq (v : Visit) (a : Act) :
    v.act a = ((v.apply a).1.settle.1, (v.apply a).2 ++ (v.apply a).1.settle.2) := rfl

theorem run_cons (v : Visit) (a : Act) (rest : List Act) :
    v.run (a :: rest) = (((v.act a).1.run rest).1, (v.act a).2 ++ ((v.act a).1.run rest).2) := rfl

/-- A session that begins now, for a client that has not sent anything yet. -/
def start (channel : Channel) (settings : Settings) (peer : Endpoint) (now : Instant) (head : UInt64)
    (script : Option SnapshotScript) : Visit where
  now := now
  session := .start channel settings peer now
  head := some head.toNat
  script := script
  held := none
  inbox := []
  clientOpen := true
  clientDone := false

/-! ### What is seen -/

def Sight.frame? : Sight → Option Frame
  | .received f => some f
  | _ => none

def Sight.report? : Sight → Option Report
  | .reported state => some (.state state)
  | .closed result => some (.closed result)
  | _ => none

/-- What the client has received. -/
def received (seen : List Sight) : List Frame := seen.filterMap Sight.frame?

/-- What the session has told its link. -/
def reports (seen : List Sight) : List Report := seen.filterMap Sight.report?

@[simp] theorem received_append (seen seen' : List Sight) : received (seen ++ seen') = received seen ++ received seen' :=
  List.filterMap_append

@[simp] theorem reports_append (seen seen' : List Sight) : reports (seen ++ seen') = reports seen ++ reports seen' :=
  List.filterMap_append

@[simp] theorem received_sights (outputs : List Session.Output) : received (sights outputs) = Session.frames outputs := by
  unfold received sights Session.frames
  rw [List.filterMap_filterMap]
  refine List.filterMap_congr fun o _ => ?_
  cases o <;> rfl

@[simp] theorem reports_sights (outputs : List Session.Output) : reports (sights outputs) = Session.reports outputs := by
  unfold reports sights Session.reports
  rw [List.filterMap_filterMap]
  refine List.filterMap_congr fun o _ => ?_
  cases o <;> rfl

theorem received_written (v : Visit) (r : SnapshotRun) :
    received (if v.script.isSome then [.writes r.errors r.written] else []) = [] := by
  split <;> rfl

theorem reports_written (v : Visit) (r : SnapshotRun) :
    reports (if v.script.isSome then [.writes r.errors r.written] else []) = [] := by
  split <;> rfl

/-! ### While the snapshot is streamed -/

/-- The session is over, and so is its source. -/
structure Closed (v : Visit) : Prop where
  stage : v.session.stage = .over
  held : v.held = none

/-- The session `s` streams its snapshot, and the source is held up with `r` to go on with. -/
structure Streaming (s : Session) (r : SnapshotRun) (v : Visit) : Prop where
  session : v.session = s
  held : v.held = some r
  clientOpen : v.clientOpen = true

/-- What has been seen since the source was to do the script, after it has been let go on `n` times: what it got through,
and the end of the snapshot once it has come to its end. -/
def Streamed (s : Session) (seq : Nat) (script : SnapshotScript) (n : Nat) (v : Visit) (seen : List Sight) : Prop :=
  (∃ r, Streaming s r v ∧ script.Yields (received seen) r.left ∧ reports seen = [] ∧ r.left.holds + n ≤ script.holds) ∨
    (Closed v ∧ received seen = script.accepted ++ [s.endOfSnapshot seq script.succeeds] ∧
      reports seen = [.state .disconnect, .closed (.ok script.succeeds)])

theorem settle_of_not_login {v : Visit} (h : ∀ deadline, v.session.stage ≠ .login deadline) : v.settle = (v, []) := by
  unfold settle
  split
  · next deadline hstage => exact absurd hstage (h deadline)
  · rfl

variable {v : Visit} {s : Session} {seq : Nat}

/-- The source goes on up to its next hold or to its end. -/
theorem streamed_runSource (hsession : v.session = s) (hopen : v.clientOpen = true) (hstage : s.stage = .snapshot seq)
    (r : SnapshotRun) : Streamed s seq r.left 1 (v.runSource r).1 (v.runSource r).2 := by
  have hgoing : v.session.isOver = false := by simp [Session.isOver, hsession, hstage]
  have hbroken : v.broken = none := by simp [broken, hopen]
  have hbursts := SnapshotRun.bursts_resume r
  unfold runSource
  rw [hgoing, hbroken, hsession]
  rcases hresume : r.resume false with ⟨fs, next, ending⟩
  rw [hresume] at hbursts
  dsimp only
  rw [Session.onSnapshotFrames_of_snapshot hstage]
  dsimp only
  rcases hbursts with ⟨hended, hframes⟩ | ⟨hheld, hyields, hless⟩
  · obtain rfl : ending = some r.left.returned := hended
    obtain rfl : fs = r.left.accepted := hframes
    obtain ⟨hlast, hreports⟩ := Session.frames_onSnapshotEnd hstage r.left
    refine Or.inr ⟨⟨by simp [Session.over_onSnapshotEnd hstage], rfl⟩, ?_, ?_⟩
    · rw [received_append, received_append, received_sights, received_sights, Session.frames_map_write, hlast,
        received_written, List.append_nil]
    · rw [reports_append, reports_append, reports_sights, reports_sights, Session.reports_map_write, hreports,
        reports_written]
      rfl
  · obtain rfl : ending = none := hheld
    refine Or.inl ⟨next, ⟨rfl, rfl, hopen⟩, ?_, ?_, hless⟩
    · rw [received_sights, Session.frames_map_write]
      exact hyields
    · rw [reports_sights, Session.reports_map_write]

/-- What is seen before and after. -/
theorem Streamed.trans {script : SnapshotScript} {n m : Nat} {v' : Visit} {seen more : List Sight}
    (h : Streamed s seq script n v seen) (hstreaming : ∀ r, Streaming s r v → Streamed s seq r.left m v' more)
    (hclosed : Closed v → Closed v' ∧ more = []) : Streamed s seq script (n + m) v' (seen ++ more) := by
  rcases h with ⟨r, hstands, hyields, hreports, hholds⟩ | ⟨hover, hreceived, hreports⟩
  · rcases hstreaming r hstands with ⟨r', hstands', hyields', hreports', hholds'⟩ | ⟨hover, hreceived, hreports'⟩
    · refine Or.inl ⟨r', hstands', ?_, ?_, by omega⟩
      · rw [received_append]
        exact hyields.trans hyields'
      · rw [reports_append, hreports, hreports']
        rfl
    · refine Or.inr ⟨hover, ?_, ?_⟩
      · rw [received_append, hreceived, hyields.accepted, hyields.succeeds, List.append_assoc]
      · rw [reports_append, hreports, hreports', hyields.succeeds]
        rfl
  · obtain ⟨hover', hnothing⟩ := hclosed hover
    rw [hnothing, List.append_nil]
    exact Or.inr ⟨hover', hreceived, hreports⟩

/-- Nothing more is seen of a session that is over. -/
theorem Closed.act (h : Closed v) (a : Act) : Closed (v.act a).1 ∧ (v.act a).2 = [] := by
  obtain ⟨hstage, hheld⟩ := h
  have happly : Closed (v.apply a).1 ∧ (v.apply a).2 = [] := by
    cases a with
    | send bytes => exact ⟨⟨hstage, hheld⟩, rfl⟩
    | finish => exact ⟨⟨hstage, hheld⟩, rfl⟩
    | advance d =>
      have hadvance : v.advance? d = some { v with now := v.now + d.nanos } := by simp [advance?, hheld]
      rw [apply, hadvance]
      exact ⟨⟨hstage, hheld⟩, rfl⟩
    | release =>
      have hrelease : v.release = (0, v, []) := by simp [release, hheld]
      rw [apply, hrelease]
      exact ⟨⟨hstage, hheld⟩, rfl⟩
  obtain ⟨hover, hearly⟩ := happly
  have hsettle : (v.apply a).1.settle = ((v.apply a).1, []) := settle_of_not_login fun deadline hlogin => by
    rw [hover.stage] at hlogin
    cases hlogin
  rw [act_eq, hsettle, hearly]
  exact ⟨hover, rfl⟩

theorem Closed.run (h : Closed v) (acts : List Act) : Closed (v.run acts).1 ∧ (v.run acts).2 = [] := by
  induction acts generalizing v with
  | nil => exact ⟨h, rfl⟩
  | cons a rest ih =>
    obtain ⟨hover, hnothing⟩ := h.act a
    obtain ⟨hover', hnothing'⟩ := ih hover
    rw [run_cons, hnothing, hnothing']
    exact ⟨hover', rfl⟩

/-- How often the source is let go on. -/
def releases (acts : List Act) : Nat := acts.count .release

theorem Streaming.streamed_nil {r : SnapshotRun} (h : Streaming s r v) : Streamed s seq r.left 0 v [] :=
  Or.inl ⟨r, h, SnapshotScript.yields_of_data rfl rfl rfl (by rintro f ⟨⟩), rfl, le_rfl⟩

theorem streamed_apply {r : SnapshotRun} (hstage : s.stage = .snapshot seq) (h : Streaming s r v) (a : Act) :
    Streamed s seq r.left (releases [a]) (v.apply a).1 (v.apply a).2 := by
  obtain ⟨hsession, hheld, hopen⟩ := h
  cases a with
  | send bytes =>
    have hkeep : Streaming s r (v.send bytes false) := ⟨hsession, hheld, by simp [send, hopen]⟩
    exact hkeep.streamed_nil
  | finish =>
    have hkeep : Streaming s r v.finish := ⟨hsession, hheld, hopen⟩
    exact hkeep.streamed_nil
  | advance d =>
    -- no time passes while the source is held up
    have hadvance : v.advance? d = none := by simp [advance?, hheld]
    rw [apply, hadvance]
    exact Streaming.streamed_nil ⟨hsession, hheld, hopen⟩
  | release =>
    have hrelease : v.release.2 = v.runSource r := by simp [release, hheld]
    rw [apply, hrelease]
    exact streamed_runSource hsession hopen hstage r

theorem Streamed.not_login {script : SnapshotScript} {n : Nat} {seen : List Sight} (hstage : s.stage = .snapshot seq)
    (h : Streamed s seq script n v seen) (deadline : Instant) : v.session.stage ≠ .login deadline := by
  rcases h with ⟨r, hstands, -⟩ | ⟨hover, -⟩
  · rw [hstands.session, hstage]
    rintro ⟨⟩
  · rw [hover.stage]
    rintro ⟨⟩

theorem streamed_act {r : SnapshotRun} (hstage : s.stage = .snapshot seq) (h : Streaming s r v) (a : Act) :
    Streamed s seq r.left (releases [a]) (v.act a).1 (v.act a).2 := by
  have happly := streamed_apply hstage h a
  rw [act_eq, settle_of_not_login (happly.not_login hstage)]
  dsimp only
  rwa [List.append_nil]

/-- Whatever the client does, it receives what the source gets through. -/
theorem streamed_run {r : SnapshotRun} (hstage : s.stage = .snapshot seq) (h : Streaming s r v) (acts : List Act) :
    Streamed s seq r.left (releases acts) (v.run acts).1 (v.run acts).2 := by
  induction acts generalizing v r with
  | nil => exact h.streamed_nil
  | cons a rest ih =>
    have hcount : releases (a :: rest) = releases [a] + releases rest := by
      simp only [releases, ← List.count_append, List.singleton_append]
    rw [run_cons, hcount]
    exact (streamed_act hstage h a).trans (fun r' hr' => ih hr') fun hclosed => hclosed.run rest

theorem Streamed.mono {script : SnapshotScript} {n m : Nat} {seen : List Sight} (h : Streamed s seq script n v seen)
    (hle : m ≤ n) : Streamed s seq script m v seen :=
  h.imp_left fun ⟨r, hstands, hyields, hreports, hholds⟩ => ⟨r, hstands, hyields, hreports, by omega⟩

/-! ### Before the login -/

/-- The session `s` can go on to a snapshot: the transmitter will answer with `seq`, and the source will do the script. -/
structure Ready (s : Session) (seq : Nat) (script : SnapshotScript) (v : Visit) : Prop where
  session : v.session = s
  head : v.head = some seq
  script : v.script.getD .empty = script
  held : v.held = none
  clientOpen : v.clientOpen = true

/-- The session waits for a login, and what has come of it is not yet a frame. -/
structure Waiting (s : Session) (seq : Nat) (script : SnapshotScript) (v : Visit) : Prop
    extends Ready s seq script v where
  clientDone : v.clientDone = false
  unread : ∀ f, (Stream.read v.inbox).1 ≠ .frame f

/-- What has been seen since the session read the outcome. -/
def Answered (s : Session) (seq : Nat) (script : SnapshotScript) (outcome : Stream.Outcome) (v : Visit)
    (seen : List Sight) : Prop :=
  (∃ username more, Admits s.channel outcome username ∧
      seen = .reported .sending :: .received (Session.acknowledgement username) :: more ∧
      Streamed { s with stage := .snapshot seq } seq script 1 v more) ∨
    (∀ username, ¬Admits s.channel outcome username) ∧ Closed v ∧ ∃ failure, seen = [.closed (.error failure)]

variable {script : SnapshotScript}

theorem answered_read (h : Ready s seq script v) (outcome : Stream.Outcome) (rest : List Bytes) :
    Answered s seq script outcome (v.read outcome rest).1 (v.read outcome rest).2 := by
  have hbroken : v.broken = none := by simp [broken, h.clientOpen]
  rcases s.onRead_cases outcome with ⟨username, hadmits, hread⟩ | ⟨hnobody, failure, hread⟩
  · -- the transmitter answers at once, and the source begins
    have hstreams : v.read outcome rest =
        let p := runSource { v with session := { s with stage := .snapshot seq }, inbox := rest } (.new script)
        (p.1, .reported .sending :: .received (Session.acknowledgement username) :: p.2) := by
      unfold read
      rw [hbroken, h.session, hread]
      dsimp only
      unfold answerHead
      dsimp only
      simp only [h.head, h.script, Session.onHead]
      rfl
    rw [hstreams]
    exact Or.inl ⟨username, _, hadmits, rfl, streamed_runSource
      (v := { v with session := { s with stage := .snapshot seq }, inbox := rest }) rfl h.clientOpen rfl (.new script)⟩
  · have hfails : v.read outcome rest =
        ({ v with session := { s with stage := .over }, inbox := rest }, [.closed (.error failure)]) := by
      unfold read
      rw [hbroken, h.session, hread]
      rfl
    rw [hfails]
    exact Or.inr ⟨hnobody, ⟨rfl, h.held⟩, failure, rfl⟩

theorem apply_of_waiting {deadline : Nat} (hstage : s.stage = .login deadline) (h : Waiting s seq script v)
    (a : Act) :
    Ready s seq script (v.apply a).1 ∧ (v.apply a).1.inbox = v.inbox ++ sent [a] ∧
      (v.apply a).1.now = v.now + a.lasts ∧ ((v.apply a).1.clientDone = true ↔ a = .finish) ∧ (v.apply a).2 = [] := by
  obtain ⟨⟨hsession, hhead, hscript, hheld, hopen⟩, hmore, -⟩ := h
  have hnone : sent [a] = [] → v.inbox = v.inbox ++ sent [a] := fun hnone => by rw [hnone, List.append_nil]
  have hgoes : a ≠ .finish → (v.clientDone = true ↔ a = .finish) := fun hne =>
    iff_of_false (fun hdone => Bool.false_ne_true (hmore.symm.trans hdone)) hne
  cases a with
  | send bytes =>
    have hgoing : v.session.isOver = false := by simp [Session.isOver, hsession, hstage]
    have hinbox : (v.send bytes false).inbox = v.inbox ++ [bytes] := by simp [send, hopen, hmore, hgoing]
    have hready : Ready s seq script (v.send bytes false) := ⟨hsession, hhead, hscript, hheld, by simp [send, hopen]⟩
    exact ⟨hready, hinbox, rfl, hgoes (by simp), rfl⟩
  | finish =>
    have hready : Ready s seq script v.finish := ⟨hsession, hhead, hscript, hheld, hopen⟩
    exact ⟨hready, hnone rfl, rfl, iff_of_true rfl rfl, rfl⟩
  | advance d =>
    have hadvance : v.advance? d = some { v with now := v.now + d.nanos } := by simp [advance?, hheld]
    rw [apply, hadvance]
    exact ⟨⟨hsession, hhead, hscript, hheld, hopen⟩, hnone rfl, rfl, hgoes (by simp), rfl⟩
  | release =>
    have hrelease : v.release = (0, v, []) := by simp [release, hheld]
    rw [apply, hrelease]
    exact ⟨⟨hsession, hhead, hscript, hheld, hopen⟩, hnone rfl, rfl, hgoes (by simp), rfl⟩

/-- An act before the login: the session reads a frame or the end of the stream, or it goes on to wait, or its time is up. -/
theorem act_of_waiting {deadline : Nat} (hstage : s.stage = .login deadline) (h : Waiting s seq script v) (a : Act) :
    (((∃ f, (Stream.read (v.inbox ++ sent [a])).1 = .frame f) ∨ a = .finish) ∧
        Answered s seq script (Stream.read (v.inbox ++ sent [a])).1 (v.act a).1 (v.act a).2) ∨
      ((∀ f, (Stream.read (v.inbox ++ sent [a])).1 ≠ .frame f) ∧ a ≠ .finish ∧
        ((v.now + a.lasts < deadline ∧ Waiting s seq script (v.act a).1 ∧ (v.act a).1.inbox = v.inbox ++ sent [a] ∧
            (v.act a).1.now = v.now + a.lasts ∧ (v.act a).2 = []) ∨
          (deadline ≤ v.now + a.lasts ∧ Closed (v.act a).1 ∧ ∃ failure, (v.act a).2 = [.closed (.error failure)]))) := by
  obtain ⟨hready, hinbox, hnow, hdone, hearly⟩ := apply_of_waiting hstage h a
  rw [act_eq, hearly, List.nil_append, ← hinbox]
  dsimp only
  by_cases hframe : ∃ f, (Stream.read (v.apply a).1.inbox).1 = .frame f
  · obtain ⟨f, hread⟩ := hframe
    have hsettle : (v.apply a).1.settle = (v.apply a).1.read (.frame f) (Stream.read (v.apply a).1.inbox).2 := by
      unfold settle
      rw [hready.session, hstage]
      dsimp only
      rw [Stream.poll_of_frame hread]
    rw [hsettle, hread]
    exact Or.inl ⟨Or.inl ⟨f, rfl⟩, answered_read hready _ _⟩
  · have hpartial : ∀ f, (Stream.read (v.apply a).1.inbox).1 ≠ .frame f := fun f hf => hframe ⟨f, hf⟩
    by_cases hfinish : a = .finish
    · have hsettle : (v.apply a).1.settle =
          (v.apply a).1.read (Stream.read (v.apply a).1.inbox).1 (Stream.read (v.apply a).1.inbox).2 := by
        unfold settle
        rw [hready.session, hstage]
        dsimp only
        rw [Stream.poll_of_partial hpartial, hdone.2 hfinish]
        rfl
      rw [hsettle]
      exact Or.inl ⟨Or.inr hfinish, answered_read hready _ _⟩
    · have hmore : (v.apply a).1.clientDone = false := by
        rw [← Bool.not_eq_true, hdone]
        exact hfinish
      have hsettle : (v.apply a).1.settle =
          if deadline ≤ (v.apply a).1.now then
            ({ (v.apply a).1 with session := { s with stage := .over } },
              [.closed (.error (.noLogin s.settings.loginTimeout))])
          else ((v.apply a).1, []) := by
        unfold settle
        rw [hready.session, hstage]
        dsimp only
        rw [Stream.poll_of_partial hpartial, hmore, hready.clientOpen]
        rfl
      refine Or.inr ⟨hpartial, hfinish, ?_⟩
      rw [hsettle, hnow]
      by_cases hlate : deadline ≤ v.now + a.lasts
      · rw [if_pos hlate]
        exact Or.inr ⟨hlate, ⟨rfl, hready.held⟩, _, rfl⟩
      · rw [if_neg hlate]
        exact Or.inl ⟨Nat.lt_of_not_le hlate, ⟨hready, hmore, hpartial⟩, rfl, hnow, rfl⟩

theorem Answered.run {outcome : Stream.Outcome} {seen : List Sight} (h : Answered s seq script outcome v seen)
    (acts : List Act) : Answered s seq script outcome (v.run acts).1 (seen ++ (v.run acts).2) := by
  rcases h with ⟨username, more, hadmits, rfl, hstreamed⟩ | ⟨hnobody, hover, failure, rfl⟩
  · refine Or.inl ⟨username, more ++ (v.run acts).2, hadmits, rfl, ?_⟩
    have hrun := hstreamed.trans (fun r hr => streamed_run rfl hr acts) fun hover => hover.run acts
    exact hrun.mono (Nat.le_add_right 1 _)
  · obtain ⟨hover', hnothing⟩ := hover.run acts
    rw [hnothing]
    exact Or.inr ⟨hnobody, hover', failure, rfl⟩

theorem not_admits_of_partial {c : Channel} {outcome : Stream.Outcome} (h : ∀ f, outcome ≠ .frame f) (username : String) :
    ¬Admits c outcome username := fun ⟨f, _, hframe, _⟩ => h f hframe

theorem sent_cons {a : Act} (h : a ≠ .finish) (rest : List Act) : sent (a :: rest) = sent [a] ++ sent rest := by
  cases a with
  | send bytes => rfl
  | finish => exact absurd rfl h
  | advance d => rfl
  | release => rfl

/-- **What a client sees**, as far as it depends on its login. What counts is what it has sent in time. -/
theorem run_of_waiting {deadline : Nat} (hstage : s.stage = .login deadline) (h : Waiting s seq script v)
    (acts : List Act) :
    let outcome := (Stream.read (v.inbox ++ sent (within (deadline - v.now) acts))).1
    Answered s seq script outcome (v.run acts).1 (v.run acts).2 ∨
      (∀ username, ¬Admits s.channel outcome username) ∧ Waiting s seq script (v.run acts).1 ∧
        v.now ≤ (v.run acts).1.now ∧ (v.run acts).2 = [] := by
  induction acts generalizing v with
  | nil =>
    refine Or.inr ⟨not_admits_of_partial ?_, h, le_rfl, rfl⟩
    simpa [within, sent] using h.unread
  | cons a rest ih =>
    dsimp only
    rw [run_cons, within]
    rcases act_of_waiting hstage h a with ⟨hread, hanswered⟩ | ⟨hpartial, hmore, hwaits | hlate⟩
    · -- what the client does after that makes no difference to what has been read
      have hsame : ∀ acts', (Stream.read (v.inbox ++ sent (a :: acts'))).1 = (Stream.read (v.inbox ++ sent [a])).1 := by
        intro acts'
        rcases hread with ⟨f, hf⟩ | rfl
        · by_cases hfinish : a = .finish
          · rw [hfinish]
            rfl
          · rw [sent_cons hfinish, ← List.append_assoc, Stream.read_append_of_frame hf, hf]
        · rfl
      rw [hsame]
      exact Or.inl (hanswered.run rest)
    · obtain ⟨hearly, hwaiting, hinbox, hnow, hnothing⟩ := hwaits
      have hlasts : a.lasts < deadline - v.now := Nat.lt_sub_iff_add_lt'.2 hearly
      have hleft : deadline - (v.now + a.lasts) = deadline - v.now - a.lasts := (Nat.sub_sub _ _ _).symm
      have hlater : v.now ≤ (v.act a).1.now := by
        rw [hnow]
        exact Nat.le_add_right _ _
      have hrest := ih hwaiting
      rw [hinbox, hnow, hleft] at hrest
      rw [if_pos hlasts, sent_cons hmore, ← List.append_assoc, hnothing, List.nil_append]
      refine hrest.imp_right fun ⟨hnobody, hwaiting', hsince, hnothing'⟩ => ⟨hnobody, hwaiting', ?_, hnothing'⟩
      exact hlater.trans (hnow ▸ hsince)
    · obtain ⟨hlate, hover, failure, hfails⟩ := hlate
      have hlasts : ¬a.lasts < deadline - v.now := fun h => absurd (Nat.lt_sub_iff_add_lt'.1 h) (Nat.not_lt.2 hlate)
      obtain ⟨hover', hnothing⟩ := hover.run rest
      rw [if_neg hlasts, hfails, hnothing, List.append_nil]
      exact Or.inl (Or.inr ⟨not_admits_of_partial hpartial, hover', failure, rfl⟩)

/-! ### The script of a session -/

/-- The first thing that the client sends in time. -/
def login (settings : Settings) (acts : List Act) : Stream.Outcome :=
  (Stream.read (sent (within settings.loginTimeout.nanos acts))).1

theorem Streamed.performs {head : UInt64} {n : Nat} {more : List Sight} (username : String)
    (hstage : s.stage = .snapshot head.toNat) (h : Streamed s head.toNat script n v more) :
    Performs s.channel head script username (Session.acknowledgement username :: received more)
      (.state .sending :: reports more) v.session.isOver := by
  rcases h with ⟨r, hstands, hyields, hreports, -⟩ | ⟨hover, hreceived, hreports⟩
  · have hopen : v.session.isOver = false := by simp [Session.isOver, hstands.session, hstage]
    rw [hopen, hreports]
    exact .going (List.cons_prefix_cons.2 ⟨rfl, _, hyields.accepted.symm⟩)
  · have hclosed : v.session.isOver = true := by simp [Session.isOver, hover.stage]
    rw [hclosed, hreceived, hreports, Session.endOfSnapshot_toNat]
    exact .complete

theorem run_append (v : Visit) (acts acts' : List Act) :
    (v.run (acts ++ acts')).1 = ((v.run acts).1.run acts').1 := by
  induction acts generalizing v with
  | nil => rfl
  | cons a rest ih => exact ih _

/-- A source that is let go on often enough comes to its end. -/
theorem Answered.closed {outcome : Stream.Outcome} {seen : List Sight} (h : Answered s seq script outcome v seen)
    {acts : List Act} (hacts : script.holds ≤ releases acts) : Closed (v.run acts).1 := by
  rcases h with ⟨-, more, -, -, ⟨r, hstands, -, -, hholds⟩ | ⟨hover, -⟩⟩ | ⟨-, hover, -⟩
  · rcases streamed_run rfl hstands acts with ⟨r', -, -, -, hholds'⟩ | ⟨hover, -⟩
    · omega
    · exact hover
  · exact (hover.run acts).1
  · exact (hover.run acts).1

theorem Waiting.closed_of_late {deadline : Nat} (h : Waiting s seq script v) (hstage : s.stage = .login deadline)
    {d : Duration} (hlate : deadline ≤ v.now + d.nanos) : Closed (v.act (.advance d)).1 := by
  rcases act_of_waiting hstage h (.advance d) with ⟨⟨f, hframe⟩ | hfinish, -⟩ | ⟨-, -, ⟨hearly, -⟩ | ⟨-, hover, -⟩⟩
  · rw [show sent [.advance d] = [] from rfl, List.append_nil] at hframe
    exact absurd hframe (h.unread f)
  · cases hfinish
  · exact absurd hearly (Nat.not_lt.2 hlate)
  · exact hover

section Start

variable (channel : Channel) (settings : Settings) (peer : Endpoint) (now : Instant) (head : UInt64)
  (script : Option SnapshotScript)

theorem waiting_start :
    Waiting (.start channel settings peer now) head.toNat (script.getD .empty)
      (start channel settings peer now head script) :=
  ⟨⟨rfl, rfl, rfl, rfl, rfl⟩, rfl, nofun⟩

theorem run_start (acts : List Act) :
    let v := start channel settings peer now head script
    Answered v.session head.toNat (script.getD .empty) (login settings acts) (v.run acts).1 (v.run acts).2 ∨
      (∀ username, ¬Admits channel (login settings acts) username) ∧
        Waiting v.session head.toNat (script.getD .empty) (v.run acts).1 ∧ now ≤ (v.run acts).1.now ∧
        (v.run acts).2 = [] := by
  have hrun := run_of_waiting rfl (waiting_start channel settings peer now head script) acts
  have htime : (now : Nat) + settings.loginTimeout.nanos - now = settings.loginTimeout.nanos :=
    Nat.add_sub_cancel_left _ _
  rw [show (start channel settings peer now head script).now = now from rfl, htime] at hrun
  exact hrun

/-- Whoever has not logged in when the time has passed is too late, and every other session ends with its source. -/
theorem closed_start (acts : List Act) :
    Closed ((start channel settings peer now head script).run
      (acts ++ .advance settings.loginTimeout :: List.replicate (script.getD .empty).holds .release)).1 := by
  have hreleases : releases (.advance settings.loginTimeout :: List.replicate (script.getD .empty).holds .release) =
      (script.getD .empty).holds := by simp [releases]
  rw [run_append]
  rcases run_start channel settings peer now head script acts with hanswered | ⟨-, hwaiting, hsince, -⟩
  · exact hanswered.closed hreleases.ge
  · have hlate : now + settings.loginTimeout.nanos ≤
        ((start channel settings peer now head script).run acts).1.now + settings.loginTimeout.nanos :=
      Nat.add_le_add_right hsince _
    rw [run_cons]
    exact ((hwaiting.closed_of_late rfl hlate).run _).1

end Start

/-- **A session follows its script**, whatever its client sends and when, and whatever its source does.

* If the client's login comes in time and has the credentials of the channel, the session writes the acknowledgement, the
  frames that the source gets through, and the end of the snapshot; its last report is then the only one that it is closed.
* The same goes for source and session as two tasks, whatever their turns and whatever room there is between them.
* Otherwise the session writes nothing, and its only report is why it failed.
* When the time for a login has passed and the source has been let go on as often as it is held up, the session is over;
  and so it is when both of its tasks have had enough turns. -/
theorem follows_script (channel : Channel) (settings : Settings) (peer : Endpoint) (now : Instant) (head : UInt64)
    (script : Option SnapshotScript) (acts : List Act) :
    let source := script.getD .empty
    let v := start channel settings peer now head script
    let p := v.run acts
    let tasks := Pipe.start { v.session with stage := .snapshot head.toNat } source
    (∀ username, Admits channel (login settings acts) username →
      Performs channel head source username (received p.2) (reports p.2) p.1.session.isOver ∧
        ∀ room turns,
          let q := tasks.run room turns
          Performs channel head source username (Session.acknowledgement username :: Session.frames q.2)
            (.state .sending :: Session.reports q.2) q.1.session.isOver) ∧
    ((∀ username, ¬Admits channel (login settings acts) username) →
      Refuses (received p.2) (reports p.2) p.1.session.isOver) ∧
    (v.run (acts ++ .advance settings.loginTimeout :: List.replicate source.holds .release)).1.session.isOver = true ∧
    ∀ (room : Nat) (rounds : List (List Pipe.Turn)), 0 < room → (∀ turns ∈ rounds, ∀ t, t ∈ turns) →
      tasks.work ≤ rounds.length → (tasks.run room rounds.flatten).1.session.isOver = true := by
  have hrun := run_start channel settings peer now head script acts
  refine ⟨fun username hadmits => ⟨?_, fun room turns => ?_⟩, fun hnobody => ?_, ?_, fun room rounds hroom hrounds hwork => ?_⟩
  · rcases hrun with (⟨username', more, hadmits', hseen, hstreamed⟩ | ⟨hnobody, -⟩) | ⟨hnobody, -⟩
    · obtain rfl := hadmits.unique hadmits'
      rw [hseen]
      exact hstreamed.performs username rfl
    · exact absurd hadmits (hnobody username)
    · exact absurd hadmits (hnobody username)
  · exact Pipe.performs (s := { Session.start channel settings peer now with stage := .snapshot head.toNat }) username rfl
      room turns
  · rcases hrun with (⟨username, more, hadmits, -⟩ | ⟨-, hover, failure, hseen⟩) | ⟨-, hwaiting, -, hseen⟩
    · exact absurd hadmits (hnobody username)
    · rw [hseen, Session.isOver, hover.stage]
      exact .refused failure
    · rw [hseen, hwaiting.session]
      exact .waiting
  · rw [Session.isOver, (closed_start channel settings peer now head script acts).stage]
    rfl
  · rw [Session.isOver, Pipe.over_of_rounds hroom rfl hrounds hwork]
    rfl

def market : Channel :=
  { Channel.new "md1" ⟨⟨10, 0, 0, 1⟩, 9000⟩ ⟨⟨239, 1, 1, 1⟩, 9001⟩ ⟨⟨10, 0, 0, 3⟩, 9002⟩ with
    username := "user", password := "secret" }

/-- Two frames, a hold, a control message that is refused, and one more frame. -/
def dump : SnapshotScript :=
  ⟨[.write (.single 1) 2, .hold, .write (Session.acknowledgement "user") 1, .write (.single 2) 1], true, .complete⟩

def visitor : Visit := start market .default ⟨⟨127, 0, 0, 1⟩, 40000⟩ 0 17 (some dump)

/-- The login comes in two parts, the second one just in time. -/
def slowly : List Act :=
  let bytes := (SubscriberLink.loginFrame market).encode
  [.send (bytes.take 20), .advance (.ofMillis 9999), .send (bytes.drop 20), .release]

theorem follows_script_slowly :
    Admits market (login .default slowly) "user" ∧
      Performs market 17 dump "user" (received (visitor.run slowly).2) (reports (visitor.run slowly).2)
        (visitor.run slowly).1.session.isOver ∧
      (visitor.run slowly).1.session.isOver = true ∧ (received (visitor.run slowly).2).length = 5 := by
  have hadmits : Admits market (login .default slowly) "user" :=
    ⟨SubscriberLink.loginFrame market, "secret", by decide +kernel, by decide +kernel, by decide +kernel⟩
  obtain ⟨hperforms, -⟩ := (follows_script market .default ⟨⟨127, 0, 0, 1⟩, 40000⟩ 0 17 (some dump) slowly).1 "user" hadmits
  exact ⟨hadmits, hperforms, by decide +kernel, by decide +kernel⟩

end Simulation.Visit

end ReliableMulticast
