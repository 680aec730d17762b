import ReliableMulticast.Proofs.Frame.Stream
import ReliableMulticast.Proofs.Publisher.Serving
import ReliableMulticast.Proofs.Subscriber.Takeover

/-!
# From a session to a link

The two ends of a TCP connection fit together. What a session of the publisher writes in answer to a login of its own
channel (`Session.frames_serve`) is read again from the stream, whatever the chunks in which it arrives
(`Stream.outcomes_written`), and becomes the tasks of a subscriber's link one by one (`Task.ofOutcome`). A link of the same
channel that `Awaits` the answer to its login takes the snapshot over (`SubscriberLink.takesOver`).

Main statement (`Session.hands_over`): the link is up from the first frame to the end of the snapshot, hands over the very
frames of the source and then what waited for their end, and takes nothing for a violation or for garbage. Its TCP
connection has no say any more from then on.

What the link can not promise is to stay up after that, if live frames were lost before (`gap_after_handover`).
-/

namespace ReliableMulticast

namespace SubscriberLink

/-- What is read from the TCP connection of a generation, as a task. -/
def Task.ofOutcome (generation : Nat) : Stream.Outcome → Task
  | .frame f => .tcpFrame generation f
  | .ended => .tcpClosed generation none
  | .failed error => .tcpClosed generation (some (.stream error))

/-- After whatever history, a link of the channel has opened its data socket and waits for the answer to its login. -/
structure Awaits (l : SubscriberLink) (channel : Channel) (c : Connection) (r : Receiver) : Prop where
  reached : ∃ (first : Channel) (settings : Settings) (history : List (Surroundings × Task)), first.id = channel.id ∧
    l = ((new first settings).1.onTasks history).1
  channel : l.channel = channel
  state : l.state = .connecting
  connection : l.connection = some c
  receiver : ∃ socket, c.receiver = some (socket, r)

variable {l : SubscriberLink} {channel : Channel} {c : Connection} {r : Receiver}

theorem Awaits.consistent (h : l.Awaits channel c r) : l.Consistent := by
  obtain ⟨first, settings, history, -, rfl⟩ := h.reached
  exact (consistent_new first settings).onTasks history

theorem Awaits.name (h : l.Awaits channel c r) : l.control.channel = channel.id := by
  obtain ⟨first, settings, history, hid, rfl⟩ := h.reached
  rw [name_onTasks, name_new, hid]

end SubscriberLink

namespace Session

open SubscriberLink (Awaits TakenOver Surroundings Task alerts)

/-- All that a session writes can be read again. -/
theorem wellSized_answer {fs : List Frame} (hfs : ∀ f ∈ fs, f.WellSized) (username : String) (last : Message) :
    ∀ f ∈ acknowledgement username :: (fs ++ [.control last 0]), f.WellSized := by
  intro f hf
  rcases List.mem_cons.1 hf with rfl | hf
  · exact Frame.wellSized_control _ _
  rcases List.mem_append.1 hf with hf | hf
  · exact hfs f hf
  · obtain rfl := List.mem_singleton.1 hf
    exact Frame.wellSized_control _ _

/-- **A snapshot is handed over.** Publisher and subscriber have the same channel, without `nul` in its texts. A session
reads the login of the channel, in whatever chunks, and streams application data to its end, while a link of the channel
awaits its answer. -/
theorem hands_over {channel : Channel} (hvalid : channel.Valid) (hid : Bytes.NulFree channel.id)
    (hname : Bytes.NulFree channel.username) (hword : Bytes.NulFree channel.password) (settings : Settings) (peer : Endpoint)
    (start : Instant) {login : List Bytes} (hlogin : login.flatten = (SubscriberLink.loginFrame channel).encode)
    (head : UInt64) {script : SnapshotScript} (hdata : ∀ f ∈ script.frames, f.IsData) (hending : script.ending = .complete)
    {l : SubscriberLink} {c : SubscriberLink.Connection} {r : Receiver} (hl : l.Awaits channel c r) {stream : List Bytes}
    (hstream : stream.flatten =
      Stream.written (frames ((Session.start channel settings peer start).serve login head script).2))
    {tasks : List (Surroundings × Task)}
    (htasks : tasks.map (·.2) = (Stream.outcomes stream).map (Task.ofOutcome c.generation)) :
    let p := l.onTasks tasks
    ((Session.start channel settings peer start).serve login head script).1.stage = .over ∧
      (∀ n, 0 < n → n ≤ script.frames.length + 1 → (l.onTasks (tasks.take n)).1.state = .up) ∧
        TakenOver c.generation r script.frames head.toNat p ∧ (r.queue = .empty → r.desyncAt? head.toNat = none) ∧
          (∀ severity message, (severity, "protocol violation: " ++ message) ∉ alerts p.2) ∧
            ∀ later env, let q := (p.1.onTasks later).1
              (∀ f, q.onTask env (.tcpFrame c.generation f) = (q, [])) ∧
                ∀ error, q.onTask env (.tcpClosed c.generation error) = (q, []) := by
  intro p
  obtain ⟨socket, hr⟩ := hl.receiver
  have hcontrol : ∀ f ∈ script.frames, f.isControl = false := fun f hf => (hdata f hf).isControl
  obtain ⟨hover, hwritten⟩ := frames_serve (s := Session.start channel settings peer start) rfl hvalid hname hword hlogin
    head hcontrol hending
  have hsized := wellSized_answer (fun f hf => (hdata f hf).wellSized) channel.username (.endOfSnapshot channel.id head true)
  rw [hwritten] at hstream
  rw [Stream.outcomes_written hsized hstream] at htasks
  have hread : tasks.map (·.2) =
      (.tcpFrame c.generation (acknowledgement channel.username) :: script.frames.map (.tcpFrame c.generation)) ++
        [.tcpFrame c.generation (.control (.endOfSnapshot channel.id head true) 0), .tcpClosed c.generation none] := by
    rw [htasks]
    simp [Task.ofOutcome, Function.comp_def]
  obtain ⟨hup, htaken⟩ := SubscriberLink.takesOver hl.consistent hl.state hl.connection hr hvalid.fits hid hl.name hcontrol
    head hread
  refine ⟨hover, hup, htaken, fun hnothing => Receiver.desyncAt?_of_empty hnothing _, htaken.not_violation,
    fun later env => ?_⟩
  have hclosed := htaken.closed.onTasks (hl.consistent.onTasks tasks) later
  exact ⟨hclosed.onTask_tcpFrame env, hclosed.onTask_tcpClosed env⟩

def guarded : Channel :=
  (Channel.new "md1" ⟨⟨10, 0, 0, 1⟩, 9000⟩ ⟨⟨10, 0, 0, 2⟩, 9001⟩ ⟨⟨10, 0, 0, 3⟩, 9002⟩).withCredentials "feed" "secret"

def quietly (tasks : List Task) : List (Surroundings × Task) := tasks.map fun task => (⟨0, fun _ => .ok 1⟩, task)

/-- A link that has logged in, and has heard these live frames in the meantime. -/
def listening (seqs : List UInt64) : SubscriberLink :=
  ((SubscriberLink.new guarded .default).1.onTasks (quietly ([.up, .tcpConnected 1 ⟨⟨10, 0, 0, 1⟩, 9000⟩] ++
    seqs.map fun seq => .udp 1 ⟨⟨seq, 0, 0, 1, noShard⟩, []⟩))).1

/-- What a session writes to it. -/
def answering (head : UInt64) (script : SnapshotScript) : Session × List Output :=
  (start guarded .default ⟨⟨10, 0, 0, 9⟩, 5000⟩ 0).serve [(SubscriberLink.loginFrame guarded).encode] head script

/-- One frame twice, and after a while another one. -/
def interrupted : SnapshotScript := ⟨[.write (.single 1) 2, .hold, .write (.single 2) 1], false, .complete⟩

/-- Two live frames have overtaken each other and the snapshot. They follow it, in order, and the link stays up. -/
theorem hands_over_interrupted :
    let bytes := Stream.written (frames (answering 7 interrupted).2)
    let stream := [bytes.take 30, bytes.drop 30]
    let p := (listening [8, 7]).onTasks (quietly ((Stream.outcomes stream).map (Task.ofOutcome 1)))
    guarded.Valid ∧ (∀ f ∈ interrupted.frames, f.IsData) ∧ stream.flatten = bytes ∧ p.1.state = .up ∧ alerts p.2 = [] ∧
      ∃ ms : List Frame, SubscriberLink.deliveries p.2 =
        [.snapshot (.single 1), .snapshot (.single 1), .snapshot (.single 2), .endOfSnapshot 7] ++ ms.map .message := by
  intro bytes stream p
  have hvalid : guarded.Valid := by decide
  have hdata : ∀ f ∈ interrupted.frames, f.IsData := by
    intro f hf
    have hsingle : f = .single 1 ∨ f = .single 2 := by
      have hlist : f ∈ [Frame.single 1, .single 1, .single 2] := hf
      simpa using hlist
    rcases hsingle with rfl | rfl <;> exact Frame.isData_single _
  have hstream : stream.flatten = bytes := by simp [stream]
  obtain ⟨c, hc⟩ := Option.isSome_iff_exists.1 (show (listening [8, 7]).connection.isSome = true by decide +kernel)
  obtain ⟨⟨socket, r⟩, hr⟩ := Option.isSome_iff_exists.1
    (show ((listening [8, 7]).connection.bind (·.receiver)).isSome = true by decide +kernel)
  have hgeneration : (listening [8, 7]).connection.map (·.generation) = some 1 := by decide +kernel
  have hbears : ((listening [8, 7]).connection.bind (·.receiver)).map (·.2.desyncAt? 7) = some none := by decide +kernel
  rw [hr] at hbears
  rw [hc] at hr hgeneration
  have hone : c.generation = 1 := Option.some.inj hgeneration
  have hawaits : (listening [8, 7]).Awaits guarded c r :=
    ⟨⟨guarded, .default, _, rfl, rfl⟩, by decide +kernel, by decide +kernel, hc, socket, hr⟩
  have htasks : (quietly ((Stream.outcomes stream).map (Task.ofOutcome 1))).map (·.2) =
      (Stream.outcomes stream).map (Task.ofOutcome c.generation) := by
    rw [hone, quietly, List.map_map]
    exact List.map_id _
  obtain ⟨-, -, htaken, -⟩ := hands_over hvalid (by decide) (by decide) (by decide) .default ⟨⟨10, 0, 0, 9⟩, 5000⟩ 0
    (List.flatten_singleton) 7 hdata rfl hawaits hstream htasks
  obtain ⟨halerts, hup, -⟩ := htaken.stays (Option.some.inj hbears)
  obtain ⟨ms, hms, -⟩ := htaken.deliveries
  exact ⟨hvalid, hdata, hstream, hup, halerts, ms, hms⟩

/-- Ninety-nine live frames were lost before the first that came. The snapshot is handed over all the same, and then the
link connects anew. -/
theorem gap_after_handover :
    let l := listening [100]
    let stream := [Stream.written (frames (answering 1 .empty).2)]
    let p := l.onTasks (quietly ((Stream.outcomes stream).map (Task.ofOutcome 1)))
    guarded.Valid ∧ Bytes.NulFree guarded.id ∧ Bytes.NulFree guarded.username ∧ Bytes.NulFree guarded.password ∧
      (answering 1 .empty).1.stage = .over ∧ l.state = .connecting ∧ l.connection.map (·.generation) = some 1 ∧
        (l.connection.bind (·.receiver)).isSome = true ∧ SubscriberLink.deliveries p.2 = [.endOfSnapshot 1] ∧
          alerts p.2 = [(.warning, "gap 1+99 exceeds the maximum resend gap")] ∧ p.1.state ≠ .up ∧
            p.1.connection.map (·.tcpState) ≠ some .disconnect := by
  decide +kernel

end Session

end ReliableMulticast
