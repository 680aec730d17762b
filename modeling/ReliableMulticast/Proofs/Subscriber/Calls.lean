import ReliableMulticast.Proofs.Subscriber.Link

/-!
# The calls on the application

A `Journal` is written by somebody who watches the effects of a link: the state that the link says it is in, and the
calls on the application, with a new page for every connect.

Main statement (`calls_inOrder`): on every page there are snapshot frames, then at most one end of the snapshot, then
messages numbered from there on without a gap (`InOrder`), and all calls are made while the link is up.
-/

namespace ReliableMulticast.SubscriberLink

open Link (State Machine)

/-! ### Journals -/

/-- A call on the application, with the state that the link was in. -/
structure SinkCall where
  state : State
  delivery : Delivery
deriving DecidableEq, Repr, Inhabited

structure Journal where
  state : State
  /-- The calls before the last connect, a page for each connection. -/
  past : List (List SinkCall)
  /-- The calls since. -/
  page : List SinkCall
deriving DecidableEq, Repr, Inhabited

namespace Journal

def blank (s : State) : Journal := ⟨s, [], []⟩

def read (j : Journal) : Effect → Journal
  | .deliver d => { j with page := j.page ++ [⟨j.state, d⟩] }
  | .connect .. => { j with past := j.past ++ [j.page], page := [] }
  | e => { j with state := e.stateAfter j.state }

def readAll (j : Journal) (effects : List Effect) : Journal := effects.foldl read j

def pages (j : Journal) : List (List SinkCall) := j.past ++ [j.page]

/-- What the application was handed since the last connect. -/
def handed (j : Journal) : List Delivery := j.page.map (·.delivery)

theorem readAll_append (j : Journal) (effects effects' : List Effect) :
    j.readAll (effects ++ effects') = (j.readAll effects).readAll effects' :=
  List.foldl_append

theorem read_quiet (j : Journal) {e : Effect} (h : e.Quiet) : j.read e = { j with state := e.stateAfter j.state } := by
  cases e <;> first | rfl | exact h.elim

theorem readAll_told {s s' : State} {effects : List Effect} (h : Told s effects s') {j : Journal} (hj : j.state = s) :
    j.readAll effects = { j with state := s' } := by
  have hfold : ∀ j : Journal, j.readAll effects = { j with state := effects.foldl Effect.stateAfter j.state } := by
    have hquiet := h.quiet
    clear h
    induction effects with
    | nil => intro j; rfl
    | cons e rest ih =>
      intro j
      have hrest := ih (fun e' he' => hquiet e' (List.mem_cons_of_mem _ he')) (j.read e)
      rw [read_quiet j (hquiet e (by simp))] at hrest
      simpa [readAll, read_quiet j (hquiet e (by simp))] using hrest
  rw [hfold j, hj, h.state]

theorem readAll_outputs (j : Journal) (socket : SocketId) (outputs : List Receiver.Output) :
    j.readAll (outputs.map (ofOutput socket)) =
      { j with page := j.page ++ (outputs.filterMap Receiver.Output.delivery?).map (SinkCall.mk j.state) } := by
  induction outputs generalizing j with
  | nil => simp [readAll]
  | cons o rest ih =>
    have hrest := ih (j.read (ofOutput socket o))
    cases o <;> simpa [readAll, ofOutput, read, Effect.stateAfter, List.filterMap_cons, Receiver.Output.delivery?] using hrest

end Journal

/-! ### The calls of one connection -/

def Data (fs : List Frame) : Prop := ∀ f ∈ fs, f.isControl = false

/-- Frames of the snapshot, its end, and messages numbered from there on. -/
inductive InOrder : List Delivery → Prop
  | snapshot {fs : List Frame} : Data fs → InOrder (fs.map .snapshot)
  | live {fs ms : List Frame} {seq : Nat} : Data fs → Data ms → ms.map (·.seq) = List.range' seq ms.length →
    InOrder (fs.map .snapshot ++ .endOfSnapshot seq :: ms.map .message)

theorem inOrder_nil : InOrder [] := by
  have hdata : Data [] := by simp [Data]
  exact .snapshot hdata

/-- A window that goes on after what was handed over. -/
def Resumes (handed : List Delivery) (a : Arrivals) : Prop :=
  ∃ fs seq ms, Data fs ∧ Data ms ∧ a.Live seq ms ∧ handed = fs.map .snapshot ++ .endOfSnapshot seq :: ms.map .message

theorem Resumes.inOrder {handed : List Delivery} {a : Arrivals} (h : Resumes handed a) : InOrder handed := by
  obtain ⟨fs, seq, ms, hfs, hms, hlive, rfl⟩ := h
  exact .live hfs hms hlive.numbered

theorem Resumes.advance {handed : List Delivery} {a a' : Arrivals} (h : Resumes handed a) {fresh out : List Frame}
    (hadv : a.Advance a' fresh out) (hout : Data out) : Resumes (handed ++ out.map .message) a' := by
  obtain ⟨fs, seq, ms, hfs, hms, hlive, rfl⟩ := h
  refine ⟨fs, seq, ms ++ out, hfs, fun f hf => ?_, hlive.advance hadv, by simp⟩
  rcases List.mem_append.1 hf with hf | hf
  · exact hms f hf
  · exact hout f hf

/-- What the application was handed since the connect, as far as a connection has come. -/
structure Stage (c : Connection) (handed : List Delivery) : Prop where
  login : c.tcpState = .login → handed = []
  snapshot : c.tcpState = .receiving → ∃ fs, Data fs ∧ handed = fs.map .snapshot
  window : c.Window (·.isControl = false) (Resumes handed)

theorem Stage.of_bare {c c' : Connection} {handed : List Delivery} (h : Stage c handed) (hb : c'.bare = c.bare) :
    Stage c' handed := by
  obtain ⟨-, htcp, hreceiver⟩ := Connection.eq_of_bare hb
  exact ⟨htcp ▸ h.login, htcp ▸ h.snapshot, h.window.of_eq htcp hreceiver⟩

section Talk

variable {c : Connection} {handed : List Delivery} {socket : SocketId} {r : Receiver}

/-- A call that leaves the window and the TCP connection alone. -/
theorem Stage.aside (h : Stage c handed) (hr : c.receiver = some (socket, r)) (now : Instant) (call : Receiver.Call)
    (hc : call.Aside) : Stage (c.after socket call (r.onCall now call)) handed := by
  have hwindow := h.window.aside hr now call hc
  cases call <;> first | exact ⟨h.login, h.snapshot, hwindow⟩ | exact hc.elim

theorem Stage.snapshotFrame (h : Stage c handed) (hr : c.receiver = some (socket, r))
    (hstate : c.tcpState = .receiving) (now : Instant) {f : Frame} (hf : f.isControl = false) :
    Stage (c.after socket (.snapshotFrame f) (r.onCall now (.snapshotFrame f))) (handed ++ [.snapshot f]) ∧
      InOrder (handed ++ [.snapshot f]) := by
  obtain ⟨fs, hfs, rfl⟩ := h.snapshot hstate
  have hdata : Data (fs ++ [f]) := by
    intro g hg
    rcases List.mem_append.1 hg with hg | hg
    · exact hfs g hg
    · rw [List.mem_singleton.1 hg]
      exact hf
  have hafter : (c.after socket (.snapshotFrame f) (r.onCall now (.snapshotFrame f))).tcpState = .receiving := hstate
  have hmap : fs.map Delivery.snapshot ++ [.snapshot f] = (fs ++ [f]).map .snapshot := by simp
  rw [hmap]
  refine ⟨⟨fun hlogin => ?_, fun _ => ⟨_, hdata, rfl⟩, ?_⟩, .snapshot hdata⟩
  · rw [hafter] at hlogin
    cases hlogin
  · exact (h.window.aside hr now (.snapshotFrame f) trivial).of_queuing (by simp [hafter]) rfl

theorem Stage.endOfSnapshot (h : Stage c handed) (hr : c.receiver = some (socket, r))
    (hstate : c.tcpState = .receiving) (now : Instant) (seq : Nat) :
    Stage (c.after socket (.endOfSnapshot seq) (r.onCall now (.endOfSnapshot seq)))
        (handed ++ (r.onCall now (.endOfSnapshot seq)).deliveries) ∧
      InOrder (handed ++ (r.onCall now (.endOfSnapshot seq)).deliveries) := by
  obtain ⟨fs, hfs, rfl⟩ := h.snapshot hstate
  obtain ⟨ms, hms, hdata, hadv, hwindow⟩ := h.window.endOfSnapshot hr now seq
  have hlive := (Arrivals.live_cutAt r.queue seq).advance hadv
  rw [List.nil_append] at hlive
  have hresumes : Resumes (fs.map .snapshot ++ .endOfSnapshot seq :: ms.map .message)
      (r.onCall now (.endOfSnapshot seq)).receiver.queue := ⟨fs, seq, ms, hfs, hdata, hlive, rfl⟩
  rw [hms]
  exact ⟨⟨by rintro ⟨⟩, by rintro ⟨⟩, hwindow _ hresumes⟩, hresumes.inOrder⟩

theorem Stage.frame (h : Stage c handed) (ho : InOrder handed) (hr : c.receiver = some (socket, r)) (now : Instant)
    (f : Frame) :
    Stage (c.after socket (.frame f) (r.onCall now (.frame f))) (handed ++ (r.onCall now (.frame f)).deliveries) ∧
      InOrder (handed ++ (r.onCall now (.frame f)).deliveries) := by
  obtain ⟨out, hout, hdata, hadv, hwindow⟩ := h.window.frame hr now (f := f) id
  rw [hout]
  have hpatient : r.queue.queuing = true → handed ++ out.map Delivery.message = handed := by
    intro hqueuing
    rw [hadv.patient hqueuing]
    simp
  refine ⟨⟨fun hlogin => ?_, fun hreceiving => ?_, hwindow _ (fun hold => hold.advance hadv hdata)⟩, ?_⟩
  · have hstate : c.tcpState = .login := hlogin
    rw [hpatient (h.window.queuing hr (by simp [hstate]))]
    exact h.login hstate
  · have hstate : c.tcpState = .receiving := hreceiving
    rw [hpatient (h.window.queuing hr (by simp [hstate]))]
    exact h.snapshot hstate
  · rcases h.window.live socket r hr with hqueuing | ⟨-, hold⟩
    · rw [hpatient hqueuing]
      exact ho
    · exact (hold.advance hadv hdata).inOrder

/-- One call to the receiver of a connection. -/
theorem Stage.talk (h : Stage c handed) (ho : InOrder handed) (hr : c.receiver = some (socket, r)) (now : Instant)
    {task : Task} {call : Receiver.Call} (hm : task.Makes c.generation call)
    (htcp : onTcp call = true → c.tcpState = .receiving) :
    Stage (c.after socket call (r.onCall now call)) (handed ++ (r.onCall now call).deliveries) ∧
      InOrder (handed ++ (r.onCall now call).deliveries) := by
  cases hm with
  | frame _ f => exact h.frame ho hr now f
  | snapshotFrame _ f hf => exact h.snapshotFrame hr (htcp rfl) now hf
  | endOfSnapshot _ f id seq hf => exact h.endOfSnapshot hr (htcp rfl) now seq.toNat
  | requestTimer =>
    rw [show (r.onCall now .requestTimer).deliveries = [] from Receiver.deliveries_requestTimer r now, List.append_nil]
    exact ⟨h.aside hr now _ trivial, ho⟩
  | livenessTick =>
    rw [show (r.onCall now .livenessTick).deliveries = [] from Receiver.deliveries_livenessTick r, List.append_nil]
    exact ⟨h.aside hr now _ trivial, ho⟩

end Talk

/-! ### Journals of links -/

/-- A journal that is up to date with a link. -/
structure Tracks (j : Journal) (l : SubscriberLink) : Prop where
  state : j.state = l.state
  past : ∀ page ∈ j.past, InOrder (page.map (·.delivery))
  handed : InOrder j.handed
  up : ∀ page ∈ j.pages, ∀ call ∈ page, call.state = .up
  stage : ∀ c, l.connection = some c → Stage c j.handed

theorem Tracks.told {j : Journal} {l l' : SubscriberLink} (h : Tracks j l) {effects : List Effect}
    (ht : Told l.state effects l'.state) (hstage : ∀ c, l'.connection = some c → Stage c j.handed) :
    Tracks (j.readAll effects) l' := by
  rw [Journal.readAll_told ht h.state]
  exact ⟨rfl, h.past, h.handed, h.up, hstage⟩

/-- A connect turns the page. -/
theorem Tracks.connect {j : Journal} {l l' : SubscriberLink} (h : Tracks j l) {generation : Nat} {dest : Endpoint}
    (hstate : l'.state = l.state) (hstage : ∀ c, l'.connection = some c → Stage c []) :
    Tracks (j.readAll [.connect generation dest]) l' where
  state := by rw [hstate]; exact h.state
  past := by
    intro page hpage
    rcases List.mem_append.1 hpage with hpage | hpage
    · exact h.past page hpage
    · rw [List.mem_singleton.1 hpage]
      exact h.handed
  handed := inOrder_nil
  up := by
    intro page hpage
    rcases List.mem_append.1 hpage with hpage | hpage
    · exact h.up page hpage
    · rw [List.mem_singleton.1 hpage]
      rintro call ⟨⟩
  stage := hstage

/-- What a call to the receiver hands over is entered on the page. -/
theorem Tracks.talk {j : Journal} {l l' : SubscriberLink} (h : Tracks j l) {socket : SocketId} {a : Receiver.Answer}
    {closing : List Effect} (hclosing : ∀ j : Journal, j.readAll closing = j) (hup : a.deliveries ≠ [] → l.state = .up)
    (hstate : l'.state = l.state) (hhanded : InOrder (j.handed ++ a.deliveries))
    (hstage : ∀ c, l'.connection = some c → Stage c (j.handed ++ a.deliveries)) :
    Tracks (j.readAll (a.outputs.map (ofOutput socket) ++ closing)) l' := by
  have hpage : (j.page ++ a.deliveries.map (SinkCall.mk j.state)).map (·.delivery) = j.handed ++ a.deliveries := by
    simp [Journal.handed, Function.comp_def]
  rw [Journal.readAll_append, hclosing, Journal.readAll_outputs]
  refine ⟨by rw [hstate]; exact h.state, h.past, ?_, ?_, ?_⟩
  · show InOrder ((j.page ++ a.deliveries.map (SinkCall.mk j.state)).map (·.delivery))
    rw [hpage]
    exact hhanded
  · intro page hmem call hcall
    rcases List.mem_append.1 hmem with hmem | hmem
    · exact h.up page (List.mem_append_left _ hmem) call hcall
    · rw [List.mem_singleton.1 hmem] at hcall
      rcases List.mem_append.1 hcall with hcall | hcall
      · exact h.up j.page (List.mem_append_right _ (by simp)) call hcall
      · obtain ⟨d, hd, rfl⟩ := List.mem_map.1 hcall
        rw [← hup (List.ne_nil_of_mem hd)]
        exact h.state
  · show ∀ c, l'.connection = some c →
      Stage c ((j.page ++ a.deliveries.map (SinkCall.mk j.state)).map (·.delivery))
    rw [hpage]
    exact hstage

theorem Tracks.move {j : Journal} {l l' : SubscriberLink} (h : Tracks j l) {now : Instant} {task : Task}
    {effects : List Effect} (hm : Move now task l effects l') : Tracks (j.readAll effects) l' := by
  cases hm with
  | stay hgeneration hconnection htold =>
    refine h.told htold (fun c' hc' => ?_)
    rw [hc'] at hconnection
    obtain ⟨c, hc, hb⟩ := Option.map_eq_some_iff.1 hconnection.symm
    exact (h.stage c hc).of_bare hb.symm
  | leave hgeneration hnone htold => exact h.told htold (fun c hc => by rw [hnone] at hc; cases hc)
  | start dest hgeneration hc hcurrent hlogin hreceiver hstate heffects =>
    subst heffects
    refine h.connect hstate (fun c' hc' => ?_)
    rw [hc] at hc'
    obtain rfl := Option.some.inj hc'
    refine ⟨fun _ => rfl, fun hreceiving => ?_, Connection.window_of_receiver_eq_none hreceiver _ _⟩
    rw [hlogin] at hreceiving
    cases hreceiving
  | listen peer socket resendTo hc hgeneration hc' htold =>
    refine h.told htold (fun c₁ hc₁ => ?_)
    rw [hc'] at hc₁
    obtain rfl := Option.some.inj hc₁
    have hold := h.stage _ hc
    exact ⟨hold.login, hold.snapshot, .of_new l.settings resendTo rfl⟩
  | acknowledge hc hlogin hgeneration hc' hstate =>
    refine h.told (hstate ▸ told_nil _) (fun c₁ hc₁ => ?_)
    rw [hc'] at hc₁
    obtain rfl := Option.some.inj hc₁
    have hold := h.stage _ hc
    exact ⟨by rintro ⟨⟩, fun _ => ⟨[], by simp [Data], hold.login hlogin⟩,
      hold.window.of_queuing (by simp [hlogin]) rfl⟩
  | @talk _ c socket r call hc hr hmakes htcp hup hgeneration hc' hstate =>
    obtain ⟨hstage, hhanded⟩ := (h.stage c hc).talk h.handed hr now hmakes htcp
    refine h.talk (fun j => ?_) hup hstate hhanded (fun c₁ hc₁ => ?_)
    · split <;> rfl
    · rw [hc'] at hc₁
      obtain rfl := Option.some.inj hc₁
      exact hstage

theorem Tracks.moves {j : Journal} {l l' : SubscriberLink} (h : Tracks j l) {now : Instant} {task : Task}
    {effects : List Effect} (hm : Moves now task l effects l') : Tracks (j.readAll effects) l' := by
  induction hm generalizing j with
  | refl l => exact h
  | step first rest ih =>
    rw [Journal.readAll_append]
    exact ih (h.move first)

/-! ### Whole runs -/

/-- Tasks one after the other, each in its surroundings, with all their effects. -/
def onTasks (l : SubscriberLink) : List (Surroundings × Task) → SubscriberLink × List Effect
  | [] => (l, [])
  | (env, task) :: rest =>
    let (l, effects) := l.onTask env task
    let (l, more) := l.onTasks rest
    (l, effects ++ more)

theorem onTasks_cons (l : SubscriberLink) (env : Surroundings) (task : Task) (rest : List (Surroundings × Task)) :
    l.onTasks ((env, task) :: rest) =
      (((l.onTask env task).1.onTasks rest).1, (l.onTask env task).2 ++ ((l.onTask env task).1.onTasks rest).2) :=
  rfl

theorem Tracks.onTasks {j : Journal} {l : SubscriberLink} (h : Tracks j l) (hl : l.Consistent)
    (tasks : List (Surroundings × Task)) : Tracks (j.readAll (l.onTasks tasks).2) (l.onTasks tasks).1 := by
  induction tasks generalizing j l with
  | nil => exact h
  | cons first rest ih =>
    obtain ⟨env, task⟩ := first
    have hsettles := settles_onTask hl env task
    have hrest := ih (h.moves hsettles.moves) hsettles.consistent
    simpa only [SubscriberLink.onTasks, Journal.readAll_append] using hrest

theorem tracks_new (channel : Channel) (settings : Settings) :
    Tracks ((Journal.blank (Machine.new channel.enabled).state).readAll (new channel settings).2)
      (new channel settings).1 := by
  rw [Journal.readAll_told (new_effects channel settings) rfl]
  refine ⟨rfl, by rintro page ⟨⟩, inOrder_nil, ?_, fun c hc => ?_⟩
  · simp [Journal.pages, Journal.blank]
  · rw [new_connection] at hc
    cases hc

/-- Whatever a new link is told to do and whatever comes from the network, the application is called in order between
one connect and the next, and only while the link is up. -/
theorem calls_inOrder (channel : Channel) (settings : Settings) (tasks : List (Surroundings × Task)) :
    let l := (new channel settings).1.onTasks tasks
    let j := (Journal.blank (Machine.new channel.enabled).state).readAll ((new channel settings).2 ++ l.2)
    j.state = l.1.state ∧
      ∀ page ∈ j.pages, InOrder (page.map (·.delivery)) ∧ ∀ call ∈ page, call.state = .up := by
  intro l j
  have h : Tracks j l.1 := by
    rw [show j = _ from Journal.readAll_append _ _ _]
    exact (tracks_new channel settings).onTasks (consistent_new channel settings) tasks
  refine ⟨h.state, fun page hpage => ⟨?_, h.up page hpage⟩⟩
  rcases List.mem_append.1 hpage with hpage | hpage
  · exact h.past page hpage
  · rw [List.mem_singleton.1 hpage]
    exact h.handed

end ReliableMulticast.SubscriberLink
