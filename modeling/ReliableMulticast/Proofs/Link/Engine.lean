import ReliableMulticast.Link.Engine
import ReliableMulticast.Proofs.Link.Intent
import ReliableMulticast.Proofs.Link.Registry

/-!
# What becomes of an engine's commands

An engine hands channels to its links and starts and stops all of them. Its links go on working meanwhile, each on its own
and in any order: the engine only posts commands to them. An `Event` is a call to the engine or a piece of work of one link,
and a `Fleet` says what the links of an engine are: how they are created, what they do with their work, and which command
they take from what was posted.

Once there is a link for an id, what happens to the engine happens to this link or passes it by (`Fleet.turn`), so that it
has a life of its own from its first event on (`Fleet.live`, `Fleet.get?_live`). In a fleet that is `Lawful` a link takes
every command that it was given, in order, however its work and the calls are interleaved (`Fleet.Lawful.live`).

Main statement (`Fleet.Lawful.reaches`): each link gets what the calls say to it and nothing else, and heads for where the
last of them sends it.
-/

namespace ReliableMulticast

theorem lastGiven_append {α β : Type} (f : α → Option β) (before : β) (as bs : List α) :
    lastGiven f before (as ++ bs) = lastGiven f (lastGiven f before as) bs := by
  induction as generalizing before with
  | nil => rfl
  | cons a rest ih =>
    rw [List.cons_append, lastGiven_cons, lastGiven_cons]
    exact ih _

theorem lastGiven_filterMap {α β γ : Type} (g : α → Option β) (f : β → Option γ) (before : γ) (as : List α) :
    lastGiven f before (as.filterMap g) = lastGiven (fun a => (g a).bind f) before as := by
  unfold lastGiven
  rw [List.filterMap_filterMap]

namespace Link

namespace Command

/-- Where a command sends a link. -/
def wish? : Command → Option Bool
  | .up => some true
  | .down => some false
  | .update _ => none

def channel? : Command → Option Channel
  | .update channel => some channel
  | _ => none

end Command

namespace Engine

/-- A call to an engine, or what a link does by itself. -/
inductive Event (Env Work : Type)
  | update (env : Env) (channel : Channel)
  | start
  | stop
  | work (id : ChannelId) (w : Work)

namespace Event

variable {Env Work : Type}

/-- Whether the engine is started from now on. -/
def starts? : Event Env Work → Option Bool
  | .start => some true
  | .stop => some false
  | _ => none

/-- What a call says to the link of an id, if there is one. -/
def told? (id : ChannelId) : Event Env Work → Option Command
  | .update _ channel => if channel.id = id then some (.update channel) else none
  | .start => some .up
  | .stop => some .down
  | .work _ _ => none

/-- The channel that a call gives to the link of an id. -/
def given? (id : ChannelId) (ev : Event Env Work) : Option Channel := (ev.told? id).bind Command.channel?

/-- The call hands over a channel with this id. -/
def Names (id : ChannelId) (ev : Event Env Work) : Prop := ∃ env channel, ev = .update env channel ∧ channel.id = id

theorem wish?_told? (id : ChannelId) (ev : Event Env Work) : (ev.told? id).bind Command.wish? = ev.starts? := by
  cases ev with
  | update env channel =>
    show (if channel.id = id then some (Command.update channel) else none).bind Command.wish? = none
    split <;> rfl
  | _ => rfl

/-- The first event that names an id. -/
theorem exists_first {events : List (Event Env Work)} {id : ChannelId} (h : ∃ ev ∈ events, ev.Names id) :
    ∃ before env channel after, events = before ++ .update env channel :: after ∧ channel.id = id ∧
      ∀ ev ∈ before, ¬ev.Names id := by
  induction events with
  | nil => simp at h
  | cons ev rest ih =>
    by_cases hev : ev.Names id
    · obtain ⟨env, channel, rfl, hid⟩ := hev
      exact ⟨[], env, channel, rest, rfl, hid, by simp⟩
    · obtain ⟨ev', hmem, hnames⟩ := h
      have hrest : ∃ ev ∈ rest, ev.Names id := by
        rcases List.mem_cons.1 hmem with rfl | hmem
        · exact absurd hnames hev
        · exact ⟨ev', hmem, hnames⟩
      obtain ⟨before, env, channel, after, rfl, hid, hbefore⟩ := ih hrest
      refine ⟨ev :: before, env, channel, after, rfl, hid, fun x hx => ?_⟩
      rcases List.mem_cons.1 hx with rfl | hx
      · exact hev
      · exact hbefore x hx

end Event

/-- The links of an engine. -/
structure Fleet (α Env Work : Type) where
  create : Env → Channel → α
  work : Work → α → α
  /-- The id that a link bears. -/
  name : α → ChannelId
  /-- Commands can be posted to the link. -/
  Open : α → Prop
  /-- The commands that were posted to a link and that it has not taken, oldest first. -/
  pending : α → List Command
  /-- The command that a link takes with a piece of work. -/
  taken? : Work → α → Option Command
  /-- The link has this channel and this wish of the operator, and heads for where they send it. -/
  Obeys : α → Channel → Bool → Prop

namespace Fleet

variable {α Env Work : Type} {f : Fleet α Env Work} {a : α}

/-- What a link is after it was told some commands and took others: it is the same link, what it did not take is still to be
taken, and it obeys what it took. -/
structure Keeps (f : Fleet α Env Work) (a : α) (told taken : List Command) (a' : α) : Prop where
  name : f.name a' = f.name a
  isOpen : f.Open a'
  pending : taken ++ f.pending a' = f.pending a ++ told
  obeys : ∀ given wants, f.Obeys a given wants →
    f.Obeys a' (lastGiven Command.channel? given taken) (lastGiven Command.wish? wants taken)

theorem Keeps.trans {a a' a'' : α} {told told' taken taken' : List Command} (h : f.Keeps a told taken a')
    (h' : f.Keeps a' told' taken' a'') : f.Keeps a (told ++ told') (taken ++ taken') a'' where
  name := h'.name.trans h.name
  isOpen := h'.isOpen
  pending := by rw [List.append_assoc, h'.pending, ← List.append_assoc, h.pending, List.append_assoc]
  obeys := by
    intro given wants hobeys
    rw [lastGiven_append, lastGiven_append]
    exact h'.obeys _ _ (h.obeys given wants hobeys)

theorem keeps_refl (h : f.Open a) : f.Keeps a [] [] a := ⟨rfl, h, (List.append_nil _).symm, fun _ _ hobeys => hobeys⟩

/-! ### The engine -/

variable [Commanded α] (f)

def step (e : Engine α) : Event Env Work → Engine α
  | .update env channel => e.updateLink channel (f.create env channel)
  | .start => e.start
  | .stop => e.stop
  | .work id w => { e with links := e.links.modify id (f.work w) }

def run (events : List (Event Env Work)) : Engine α := events.foldl f.step .new

/-- What an event does to the link of an id. -/
def turn (id : ChannelId) (a : α) : Event Env Work → α
  | .work i w => if i = id then f.work w a else a
  | ev => (ev.told? id).elim a (Commanded.give · a)

/-- The command that the link of an id takes with an event. -/
def takes? (id : ChannelId) (a : α) : Event Env Work → Option Command
  | .work i w => if i = id then f.taken? w a else none
  | _ => none

/-- The link of an id after events. -/
def live (id : ChannelId) (a : α) (events : List (Event Env Work)) : α := events.foldl (f.turn id) a

/-- The commands that the link of an id takes with events, in order. -/
def taken (id : ChannelId) (a : α) : List (Event Env Work) → List Command
  | [] => []
  | ev :: rest => (f.takes? id a ev).toList ++ taken id (f.turn id a ev) rest

/-- A new link; it is told to come up at once if the engine is started. -/
def first (started : Bool) (env : Env) (channel : Channel) : α :=
  if started then Commanded.give .up (f.create env channel) else f.create env channel

variable {f} {e : Engine α} {id : ChannelId}

theorem started_step (e : Engine α) (ev : Event Env Work) : (f.step e ev).started = ev.starts?.getD e.started := by
  cases ev with
  | update env channel =>
    show (e.updateLink channel _).started = e.started
    unfold updateLink
    dsimp only
    split <;> rfl
  | _ => rfl

theorem get?_updateLink (e : Engine α) (channel : Channel) (create : α) (id : ChannelId) :
    (e.updateLink channel create).links.get? id =
      if id = channel.id then
        some (((e.links.get? id).map (Commanded.give (.update channel))).getD
          (if e.started then Commanded.give .up create else create))
      else e.links.get? id := by
  unfold updateLink
  dsimp only
  rw [Registry.created_update]
  by_cases hid : id = channel.id
  · subst hid
    rw [if_pos rfl]
    cases hget : e.links.get? channel.id with
    | some a =>
      rw [Option.isNone_some, Bool.false_and, if_neg Bool.false_ne_true, Registry.get?_update, if_pos rfl, hget]
      rfl
    | none =>
      rw [Option.isNone_none, Bool.true_and]
      split
      · rw [Registry.get?_modify, if_pos rfl, Registry.get?_update, if_pos rfl, hget]
        rfl
      · rw [Registry.get?_update, if_pos rfl, hget]
  · rw [if_neg hid]
    split
    · rw [Registry.get?_modify, if_neg hid, Registry.get?_update, if_neg hid]
    · rw [Registry.get?_update, if_neg hid]

theorem ids_updateLink (e : Engine α) (channel : Channel) (create : α) :
    (e.updateLink channel create).links.ids =
      (e.links.update channel.id (Commanded.give (.update channel)) create).2.ids := by
  unfold updateLink
  dsimp only
  split
  · exact Registry.ids_modify _ _ _
  · rfl

/-- What happens to an engine happens to a link or passes it by. -/
theorem get?_step_of_some (h : e.links.get? id = some a) (ev : Event Env Work) :
    (f.step e ev).links.get? id = some (f.turn id a ev) := by
  cases ev with
  | update env channel =>
    show (e.updateLink channel _).links.get? id = some ((Event.told? id (.update env channel : Event Env Work)).elim a _)
    rw [get?_updateLink, h, Event.told?]
    by_cases hid : id = channel.id
    · rw [if_pos hid, if_pos hid.symm]
      rfl
    · rw [if_neg hid, if_neg (Ne.symm hid)]
      rfl
  | start =>
    show (e.links.mapAll _).get? id = _
    rw [Registry.get?_mapAll, h]
    rfl
  | stop =>
    show (e.links.mapAll _).get? id = _
    rw [Registry.get?_mapAll, h]
    rfl
  | work i w =>
    show (e.links.modify i _).get? id = some (if i = id then f.work w a else a)
    rw [Registry.get?_modify, h]
    by_cases hid : id = i
    · rw [if_pos hid, if_pos hid.symm]
      rfl
    · rw [if_neg hid, if_neg (Ne.symm hid)]

/-- The first channel of an id is what its link is created with. -/
theorem get?_step_first {channel : Channel} (h : e.links.get? channel.id = none) (env : Env) :
    (f.step e (.update env channel)).links.get? channel.id = some (f.first e.started env channel) := by
  show (e.updateLink channel _).links.get? channel.id = _
  rw [get?_updateLink, if_pos rfl, h]
  rfl

theorem mem_ids_step (e : Engine α) (ev : Event Env Work) (id : ChannelId) :
    id ∈ (f.step e ev).links.ids ↔ id ∈ e.links.ids ∨ ev.Names id := by
  have hnot (hev : ¬ev.Names id) {ids : List ChannelId} (h : ids = e.links.ids) :
      id ∈ ids ↔ id ∈ e.links.ids ∨ ev.Names id := by
    rw [h]
    exact (or_iff_left hev).symm
  cases ev with
  | update env channel =>
    have hnames : (Event.update env channel : Event Env Work).Names id ↔ id = channel.id := by
      constructor
      · rintro ⟨env', channel', heq, hid⟩
        cases heq
        exact hid.symm
      · exact fun hid => ⟨env, channel, rfl, hid.symm⟩
    show id ∈ (e.updateLink channel _).links.ids ↔ _
    rw [hnames, or_comm, ids_updateLink]
    exact Registry.mem_ids_update e.links channel.id id _ _
  | start => exact hnot (by rintro ⟨_, _, h, -⟩; cases h) (Registry.ids_mapAll _ _)
  | stop => exact hnot (by rintro ⟨_, _, h, -⟩; cases h) (Registry.ids_mapAll _ _)
  | work i w => exact hnot (by rintro ⟨_, _, h, -⟩; cases h) (Registry.ids_modify _ _ _)

theorem sorted_step (h : e.links.Sorted) (ev : Event Env Work) : (f.step e ev).links.Sorted := by
  have hsame {links : Registry α} (hids : links.ids = e.links.ids) : links.Sorted := by
    unfold Registry.Sorted
    rw [hids]
    exact h
  cases ev with
  | update env channel =>
    show (e.updateLink channel _).links.ids.Pairwise _
    rw [ids_updateLink]
    exact h.update channel.id _ _
  | start => exact hsame (Registry.ids_mapAll _ _)
  | stop => exact hsame (Registry.ids_mapAll _ _)
  | work i w => exact hsame (Registry.ids_modify _ _ _)

/-! ### The links -/

/-- A link is created with nothing to do and on its channel, takes the commands that it was given in order, and follows each
of them. -/
structure Lawful (f : Fleet α Env Work) : Prop where
  created : ∀ env channel, f.name (f.create env channel) = channel.id ∧ f.Open (f.create env channel) ∧
    f.pending (f.create env channel) = [] ∧ f.Obeys (f.create env channel) channel false
  given : ∀ command a, f.Open a → f.name (Commanded.give command a) = f.name a ∧ f.Open (Commanded.give command a) ∧
    f.pending (Commanded.give command a) = f.pending a ++ [command] ∧
      ∀ given wants, f.Obeys a given wants → f.Obeys (Commanded.give command a) given wants
  worked : ∀ w a, f.Open a → f.name (f.work w a) = f.name a ∧ f.Open (f.work w a) ∧
    f.pending a = (f.taken? w a).toList ++ f.pending (f.work w a) ∧
      ∀ given wants, f.Obeys a given wants → f.Obeys (f.work w a) (((f.taken? w a).bind Command.channel?).getD given)
        (((f.taken? w a).bind Command.wish?).getD wants)

variable (hf : f.Lawful)

include hf in
theorem Lawful.give (h : f.Open a) (command : Command) : f.Keeps a [command] [] (Commanded.give command a) := by
  obtain ⟨hname, hopen, hpending, hobeys⟩ := hf.given command a h
  exact ⟨hname, hopen, hpending, hobeys⟩

include hf in
theorem Lawful.turn (h : f.Open a) (id : ChannelId) (ev : Event Env Work) :
    f.Keeps a (ev.told? id).toList (f.takes? id a ev).toList (f.turn id a ev) := by
  cases ev with
  | update env channel =>
    show f.Keeps a (Option.toList (if channel.id = id then _ else none)) []
      (Option.elim (if channel.id = id then _ else none) a _)
    split
    · exact hf.give h _
    · exact keeps_refl h
  | start => exact hf.give h .up
  | stop => exact hf.give h .down
  | work i w =>
    show f.Keeps a [] (Option.toList (if i = id then f.taken? w a else none)) (if i = id then f.work w a else a)
    split
    · obtain ⟨hname, hopen, hpending, hobeys⟩ := hf.worked w a h
      refine ⟨hname, hopen, ?_, fun given wants hgiven => ?_⟩
      · rw [List.append_nil]
        exact hpending.symm
      · have hlast {γ : Type} (g : Command → Option γ) (before : γ) :
            lastGiven g before (f.taken? w a).toList = ((f.taken? w a).bind g).getD before := by
          cases f.taken? w a with
          | none => rfl
          | some command => exact lastGiven_cons g before command []
        rw [hlast, hlast]
        exact hobeys given wants hgiven
    · exact keeps_refl h

include hf in
theorem Lawful.live (h : f.Open a) (id : ChannelId) (events : List (Event Env Work)) :
    f.Keeps a (events.filterMap (Event.told? id)) (f.taken id a events) (f.live id a events) := by
  induction events generalizing a with
  | nil => exact keeps_refl h
  | cons ev rest ih =>
    have hstep := hf.turn h id ev
    have hrest := hstep.trans (ih hstep.isOpen)
    have htold : (ev :: rest).filterMap (Event.told? id) = (ev.told? id).toList ++ rest.filterMap (Event.told? id) := by
      rw [List.filterMap_cons]
      cases ev.told? id <;> rfl
    rw [htold]
    exact hrest

include hf in
theorem Lawful.first (started : Bool) (env : Env) (channel : Channel) :
    f.Keeps (f.create env channel) (if started then [.up] else []) [] (f.first started env channel) := by
  obtain ⟨-, hopen, -, -⟩ := hf.created env channel
  unfold Fleet.first
  split
  · exact hf.give hopen .up
  · exact keeps_refl hopen

/-! ### Whole runs -/

theorem run_append (events more : List (Event Env Work)) :
    f.run (events ++ more) = more.foldl f.step (f.run events) := List.foldl_append

theorem started_run (events : List (Event Env Work)) : (f.run events).started = lastGiven Event.starts? false events := by
  induction events using List.reverseRecOn with
  | nil => rfl
  | append_singleton events ev ih =>
    rw [run_append, lastGiven_append, lastGiven_cons]
    show (f.step (f.run events) ev).started = (ev.starts?.getD _)
    rw [started_step, ih]

theorem mem_ids_run (events : List (Event Env Work)) (id : ChannelId) :
    id ∈ (f.run events).links.ids ↔ ∃ ev ∈ events, ev.Names id := by
  induction events using List.reverseRecOn with
  | nil => exact iff_of_false List.not_mem_nil (by simp)
  | append_singleton events ev ih =>
    rw [run_append]
    show id ∈ (f.step (f.run events) ev).links.ids ↔ _
    rw [mem_ids_step, ih]
    simp [or_and_right, exists_or]

theorem sorted_run (events : List (Event Env Work)) : (f.run events).links.Sorted := by
  induction events using List.reverseRecOn with
  | nil => exact Registry.sorted_empty
  | append_singleton events ev ih =>
    rw [run_append]
    exact sorted_step ih ev

/-- From its first event on a link has a life of its own. -/
theorem get?_live {e : Engine α} (h : e.links.get? id = some a) (events : List (Event Env Work)) :
    (events.foldl f.step e).links.get? id = some (f.live id a events) := by
  induction events generalizing e a with
  | nil => exact h
  | cons ev rest ih => exact ih (get?_step_of_some h ev)

theorem get?_run_first {before : List (Event Env Work)} {channel : Channel} (h : ∀ ev ∈ before, ¬ev.Names channel.id)
    (env : Env) : (f.run (before ++ [.update env channel])).links.get? channel.id =
      some (f.first (lastGiven Event.starts? false before) env channel) := by
  have hnone : (f.run before).links.get? channel.id = none := by
    rw [Registry.get?_eq_none_iff, mem_ids_run]
    rintro ⟨ev, hev, hnames⟩
    exact h ev hev hnames
  rw [run_append, ← started_run (f := f)]
  exact get?_step_first hnone env

/-- The link that is created with the first channel of an id, where it is after the events that follow. -/
structure Led (f : Fleet α Env Work) (before : List (Event Env Work)) (env : Env) (channel : Channel)
    (after : List (Event Env Work)) (a : α) : Prop where
  /-- It is the link of this id from the first moment on, and nothing but what is said to it and its own work changes it. -/
  life : a = f.live channel.id (f.first (lastGiven Event.starts? false before) env channel) after
  /-- Of the commands that the calls say to it, in order, it has taken the first ones, and is still to take the others. -/
  commands : f.taken channel.id (f.first (lastGiven Event.starts? false before) env channel) after ++ f.pending a =
    (if lastGiven Event.starts? false before then [.up] else []) ++ after.filterMap (Event.told? channel.id)
  /-- Once it has taken them all it follows the last channel of its id and the last call of start and stop. -/
  heading : f.pending a = [] → f.Obeys a (lastGiven (Event.given? channel.id) channel after)
    (lastGiven Event.starts? false (before ++ .update env channel :: after))

/-- What has become of the calls to an engine. -/
structure Reaches (f : Fleet α Env Work) (events : List (Event Env Work)) : Prop where
  /-- There is one link for each id that a channel was handed over for. -/
  ids : ∀ id, id ∈ (f.run events).links.ids ↔ ∃ env channel, .update env channel ∈ events ∧ channel.id = id
  ordered : (f.run events).links.ids.Pairwise fun a b => Bytes.ofText a < Bytes.ofText b
  /-- A visit of all links meets each of them once, in the order of the ids. -/
  all : (f.run events).links.all.map f.name = (f.run events).links.ids
  links : ∀ before env channel after, events = before ++ .update env channel :: after →
    (∀ env' channel', .update env' channel' ∈ before → channel'.id ≠ channel.id) →
      ∃ a, (f.run events).links.get? channel.id = some a ∧ f.Led before env channel after a

include hf in
theorem Lawful.led (before : List (Event Env Work)) (env : Env) (channel : Channel) (after : List (Event Env Work)) :
    f.Led before env channel after
      (f.live channel.id (f.first (lastGiven Event.starts? false before) env channel) after) := by
  obtain ⟨-, hopen, hpending, hobeys⟩ := hf.created env channel
  have hfirst := hf.first (lastGiven Event.starts? false before) env channel
  have hlife := hfirst.trans (hf.live hfirst.isOpen channel.id after)
  rw [List.nil_append] at hlife
  have hcommands := hlife.pending
  rw [hpending, List.nil_append] at hcommands
  refine ⟨rfl, hcommands, fun hdone => ?_⟩
  have hheading := hlife.obeys channel false hobeys
  rw [hdone, List.append_nil] at hcommands
  have hchannel : lastGiven Command.channel? channel
      (if lastGiven Event.starts? false before then [.up] else []) = channel := by
    split <;> rfl
  have hwants : lastGiven Command.wish? false (if lastGiven Event.starts? false before then [.up] else []) =
      lastGiven Event.starts? false before := by
    split
    · next hstarted => exact hstarted.symm
    · next hstopped => exact (Bool.not_eq_true _ ▸ hstopped).symm
  rw [hcommands, lastGiven_append, hchannel, lastGiven_filterMap, lastGiven_append, hwants, lastGiven_filterMap] at hheading
  rw [lastGiven_append, lastGiven_cons]
  simp only [Event.wish?_told?] at hheading
  exact hheading

include hf in
theorem Lawful.reaches (events : List (Event Env Work)) : f.Reaches events := by
  have hlinks : ∀ before env channel after, events = before ++ .update env channel :: after →
      (∀ ev ∈ before, ¬ev.Names channel.id) → (f.run events).links.get? channel.id =
        some (f.live channel.id (f.first (lastGiven Event.starts? false before) env channel) after) := by
    rintro before env channel after rfl hbefore
    rw [List.append_cons, run_append]
    exact get?_live (get?_run_first hbefore env) after
  refine ⟨fun id => ?_, ?_, ?_, ?_⟩
  · rw [mem_ids_run]
    constructor
    · rintro ⟨_, hev, env, channel, rfl, hid⟩
      exact ⟨env, channel, hev, hid⟩
    · rintro ⟨env, channel, hev, hid⟩
      exact ⟨_, hev, env, channel, rfl, hid⟩
  · exact (sorted_run events).imp fun h => (Registry.precedes_iff _ _).1 h
  · -- each link bears the id under which it is kept
    have hname : ∀ id ∈ (f.run events).links.ids, ((f.run events).links.get? id).map f.name = some id := by
      intro id hid
      obtain ⟨before, env, channel, after, hsplit, rfl, hbefore⟩ := Event.exists_first ((mem_ids_run events id).1 hid)
      rw [hlinks before env channel after hsplit hbefore, Option.map_some]
      have hfirst := hf.first (lastGiven Event.starts? false before) env channel
      rw [(hf.live hfirst.isOpen channel.id after).name, hfirst.name, (hf.created env channel).1]
    rw [(sorted_run events).all_eq, List.map_filterMap]
    exact (List.filterMap_congr hname).trans List.filterMap_some
  · intro before env channel after hsplit hbefore
    refine ⟨_, hlinks before env channel after hsplit ?_, hf.led before env channel after⟩
    rintro _ hev ⟨env', channel', rfl, hid⟩
    exact hbefore env' channel' hev hid

end Fleet

end Engine

end Link

end ReliableMulticast
