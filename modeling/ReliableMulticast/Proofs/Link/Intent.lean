import ReliableMulticast.Channel.Basic
import ReliableMulticast.Proofs.Link.Machine

/-!
# What a link is meant to be

* `State.wish` reads off a state where its link is heading: up, down, or nowhere if it is at rest;
* `Channel.wish` says where it should be heading: where the operator wants it, unless its channel can not be followed.

Operators turn a link with `up` and `down` (`wish_up`, `wish_down`), and a channel that can not be followed puts it to rest
(`wish_failed`, `wish_disable`). What a machine is told about its connections changes its heading in no case
(`wish_of_report`).
-/

namespace ReliableMulticast

namespace Link

def State.wish : State → Option Bool
  | .disabled => none
  | .failed => none
  | .down => some false
  | .disconnecting => some false
  | .disconnectPending => some false
  | .connecting => some true
  | .up => some true
  | .reconnectPending => some true
  | .reconnecting => some true
  | .connectPending => some true

theorem State.wish_eq_none_iff (s : State) : s.wish = none ↔ s = .disabled ∨ s = .failed := by
  cases s <;> simp [wish]

/-- An input that tells what became of a connection. -/
def Input.IsReport : Input → Prop
  | .connected => True
  | .disconnected => True
  | .reconnect _ => True
  | .reconnectDue => True
  | _ => False

namespace Machine

theorem wish_of_report (m : Machine) {input : Input} (h : input.IsReport) : (m.step input).1.state.wish = m.state.wish := by
  obtain ⟨state, reconnects, immediate, begun⟩ := m
  cases input with
  | connected => cases state <;> cases begun <;> rfl
  | disconnected => cases state <;> rfl
  | reconnect immediate => cases state <;> cases begun <;> rfl
  | reconnectDue => cases state <;> rfl
  | up => exact h.elim
  | down => exact h.elim
  | failed => exact h.elim
  | enable enabled => exact h.elim

theorem wish_up (m : Machine) : (m.step .up).1.state.wish = m.state.wish.map fun _ => true := by
  obtain ⟨state, reconnects, immediate, begun⟩ := m
  cases state <;> cases begun <;> rfl

theorem wish_down (m : Machine) : (m.step .down).1.state.wish = m.state.wish.map fun _ => false := by
  obtain ⟨state, reconnects, immediate, begun⟩ := m
  cases state <;> rfl

theorem wish_failed (m : Machine) : (m.step .failed).1.state.wish = none :=
  (State.wish_eq_none_iff _).2 (rest_of_failed m)

theorem wish_disable (m : Machine) : (m.step (.enable false)).1.state.wish = none := by
  obtain ⟨state, reconnects, immediate, begun⟩ := m
  cases state <;> rfl

/-- A link at rest is down once it is enabled. -/
theorem wish_enable {m : Machine} (h : m.state.wish = none) : (m.step (.enable true)).1.state.wish = some false := by
  obtain ⟨state, reconnects, immediate, begun⟩ := m
  rcases (state.wish_eq_none_iff).1 h with rfl | rfl <;> rfl

theorem wish_enable_up {m : Machine} (h : m.state.wish = none) :
    ((m.step (.enable true)).1.step .up).1.state.wish = some true := by
  rw [wish_up, wish_enable h]
  rfl

end Machine

end Link

/-! ### The last word -/

/-- The last value that something in a list gives, or else the one that was there before. -/
def lastGiven {α β : Type} (f : α → Option β) (before : β) (as : List α) : β := (as.filterMap f).getLastD before

theorem lastGiven_cons {α β : Type} (f : α → Option β) (before : β) (a : α) (rest : List α) :
    lastGiven f before (a :: rest) = lastGiven f ((f a).getD before) rest := by
  unfold lastGiven
  cases h : f a with
  | none =>
    rw [List.filterMap_cons_none h]
    rfl
  | some b =>
    rw [List.filterMap_cons_some h, List.getLastD_cons]
    rfl

namespace Channel

/-- Whether links can be brought up for this channel. -/
def Open (c : Channel) : Prop := c.enabled = true ∧ c.Valid

instance (c : Channel) : Decidable c.Open := inferInstanceAs (Decidable (_ ∧ _))

def wish (c : Channel) (wantsUp : Bool) : Option Bool := if c.Open then some wantsUp else none

theorem wish_of_open {c : Channel} (h : c.Open) (wantsUp : Bool) : c.wish wantsUp = some wantsUp := if_pos h

theorem wish_of_not_open {c : Channel} (h : ¬c.Open) (wantsUp : Bool) : c.wish wantsUp = none := if_neg h

/-- Links are sent to the same place for all channels that are open. -/
theorem wish_eq_of_ne_none {c c' : Channel} {wantsUp : Bool} (h : c.wish wantsUp ≠ none) (h' : c'.Open) :
    c.wish wantsUp = c'.wish wantsUp := by
  have hopen : c.Open := by
    by_cases hopen : c.Open
    · exact hopen
    · exact absurd (wish_of_not_open hopen wantsUp) h
  rw [wish_of_open hopen, wish_of_open h']

theorem wish_of_fault {c : Channel} {fault : ChannelFault} (h : c.fault? = some fault) (wantsUp : Bool) :
    c.wish wantsUp = none :=
  wish_of_not_open (fun hopen => by simp [show c.fault? = none from hopen.2] at h) wantsUp

theorem wish_of_disabled {c : Channel} (h : c.enabled = false) (wantsUp : Bool) : c.wish wantsUp = none :=
  wish_of_not_open (fun hopen => by simp [hopen.1] at h) wantsUp

theorem map_wish (c : Channel) (wantsUp wantsUp' : Bool) :
    ((c.wish wantsUp).map fun _ => wantsUp') = c.wish wantsUp' := by
  by_cases h : c.Open
  · simp [wish_of_open h]
  · simp [wish_of_not_open h]

theorem wish_eq_none_iff (c : Channel) (wantsUp : Bool) : c.wish wantsUp = none ↔ c.enabled = false ∨ c.fault? ≠ none := by
  by_cases h : c.Open
  · simp [wish_of_open h, h.1, show c.fault? = none from h.2]
  · rw [wish_of_not_open h]
    have hclosed : c.enabled = false ∨ c.fault? ≠ none := by
      cases henabled : c.enabled with
      | false => exact Or.inl rfl
      | true => exact Or.inr (fun hvalid => h ⟨henabled, hvalid⟩)
    exact iff_of_true rfl hclosed

end Channel

end ReliableMulticast
