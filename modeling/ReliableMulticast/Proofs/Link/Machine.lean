import ReliableMulticast.Link.Machine

/-!
# What the two kinds of links share

* A machine is at rest in the states `disabled` and `failed`. Nothing but a new configuration takes it out of there
  (`rest_of_step`), and a fault of the configuration puts it there (`rest_of_failed`);
* every step of a machine is one of its transitions (`transition`);
* all that a link does in a task is a `Chain` of moves, each with its effects.
-/

namespace ReliableMulticast.Link

/-! ### Rest -/

/-- An input that does not report the outcome of an action. -/
def Input.IsCommand : Input → Prop
  | .connected => False
  | .disconnected => False
  | _ => True

namespace Machine

def AtRest (m : Machine) : Prop := m.state = .disabled ∨ m.state = .failed

theorem rest_of_step {m : Machine} {input : Input} (hi : input ≠ .enable true) (h : m.AtRest) :
    (m.step input).1.AtRest := by
  obtain ⟨state, reconnects, immediate, begun⟩ := m
  rcases h with h | h <;> dsimp only at h <;> subst h <;> rcases input with _ | _ | _ | _ | _ | _ | _ | (_ | _) <;>
    simp_all [AtRest, step, onUp, onDown, onConnected, onDisconnected, onReconnect, onReconnectDue, onFailed, onEnable,
      retire, goTo, stay]

theorem rest_of_failed (m : Machine) : (m.step .failed).1.AtRest := by
  cases hstate : m.state <;> simp [AtRest, step, onFailed, retire, goTo, stay, hstate]

/-- Enabling asks for nothing. -/
theorem step_enable_true (m : Machine) : (m.step (.enable true)).2 = .none := by
  cases hstate : m.state <;> simp [step, onEnable, goTo, stay, hstate]

/-! ### Transitions -/

/-- The transitions of a machine, each with the states it is made from, where it leads and what it asks for. -/
inductive Transition (m : Machine) : Input → Machine → Action → Prop
  | stay {input : Input} : Transition m input m .none
  | connect {input : Input} (hinput : input = .up ∨ input = .reconnectDue ∨ input = .disconnected)
      (hstate : m.state = .down ∨ m.state = .reconnectPending ∨ m.state = .connectPending) :
    Transition m input { m with state := .connecting } .connect
  | resume (hstate : m.state = .disconnectPending) (hbegun : m.begun = false) :
    Transition m .up { m with state := .connecting } .none
  | await (hstate : m.state = .disconnecting ∨ m.state = .disconnectPending ∧ m.begun = true) :
    Transition m .up { m with state := .connectPending } .none
  | giveUp (hstate : m.state = .connecting) : Transition m .down { m with state := .disconnectPending, begun := false } .none
  | relent (hstate : m.state = .reconnecting) : Transition m .down { m with state := .disconnectPending, begun := true } .none
  | revoke (hstate : m.state = .connectPending) : Transition m .down { m with state := .disconnecting } .none
  | hangUp {input : Input} (hinput : input = .down ∧ m.state = .up ∨
      input = .connected ∧ m.state = .disconnectPending ∧ m.begun = false) :
    Transition m input { m with state := .disconnecting } .disconnect
  | cancel (hstate : m.state = .reconnectPending) : Transition m .down { m with state := .down } .cancelReconnect
  | connected (hstate : m.state = .connecting) : Transition m .connected { m with state := .up, reconnects := 0 } .none
  | released (hstate : m.state = .disconnecting ∨ m.state = .disconnectPending) :
    Transition m .disconnected { m with state := .down } .none
  | schedule (hstate : m.state = .reconnecting) :
    Transition m .disconnected { m with state := .reconnectPending } (.scheduleReconnect m.immediate)
  | fail {immediate : Bool} (hstate : m.state = .connecting ∨ m.state = .up) :
    Transition m (.reconnect immediate) { m with state := .reconnecting, reconnects := m.reconnects + 1, immediate := immediate }
      .disconnect
  | begin {immediate : Bool} (hstate : m.state = .disconnectPending) (hbegun : m.begun = false) :
    Transition m (.reconnect immediate) { m with begun := true } .disconnect
  | retire {input : Input} {rest : State} {action : Action}
      (hrest : input = .failed ∧ rest = .failed ∨ input = .enable false ∧ rest = .disabled)
      (haction : action ≠ .connect) :
    Transition m input { m with state := rest } action
  | enable (hstate : m.AtRest) : Transition m (.enable true) { m with state := .down, reconnects := 0 } .none

theorem transition (m : Machine) (input : Input) : m.Transition input (m.step input).1 (m.step input).2 := by
  obtain ⟨state, reconnects, immediate, begun⟩ := m
  cases input with
  | up =>
    cases state with
    | down => exact .connect (Or.inl rfl) (Or.inl rfl)
    | reconnectPending => exact .connect (Or.inl rfl) (Or.inr (Or.inl rfl))
    | disconnecting => exact .await (Or.inl rfl)
    | disconnectPending =>
      cases begun with
      | false => exact .resume rfl rfl
      | true => exact .await (Or.inr ⟨rfl, rfl⟩)
    | _ => exact .stay
  | down =>
    cases state with
    | connecting => exact .giveUp rfl
    | reconnecting => exact .relent rfl
    | up => exact .hangUp (Or.inl ⟨rfl, rfl⟩)
    | connectPending => exact .revoke rfl
    | reconnectPending => exact .cancel rfl
    | _ => exact .stay
  | connected =>
    cases state with
    | connecting => exact .connected rfl
    | disconnectPending =>
      cases begun with
      | false => exact .hangUp (Or.inr ⟨rfl, rfl, rfl⟩)
      | true => exact .stay
    | _ => exact .stay
  | disconnected =>
    cases state with
    | disconnecting => exact .released (Or.inl rfl)
    | disconnectPending => exact .released (Or.inr rfl)
    | connectPending => exact .connect (Or.inr (Or.inr rfl)) (Or.inr (Or.inr rfl))
    | reconnecting => exact .schedule rfl
    | _ => exact .stay
  | reconnect immediate =>
    cases state with
    | connecting => exact .fail (Or.inl rfl)
    | up => exact .fail (Or.inr rfl)
    | disconnectPending =>
      cases begun with
      | false => exact .begin rfl rfl
      | true => exact .stay
    | _ => exact .stay
  | reconnectDue =>
    cases state with
    | reconnectPending => exact .connect (Or.inr (Or.inl rfl)) (Or.inr (Or.inl rfl))
    | _ => exact .stay
  | failed =>
    cases state with
    | failed => exact .stay
    | disabled => exact .stay
    | _ => exact .retire (Or.inl ⟨rfl, rfl⟩) nofun
  | enable enabled =>
    cases enabled with
    | true =>
      cases state with
      | disabled => exact .enable (Or.inl rfl)
      | failed => exact .enable (Or.inr rfl)
      | _ => exact .stay
    | false =>
      cases state with
      | disabled => exact .stay
      | _ => exact .retire (Or.inr ⟨rfl, rfl⟩) nofun

end Machine

/-! ### Chains of moves -/

/-- Moves one after the other, with all their effects. -/
inductive Chain {L E : Type} (move : L → List E → L → Prop) : L → List E → L → Prop
  | refl (l : L) : Chain move l [] l
  | step {l l' l'' : L} {effects effects' : List E} :
    move l effects l' → Chain move l' effects' l'' → Chain move l (effects ++ effects') l''

namespace Chain

variable {L E : Type} {move : L → List E → L → Prop} {l l' l'' : L} {effects effects' : List E}

theorem single (h : move l effects l') : Chain move l effects l' := by
  simpa using Chain.step h (.refl l')

theorem trans (h : Chain move l effects l') (h' : Chain move l' effects' l'') :
    Chain move l (effects ++ effects') l'' := by
  induction h with
  | refl l => exact h'
  | step first rest ih => simpa [List.append_assoc] using Chain.step first (ih h')

end Chain

end ReliableMulticast.Link
