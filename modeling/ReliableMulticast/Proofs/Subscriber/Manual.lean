import ReliableMulticast.Proofs.Frame.Codec
import ReliableMulticast.Subscriber.Intake

/-!
# The slot for requests that an operator makes

Callers come and go at any time: a request takes the slot (`install`), its caller looks for its frame (`poll`), stops
waiting (`giveUp`), which leaves the slot as it is, and withdraws; frames are offered, and a disconnect frees the slot. A run
is any list of such `Act`s, by callers in any order.

Along every run the slot and the replies fit together (`Sound`): the callers that wait are the holder of the slot, if it has
not given up. Hence an offered frame is taken by the holder if it is in range, and the holder gets it exactly if it still
waits.

Main statement (`offer_iff_hands_iff`): an offer says that the frame was taken exactly where a caller is handed it, unless
the slot still holds the request of a caller that has given up, with the frame in its range. Such a frame is taken and
reaches nobody (`abandoned_takes_frame`), and it does not go to the link either.
-/

namespace ReliableMulticast.ManualResend

inductive Act
  | install (gap : Gap)
  | offer (f : Frame)
  | withdraw (ticket : Nat)
  | clear
  | giveUp (ticket : Nat)
  | poll (ticket : Nat)
deriving DecidableEq, Repr, Inhabited

/-- What an act leaves behind. A request that finds the slot taken changes nothing. -/
def act (m : ManualResend) : Act → ManualResend
  | .install gap =>
    match m.install gap with
    | .error _ => m
    | .ok (_, m) => m
  | .offer f => (m.offer f).2
  | .withdraw ticket => m.withdraw ticket
  | .clear => m.clear
  | .giveUp ticket => m.giveUp ticket
  | .poll ticket => (m.poll ticket).2

def run (acts : List Act) : ManualResend := acts.foldl act new

/-- A caller that waits for a frame gets this one when it is offered. -/
def Hands (m : ManualResend) (f : Frame) : Prop :=
  ∃ ticket, m.reply ticket = .waiting ∧ (m.offer f).2.reply ticket = .received f

/-- The slot holds a request for this frame whose caller does not wait any longer. -/
def Abandoned (m : ManualResend) (f : Frame) : Prop :=
  ∃ ticket gap, m.slot = some (ticket, gap) ∧ gap.contains f.seq = true ∧ m.reply ticket = .givenUp

variable {m : ManualResend}

/-! ### Replies -/

theorem reply_eq_closed {ticket : Nat} (h : m.replies.length ≤ ticket) : m.reply ticket = .closed := by
  unfold reply
  rw [List.getD_eq_getElem?_getD, List.getElem?_eq_none h]
  rfl

theorem lt_length_of_reply {ticket : Nat} (h : m.reply ticket ≠ .closed) : ticket < m.replies.length :=
  Nat.lt_of_not_le fun hge => h (reply_eq_closed hge)

/-- A reply is set for a ticket that was given out, and the others stay. -/
theorem reply_setReply (m : ManualResend) (ticket other : Nat) (r : Reply) :
    (m.setReply ticket r).reply other =
      if ticket = other ∧ ticket < m.replies.length then r else m.reply other := by
  unfold setReply reply
  rw [List.getD_eq_getElem?_getD, List.getD_eq_getElem?_getD, List.getElem?_set]
  by_cases hticket : ticket = other
  · subst hticket
    by_cases hlt : ticket < m.replies.length
    · simp [hlt]
    · simp [hlt]
  · simp [hticket]

theorem reply_setReply_of_ne {ticket other : Nat} (h : ticket ≠ other) (r : Reply) :
    (m.setReply ticket r).reply other = m.reply other := by
  rw [reply_setReply, if_neg fun hboth => h hboth.1]

theorem reply_add (m : ManualResend) (gap : Gap) (ticket : Nat) :
    (m.add gap).2.reply ticket = if ticket = m.replies.length then .waiting else m.reply ticket := by
  unfold add reply
  dsimp only
  rw [List.getD_eq_getElem?_getD, List.getD_eq_getElem?_getD]
  rcases Nat.lt_trichotomy ticket m.replies.length with hlt | rfl | hgt
  · rw [List.getElem?_append_left hlt, if_neg (Nat.ne_of_lt hlt)]
  · simp
  · rw [List.getElem?_eq_none (by rw [List.length_append, List.length_singleton]; omega),
      List.getElem?_eq_none (Nat.le_of_lt hgt), if_neg (by omega)]

theorem poll_fst (m : ManualResend) (ticket : Nat) : (m.poll ticket).1 = m.reply ticket := by
  unfold poll
  cases m.reply ticket <;> rfl

/-! ### The holder of the slot -/

/-- The holder of the slot waits or has given up, and nobody else waits. -/
structure Sound (m : ManualResend) : Prop where
  holder : ∀ ticket gap, m.slot = some (ticket, gap) → m.reply ticket = .waiting ∨ m.reply ticket = .givenUp
  waiting : ∀ ticket, m.reply ticket = .waiting → ∃ gap, m.slot = some (ticket, gap)

theorem sound_new : new.Sound := by
  refine ⟨fun ticket gap hslot => ?_, fun ticket hwaiting => ?_⟩
  · cases hslot
  · have hclosed : new.reply ticket = .closed := reply_eq_closed (Nat.zero_le ticket)
    rw [hclosed] at hwaiting
    cases hwaiting

/-- The slot may be taken where no caller waits. -/
theorem Sound.add (h : m.Sound) (hfree : m.outstanding? = none) (gap : Gap) : (m.add gap).2.Sound := by
  have hnobody : ∀ ticket, m.reply ticket ≠ .waiting := by
    intro ticket hwaiting
    obtain ⟨gap', hslot⟩ := h.waiting ticket hwaiting
    simp [outstanding?, hslot, hwaiting] at hfree
  refine ⟨fun ticket gap' hslot => ?_, fun ticket hwaiting => ?_⟩
  · obtain ⟨rfl, rfl⟩ : m.replies.length = ticket ∧ gap = gap' := by simpa [ManualResend.add] using hslot
    left
    rw [reply_add, if_pos rfl]
  · rw [reply_add] at hwaiting
    split at hwaiting
    · next hticket => exact ⟨gap, by rw [hticket]; rfl⟩
    · exact absurd hwaiting (hnobody ticket)

theorem Sound.install (h : m.Sound) (gap : Gap) : (m.act (.install gap)).Sound := by
  unfold act ManualResend.install
  cases hfree : m.outstanding? with
  | none => exact h.add hfree gap
  | some other => exact h

/-- The reply of a caller that does not wait changes, and does not come to waiting. -/
theorem Sound.setReply (h : m.Sound) {ticket : Nat} {r : Reply} (hr : r ≠ .waiting)
    (hholder : ∀ gap, m.slot = some (ticket, gap) → r = .givenUp) : (m.setReply ticket r).Sound := by
  refine ⟨fun holder gap hslot => ?_, fun other hwaiting => ?_⟩
  · have hslot : m.slot = some (holder, gap) := hslot
    rw [reply_setReply]
    split
    · next hboth =>
      obtain ⟨rfl, -⟩ := hboth
      exact Or.inr (hholder gap hslot)
    · exact h.holder holder gap hslot
  · rw [reply_setReply] at hwaiting
    split at hwaiting
    · exact absurd hwaiting hr
    · exact h.waiting other hwaiting

/-- The slot becomes free, and its holder waits no longer. -/
theorem Sound.emptied (h : m.Sound) {ticket : Nat} {gap : Gap} (hslot : m.slot = some (ticket, gap)) {m' : ManualResend}
    (hfree : m'.slot = none) (hholder : m'.reply ticket ≠ .waiting)
    (hothers : ∀ other, ticket ≠ other → m'.reply other = m.reply other) : m'.Sound := by
  refine ⟨fun holder gap' hslot' => ?_, fun other hwaiting => ?_⟩
  · rw [hfree] at hslot'
    cases hslot'
  · by_cases hother : ticket = other
    · rw [← hother] at hwaiting
      exact absurd hwaiting hholder
    · rw [hothers other hother] at hwaiting
      obtain ⟨gap', hslot'⟩ := h.waiting other hwaiting
      rw [hslot] at hslot'
      cases hslot'
      exact absurd rfl hother

theorem Sound.clear (h : m.Sound) : m.clear.Sound := by
  cases hslot : m.slot with
  | none => simpa [ManualResend.clear, hslot] using h
  | some holder =>
    obtain ⟨ticket, gap⟩ := holder
    have hclear : m.clear = { m.release ticket with slot := none } := by simp [ManualResend.clear, hslot]
    refine h.emptied hslot (by rw [hclear]) ?_ ?_
    · rw [hclear]
      show (m.release ticket).reply ticket ≠ .waiting
      unfold release
      split
      · next hwaiting =>
        have hlt : ticket < m.replies.length := lt_length_of_reply (by rw [hwaiting]; decide)
        rw [reply_setReply, if_pos ⟨rfl, hlt⟩]
        decide
      · next hnot => exact hnot
    · intro other hother
      rw [hclear]
      show (m.release ticket).reply other = _
      unfold release
      split
      · exact reply_setReply_of_ne hother _
      · rfl

/-- An offer out of range changes nothing; else the holder of the slot loses it, and gets the frame if it waits. -/
theorem offer_cases (m : ManualResend) (f : Frame) :
    (m.offer f = (false, m) ∧ ∀ ticket gap, m.slot = some (ticket, gap) → gap.contains f.seq = false) ∨
      ∃ ticket gap, m.slot = some (ticket, gap) ∧ gap.contains f.seq = true ∧
        m.offer f = (true, if m.reply ticket = .waiting then { m.setReply ticket (.received f) with slot := none }
          else { m with slot := none }) := by
  cases hslot : m.slot with
  | none => exact Or.inl ⟨by simp [offer, hslot], by simp⟩
  | some holder =>
    obtain ⟨ticket, gap⟩ := holder
    cases hrange : gap.contains f.seq with
    | false =>
      refine Or.inl ⟨by simp [offer, hslot, hrange], fun ticket' gap' h => ?_⟩
      cases h
      exact hrange
    | true => exact Or.inr ⟨ticket, gap, rfl, hrange, by simp [offer, hslot, hrange]; rfl⟩

theorem Sound.offer (h : m.Sound) (f : Frame) : (m.offer f).2.Sound := by
  rcases m.offer_cases f with ⟨hsame, -⟩ | ⟨ticket, gap, hslot, -, htaken⟩
  · rw [hsame]
    exact h
  · rw [htaken]
    dsimp only
    split
    · next hwaiting =>
      have hlt : ticket < m.replies.length := lt_length_of_reply (by rw [hwaiting]; decide)
      refine h.emptied hslot rfl ?_ fun other hother => reply_setReply_of_ne hother _
      show (m.setReply ticket (.received f)).reply ticket ≠ .waiting
      rw [reply_setReply, if_pos ⟨rfl, hlt⟩]
      simp
    · next hnot => exact h.emptied hslot rfl hnot fun other _ => rfl

theorem Sound.withdraw (h : m.Sound) (ticket : Nat) : (m.withdraw ticket).Sound := by
  unfold ManualResend.withdraw
  split
  · split
    · exact h.clear
    · exact h
  · exact h

theorem Sound.giveUp (h : m.Sound) (ticket : Nat) : (m.giveUp ticket).Sound :=
  h.setReply (by decide) fun _ _ => rfl

theorem Sound.poll (h : m.Sound) (ticket : Nat) : (m.poll ticket).2.Sound := by
  unfold ManualResend.poll
  split
  · next f hreply =>
    refine h.setReply (by decide) fun gap hslot => ?_
    rcases h.holder ticket gap hslot with hwaiting | hgone
    · rw [hreply] at hwaiting
      cases hwaiting
    · rw [hreply] at hgone
      cases hgone
  · exact h

theorem Sound.act (h : m.Sound) (a : Act) : (m.act a).Sound := by
  cases a with
  | install gap => exact h.install gap
  | offer f => exact h.offer f
  | withdraw ticket => exact h.withdraw ticket
  | clear => exact h.clear
  | giveUp ticket => exact h.giveUp ticket
  | poll ticket => exact h.poll ticket

theorem Sound.acts (h : m.Sound) (acts : List Act) : (acts.foldl ManualResend.act m).Sound := by
  induction acts generalizing m with
  | nil => exact h
  | cons a rest ih => exact ih (h.act a)

theorem sound_run (acts : List Act) : (run acts).Sound := sound_new.acts acts

/-! ### One act -/

/-- What an act does to the replies, once requests are left aside that take the slot. -/
inductive Replies (m : ManualResend) (a : Act) (m' : ManualResend) : Prop
  | same (replies : m'.replies = m.replies)
  | ends (ticket : Nat) (r : Reply) (ended : r = .closed ∨ r = .givenUp) (replies : m'.replies = m.replies.set ticket r)
  | received (ticket : Nat) (gap : Gap) (f : Frame) (offered : a = .offer f) (holder : m.slot = some (ticket, gap))
      (inRange : gap.contains f.seq = true) (replies : m'.replies = m.replies.set ticket (.received f))

/-- All that an act can do: whoever loses the slot does not get it back, and only an offer brings a frame. -/
theorem act_cases (m : ManualResend) (a : Act) :
    (∃ gap, a = .install gap ∧ m.outstanding? = none ∧ m.act a = (m.add gap).2) ∨
      (((m.act a).slot = m.slot ∨ (m.act a).slot = none) ∧ Replies m a (m.act a)) := by
  have hclear : m.clear.slot = none ∧ Replies m a m.clear := by
    unfold clear release
    split
    · next ticket gap hslot =>
      split
      · exact ⟨rfl, .ends ticket .closed (Or.inl rfl) rfl⟩
      · exact ⟨rfl, .same rfl⟩
    · next hslot => exact ⟨hslot, .same rfl⟩
  cases a with
  | install gap =>
    unfold act install
    cases hfree : m.outstanding? with
    | none => exact Or.inl ⟨gap, rfl, rfl, rfl⟩
    | some other => exact Or.inr ⟨Or.inl rfl, .same rfl⟩
  | offer f =>
    right
    show ((m.offer f).2.slot = _ ∨ (m.offer f).2.slot = _) ∧ Replies m _ (m.offer f).2
    rcases m.offer_cases f with ⟨hsame, -⟩ | ⟨ticket, gap, hslot, hrange, htaken⟩
    · rw [hsame]
      exact ⟨Or.inl rfl, .same rfl⟩
    · rw [htaken]
      dsimp only
      split
      · exact ⟨Or.inr rfl, .received ticket gap f rfl hslot hrange rfl⟩
      · exact ⟨Or.inr rfl, .same rfl⟩
  | withdraw ticket =>
    right
    show ((m.withdraw ticket).slot = _ ∨ (m.withdraw ticket).slot = _) ∧ Replies m _ (m.withdraw ticket)
    unfold withdraw
    split
    · split
      · exact ⟨Or.inr hclear.1, hclear.2⟩
      · exact ⟨Or.inl rfl, .same rfl⟩
    · exact ⟨Or.inl rfl, .same rfl⟩
  | clear => exact Or.inr ⟨Or.inr hclear.1, hclear.2⟩
  | giveUp ticket => exact Or.inr ⟨Or.inl rfl, .ends ticket .givenUp (Or.inr rfl) rfl⟩
  | poll ticket =>
    right
    show ((m.poll ticket).2.slot = _ ∨ (m.poll ticket).2.slot = _) ∧ Replies m _ (m.poll ticket).2
    unfold poll
    split
    · exact ⟨Or.inl rfl, .ends ticket .closed (Or.inl rfl) rfl⟩
    · exact ⟨Or.inl rfl, .same rfl⟩

theorem length_le_act (m : ManualResend) (a : Act) : m.replies.length ≤ (m.act a).replies.length := by
  rcases m.act_cases a with ⟨gap, -, -, hadd⟩ | ⟨-, hreplies⟩
  · rw [hadd]
    simp [add]
  · apply Nat.le_of_eq
    cases hreplies with
    | same replies => rw [replies]
    | ends ticket r _ replies => rw [replies, List.length_set]
    | received ticket gap f _ _ _ replies => rw [replies, List.length_set]

/-- Only an offer to the holder of the slot makes a frame the reply of a caller. -/
theorem reply_act_received {a : Act} {ticket : Nat} {f : Frame} (h : (m.act a).reply ticket = .received f) :
    m.reply ticket = .received f ∨
      (a = .offer f ∧ ∃ gap, m.slot = some (ticket, gap) ∧ gap.contains f.seq = true) := by
  have hset : ∀ {other : Nat} {r : Reply}, (m.act a).replies = m.replies.set other r →
      m.reply ticket = .received f ∨ (other = ticket ∧ r = .received f) := by
    intro other r hreplies
    have hreply : (m.act a).reply ticket = (m.setReply other r).reply ticket := by
      unfold reply setReply
      rw [hreplies]
    rw [hreply, reply_setReply] at h
    split at h
    · next hboth => exact Or.inr ⟨hboth.1, h⟩
    · exact Or.inl h
  rcases m.act_cases a with ⟨gap, -, -, hadd⟩ | ⟨-, hreplies⟩
  · rw [hadd, reply_add] at h
    split at h
    · cases h
    · exact Or.inl h
  · cases hreplies with
    | same replies =>
      left
      unfold reply at h ⊢
      rwa [replies] at h
    | ends other r ended replies =>
      rcases hset replies with hold | ⟨-, rfl⟩
      · exact Or.inl hold
      · rcases ended with hended | hended <;> cases hended
    | received other gap g offered holder inRange replies =>
      rcases hset replies with hold | ⟨rfl, hnew⟩
      · exact Or.inl hold
      · cases hnew
        exact Or.inr ⟨offered, gap, holder, inRange⟩

theorem ne_of_slot_withdraw {ticket holder : Nat} {gap : Gap} (h : (m.act (.withdraw ticket)).slot = some (holder, gap)) :
    holder ≠ ticket := by
  have h : (m.withdraw ticket).slot = some (holder, gap) := h
  unfold withdraw at h
  split at h
  · next other _ hslot =>
    split at h
    · simp [clear, hslot] at h
    · next hother =>
      rw [hslot] at h
      cases h
      exact hother
  · next hslot =>
    rw [hslot] at h
    cases h

/-! ### Offers -/

theorem slot_offer {ticket : Nat} {gap : Gap} {f : Frame} (hslot : m.slot = some (ticket, gap))
    (hrange : gap.contains f.seq = true) : (m.offer f).2.slot = none := by
  unfold offer
  rw [hslot]
  dsimp only
  rw [if_pos hrange]
  dsimp only
  split <;> rfl

/-- The holder of the slot gets the frame if it waits. -/
theorem reply_offer_of_waiting {ticket : Nat} {gap : Gap} {f : Frame} (hslot : m.slot = some (ticket, gap))
    (hrange : gap.contains f.seq = true) (hwaiting : m.reply ticket = .waiting) :
    (m.offer f).2.reply ticket = .received f := by
  have hlt : ticket < m.replies.length := lt_length_of_reply (by rw [hwaiting]; decide)
  have hoffer : (m.offer f).2 = { m.setReply ticket (.received f) with slot := none } := by
    simp [offer, hslot, hrange, hwaiting]
    rfl
  rw [hoffer]
  show (m.setReply ticket (.received f)).reply ticket = _
  rw [reply_setReply, if_pos ⟨rfl, hlt⟩]

/-- A frame is taken by a caller that waits for it or by one that has given up, and never by both. -/
theorem Sound.offer_iff (h : m.Sound) (f : Frame) :
    ((m.offer f).1 = true ↔ m.Hands f ∨ m.Abandoned f) ∧ ¬ (m.Hands f ∧ m.Abandoned f) := by
  rcases m.offer_cases f with ⟨hsame, hrange⟩ | ⟨ticket, gap, hslot, hrange, htaken⟩
  · have hhands : ¬ m.Hands f := by
      rintro ⟨ticket, hwaiting, hreceived⟩
      rw [hsame, hwaiting] at hreceived
      cases hreceived
    have habandoned : ¬ m.Abandoned f := by
      rintro ⟨ticket, gap, hslot, hin, -⟩
      rw [hrange ticket gap hslot] at hin
      cases hin
    rw [hsame]
    simp [hhands, habandoned]
  · have honly : ∀ other, m.reply other = .waiting → other = ticket := by
      intro other hwaiting
      obtain ⟨gap', hslot'⟩ := h.waiting other hwaiting
      rw [hslot] at hslot'
      cases hslot'
      rfl
    rcases h.holder ticket gap hslot with hwaiting | hgone
    · have hhands : m.Hands f := ⟨ticket, hwaiting, reply_offer_of_waiting hslot hrange hwaiting⟩
      have habandoned : ¬ m.Abandoned f := by
        rintro ⟨ticket', gap', hslot', -, hgone⟩
        rw [hslot] at hslot'
        cases hslot'
        rw [hwaiting] at hgone
        cases hgone
      rw [htaken]
      simp [hhands, habandoned]
    · have hhands : ¬ m.Hands f := by
        rintro ⟨other, hwaiting, -⟩
        rw [honly other hwaiting, hgone] at hwaiting
        cases hwaiting
      have habandoned : m.Abandoned f := ⟨ticket, gap, hslot, hrange, hgone⟩
      rw [htaken]
      simp [hhands, habandoned]

/-- Offers that are not taken leave the slot and all callers as they are. -/
theorem offer_of_not_taken {f : Frame} (h : (m.offer f).1 = false) : (m.offer f).2 = m := by
  rcases m.offer_cases f with ⟨hsame, -⟩ | ⟨ticket, gap, -, -, htaken⟩
  · rw [hsame]
  · rw [htaken] at h
    cases h

/-- What becomes of a data frame of the channel's shard. -/
theorem ofDatagram_of_data {channel : Channel} {sender : Endpoint} {bytes : Bytes} {f : Frame}
    (hdecode : Frame.decode bytes = .ok f) (hdata : f.isControl = false) (hshard : channel.acceptsShard f.shard = true) :
    Intake.ofDatagram channel m sender bytes =
      if channel.isResendIp (.v4 sender.ip) && (m.offer f).1 then .taken (m.offer f).2 else .pass f := by
  unfold Intake.ofDatagram
  rw [hdecode]
  dsimp only
  rw [hdata, if_neg Bool.false_ne_true]
  unfold Intake.ofData
  rw [hshard]
  rcases m.offer_cases f with ⟨hsame, -⟩ | ⟨ticket, gap, -, -, htaken⟩
  · simp [hsame]
  · simp [htaken]

/-- **A frame that is taken reaches a caller, unless an abandoned request is in its way.** However callers come and go, an
offer says that the frame was taken exactly if a caller that waits is handed it, or else the slot holds a request for the
frame whose caller has given up; only there do the two differ. An offer that is not taken changes nothing. Of the data
frames of the channel's shard, those that come from a resend ip and are taken stop here, and all others go to the link. -/
theorem offer_iff_hands_iff (acts : List Act) (f : Frame) :
    let m := run acts
    (((m.offer f).1 = true ↔ m.Hands f) ↔ ¬ m.Abandoned f) ∧
      ((m.offer f).1 = true ↔ m.Hands f ∨ m.Abandoned f) ∧ ((m.offer f).1 = false → (m.offer f).2 = m) ∧
      ∀ (channel : Channel) (sender : Endpoint) (bytes : Bytes), Frame.decode bytes = .ok f → f.isControl = false →
        channel.acceptsShard f.shard = true → Intake.ofDatagram channel m sender bytes =
          if channel.isResendIp (.v4 sender.ip) && (m.offer f).1 then .taken (m.offer f).2 else .pass f := by
  intro m
  obtain ⟨htaken, hapart⟩ := (sound_run acts).offer_iff f
  have htaken : (m.offer f).1 = true ↔ m.Hands f ∨ m.Abandoned f := htaken
  refine ⟨⟨?_, ?_⟩, htaken, offer_of_not_taken, fun channel sender bytes => ofDatagram_of_data⟩
  · intro hiff habandoned
    exact hapart ⟨hiff.1 (htaken.2 (Or.inr habandoned)), habandoned⟩
  · intro habandoned
    rw [htaken]
    exact or_iff_left habandoned

/-- A caller gives up, and another one takes the slot that it leaves behind. -/
def replaced : List Act := [.install ⟨5, 3⟩, .giveUp 0, .install ⟨6, 2⟩]

/-- The frame goes to the caller that waits, and not to the link. -/
theorem offer_replaced :
    let m := run replaced
    let f : Frame := ⟨⟨6, 0, 1, 1, noShard⟩, [1]⟩
    let place : Endpoint := ⟨⟨10, 0, 0, 3⟩, 9002⟩
    m.Hands f ∧
      Intake.ofDatagram (.new "md1" place place place) m place f.encode = .taken ⟨none, [.givenUp, .received f]⟩ := by
  intro m f place
  obtain ⟨hhands, -, -, hintake⟩ := offer_iff_hands_iff replaced f
  have habandoned : ¬ m.Abandoned f := by
    rintro ⟨ticket, gap, hslot, -, hgone⟩
    have hm : m = ⟨some (1, ⟨6, 2⟩), [.givenUp, .waiting]⟩ := by decide +kernel
    rw [hm] at hslot hgone
    cases hslot
    cases hgone
  refine ⟨(hhands.2 habandoned).1 (by decide +kernel), ?_⟩
  exact hintake (.new "md1" place place place) place f.encode (Frame.decode_encode (by decide)) (by decide) (by decide)

/-- The frame that is offered next after a caller has given up is taken, reaches nobody, and does not go to the link. -/
theorem abandoned_takes_frame :
    let m := run [.install ⟨5, 3⟩, .giveUp 0]
    let f : Frame := ⟨⟨6, 0, 1, 1, noShard⟩, [1]⟩
    let place : Endpoint := ⟨⟨10, 0, 0, 3⟩, 9002⟩
    (m.offer f).1 = true ∧ ¬ m.Hands f ∧
      Intake.ofDatagram (.new "md1" place place place) m place f.encode = .taken ⟨none, [.givenUp]⟩ := by
  intro m f place
  refine ⟨by decide +kernel, ?_, by decide +kernel⟩
  rintro ⟨ticket, hwaiting, -⟩
  obtain ⟨gap, hslot⟩ := (sound_run [.install ⟨5, 3⟩, .giveUp 0]).waiting ticket hwaiting
  have hm : m = ⟨some (0, ⟨5, 3⟩), [.givenUp]⟩ := by decide +kernel
  have hslot : m.slot = some (ticket, gap) := hslot
  rw [hm] at hslot hwaiting
  cases hslot
  cases hwaiting

end ReliableMulticast.ManualResend
