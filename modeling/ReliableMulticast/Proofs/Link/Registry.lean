import Mathlib.Data.List.Lex
import Mathlib.Data.UInt
import ReliableMulticast.Link.Registry
import ReliableMulticast.Proofs.Frame.Field

/-!
# Links by channel id

The links of an engine are kept in the order of their ids. Different ids have different bytes, so that `precedes` orders any
two of them (`precedes_of_not`), and the place of a new entry is the only one that keeps the others in order
(`sorted_place`).

What can be asked of a registry is which ids there are and what the link of an id is. After every change these are said here
once (`get?_update`, `get?_modify`, `get?_mapAll`, and the same for `ids`). In a registry that is `Sorted` there is one link
for each id, and `all` visits them in the order of the ids (`Sorted.all_eq`).
-/

namespace ReliableMulticast

namespace Bytes

theorem ofText_injective {a b : String} (h : ofText a = ofText b) : a = b := by
  have ha := toText?_ofText a
  rw [h, toText?_ofText] at ha
  exact (Option.some.inj ha).symm

end Bytes

namespace Link.Registry

/-! ### The order of ids -/

theorem precedes_iff (a b : ChannelId) : precedes a b = true ↔ Bytes.ofText a < Bytes.ofText b := decide_eq_true_iff

theorem precedes_trans {a b c : ChannelId} (hab : precedes a b = true) (hbc : precedes b c = true) :
    precedes a c = true := by
  rw [precedes_iff] at hab hbc ⊢
  exact List.lt_trans hab hbc

theorem ne_of_precedes {a b : ChannelId} (h : precedes a b = true) : a ≠ b := by
  rintro rfl
  exact List.lt_irrefl _ ((precedes_iff a a).1 h)

theorem precedes_of_not {a b : ChannelId} (h : ¬precedes a b = true) (hne : a ≠ b) : precedes b a = true := by
  rw [precedes_iff] at h ⊢
  by_contra hnot
  exact hne (Bytes.ofText_injective (List.le_antisymm (List.not_lt.1 hnot) (List.not_lt.1 h)))

/-! ### Entries -/

variable {α : Type}

theorem mem_ids_place (id key : ChannelId) (link : α) (entries : List (ChannelId × α)) :
    key ∈ (place id link entries).map (·.1) ↔ key = id ∨ key ∈ entries.map (·.1) := by
  induction entries with
  | nil => simp [place]
  | cons e rest ih =>
    unfold place
    split
    · rw [List.map_cons, List.mem_cons]
    · rw [List.map_cons, List.mem_cons, ih, List.map_cons, List.mem_cons, or_left_comm]

theorem sorted_place {id : ChannelId} {entries : List (ChannelId × α)}
    (h : (entries.map (·.1)).Pairwise (precedes · · = true)) (hnew : id ∉ entries.map (·.1)) (link : α) :
    ((place id link entries).map (·.1)).Pairwise (precedes · · = true) := by
  induction entries with
  | nil => exact List.pairwise_singleton _ _
  | cons e rest ih =>
    rw [List.map_cons, List.mem_cons, not_or] at hnew
    rw [List.map_cons, List.pairwise_cons] at h
    unfold place
    split
    · next hbefore =>
      rw [List.map_cons, List.map_cons, List.pairwise_cons, List.pairwise_cons]
      refine ⟨fun key hkey => ?_, h⟩
      rcases List.mem_cons.1 hkey with rfl | hkey
      · exact hbefore
      · exact precedes_trans hbefore (h.1 key hkey)
    · next hafter =>
      rw [List.map_cons, List.pairwise_cons]
      refine ⟨fun key hkey => ?_, ih h.2 hnew.2⟩
      rcases (mem_ids_place id key link rest).1 hkey with rfl | hkey
      · exact precedes_of_not hafter hnew.1
      · exact h.1 key hkey

theorem lookup_cons_if (e : ChannelId × α) (rest : List (ChannelId × α)) (key : ChannelId) :
    (e :: rest).lookup key = if key = e.1 then some e.2 else rest.lookup key := by
  rw [List.lookup_cons]
  by_cases hkey : key = e.1
  · rw [if_pos hkey, beq_iff_eq.2 hkey]
  · rw [if_neg hkey, beq_eq_false_iff_ne.2 hkey]

theorem lookup_place {id : ChannelId} {entries : List (ChannelId × α)} (hnew : entries.lookup id = none) (link : α)
    (key : ChannelId) : (place id link entries).lookup key = if key = id then some link else entries.lookup key := by
  induction entries with
  | nil => exact lookup_cons_if (id, link) [] key
  | cons e rest ih =>
    unfold place
    split
    · exact lookup_cons_if (id, link) (e :: rest) key
    · rw [lookup_cons_if] at hnew
      by_cases hid : id = e.1
      · rw [if_pos hid] at hnew
        cases hnew
      · rw [if_neg hid] at hnew
        rw [lookup_cons_if, lookup_cons_if, ih hnew]
        by_cases hkey : key = e.1
        · rw [if_pos hkey, if_pos hkey, if_neg (hkey ▸ Ne.symm hid)]
        · rw [if_neg hkey, if_neg hkey]

theorem lookup_map_if (id key : ChannelId) (change : α → α) (entries : List (ChannelId × α)) :
    (entries.map fun e => if e.1 = id then (e.1, change e.2) else e).lookup key =
      if key = id then (entries.lookup key).map change else entries.lookup key := by
  induction entries with
  | nil => simp
  | cons e rest ih =>
    have hname : (if e.1 = id then (e.1, change e.2) else e).1 = e.1 := by split <;> rfl
    rw [List.map_cons, lookup_cons_if, hname, ih, lookup_cons_if]
    by_cases hkey : key = e.1
    · subst hkey
      rw [if_pos rfl, if_pos rfl]
      split <;> rfl
    · rw [if_neg hkey, if_neg hkey]

theorem lookup_map (key : ChannelId) (change : α → α) (entries : List (ChannelId × α)) :
    (entries.map fun e => (e.1, change e.2)).lookup key = (entries.lookup key).map change := by
  induction entries with
  | nil => rfl
  | cons e rest ih =>
    rw [List.map_cons, lookup_cons_if, ih, lookup_cons_if]
    split <;> rfl

/-! ### Registries -/

variable (r : Registry α) (id key : ChannelId)

def Sorted : Prop := r.ids.Pairwise (precedes · · = true)

theorem sorted_empty : (empty : Registry α).Sorted := List.Pairwise.nil

theorem get?_eq_none_iff : r.get? id = none ↔ id ∉ r.ids := by
  unfold get? ids
  rw [List.lookup_eq_none_iff, List.mem_map]
  constructor
  · rintro h ⟨e, he, rfl⟩
    simpa using h e he
  · intro h e he
    simpa using fun heq : id = e.1 => h ⟨e, he, heq.symm⟩

theorem ids_modify (change : α → α) : (r.modify id change).ids = r.ids := by
  unfold ids modify
  rw [List.map_map]
  refine List.map_congr_left fun e _ => ?_
  show (if e.1 = id then (e.1, change e.2) else e).1 = e.1
  split <;> rfl

theorem get?_modify (change : α → α) :
    (r.modify id change).get? key = if key = id then (r.get? key).map change else r.get? key :=
  lookup_map_if id key change r.entries

theorem ids_mapAll (change : α → α) : (r.mapAll change).ids = r.ids := by
  unfold ids mapAll
  rw [List.map_map]
  rfl

theorem get?_mapAll (change : α → α) : (r.mapAll change).get? key = (r.get? key).map change :=
  lookup_map key change r.entries

/-- A link is created for an id exactly if there is none. -/
theorem created_update (change : α → α) (create : α) : (r.update id change create).1 = (r.get? id).isNone := by
  unfold update
  cases r.get? id <;> rfl

theorem mem_ids_update (change : α → α) (create : α) :
    key ∈ (r.update id change create).2.ids ↔ key = id ∨ key ∈ r.ids := by
  unfold update
  cases h : r.get? id with
  | some link =>
    have hknown : id ∈ r.ids := by
      by_contra hnot
      rw [(r.get?_eq_none_iff id).2 hnot] at h
      cases h
    dsimp only
    rw [ids_modify]
    exact ⟨Or.inr, fun h => h.elim (fun heq => heq ▸ hknown) fun hin => hin⟩
  | none => exact mem_ids_place id key create r.entries

theorem get?_update (change : α → α) (create : α) :
    (r.update id change create).2.get? key =
      if key = id then some (((r.get? id).map change).getD create) else r.get? key := by
  unfold update
  cases h : r.get? id with
  | some link =>
    dsimp only
    rw [get?_modify]
    by_cases hkey : key = id
    · subst hkey
      rw [if_pos rfl, if_pos rfl, h]
      rfl
    · rw [if_neg hkey, if_neg hkey]
  | none => exact lookup_place h create key

variable {r}

theorem Sorted.update (h : r.Sorted) (change : α → α) (create : α) : (r.update id change create).2.Sorted := by
  unfold Registry.update
  cases hget : r.get? id with
  | some link =>
    unfold Sorted
    dsimp only
    rw [ids_modify]
    exact h
  | none => exact sorted_place h ((r.get?_eq_none_iff id).1 hget) create

/-- All links, each once, are visited in the order of their ids. -/
theorem Sorted.all_eq (h : r.Sorted) : r.all = r.ids.filterMap r.get? := by
  have hnodup : (r.entries.map (·.1)).Nodup := h.imp ne_of_precedes
  have hget : ∀ e ∈ r.entries, r.get? e.1 = some e.2 := by
    intro e he
    obtain ⟨before, after, hsplit⟩ := List.append_of_mem he
    refine List.lookup_eq_some_iff.2 ⟨before, after, hsplit, fun e' he' => ?_⟩
    rw [hsplit, List.map_append, List.nodup_append] at hnodup
    have hne := hnodup.2.2 e'.1 (List.mem_map_of_mem he') e.1 (by simp)
    simpa using Ne.symm hne
  unfold all ids
  rw [List.filterMap_map]
  exact (List.filterMap_eq_map_iff_forall_eq_some.2 hget).symm

end Link.Registry

end ReliableMulticast
