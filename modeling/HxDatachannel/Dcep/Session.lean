import HxDatachannel.Dcep.Defs

/-!
# `Dcep.Session` — one direction of a session

What is on the way from a channel to its partner: the items it sent and, once it is closed, the reset of
its stream behind them. `Side` keeps that together with what was sent and what was received, through
everything that can happen to one direction.
-/

namespace HxDatachannel.Dcep

open Link

/-- What came out and is on the way of what a channel sent. -/
abbrev Flows (r : Reliability) (xs sent : List Content) : Prop :=
  Flow (r.unordered = false) r.isReliable xs sent

/-- What came out of what a channel sent: never more, in order if the channel is ordered, and without a
    gap if it is reliable as well. -/
abbrev Conveys (r : Reliability) (got sent : List Content) : Prop :=
  Conveyed (r.unordered = false) r.isReliable got sent

/-- The reset that the closing of channel `i` sends. -/
def reset (i : Nat) : Message := { type := .Reset, data := [], reliability := none, source := some i }

def contents (w : List Message) : List Content := w.filterMap Message.content?

def Message.isAck (m : Message) : Prop := m.type = .Control ∧ m.data = [MESSAGE_ACK]

/-- A message that neither opens nor closes a channel. -/
def Message.Plain (m : Message) : Prop :=
  m.content?.isSome = true ∨ (m.isAck ∧ m.reliability = none)

/-- A message that a channel of reliability `r` sends once it is open. -/
structure Item (r : Reliability) (m : Message) : Prop where
  plain       : m.Plain
  reliability : m.reliability = none ∨ m.reliability = some r

/-! ## Messages -/

theorem reset_isReset (i : Nat) : (reset i).isReset = true := rfl

theorem content?_type {m : Message} (h : m.content?.isSome = true) :
    m.type = .String ∨ m.type = .Binary := by
  unfold Message.content? at h
  split at h
  · assumption
  · exact absurd h (by simp)

theorem content?_eq {m : Message} (h : m.content?.isSome = true) : m.content? = some (m.type, m.data) := by
  rw [Message.content?, if_pos (content?_type h)]

theorem isAck_content? {m : Message} (h : m.isAck) : m.content? = none := by
  simp [Message.content?, h.1]

theorem Message.Plain.not_reset {m : Message} (h : m.Plain) : m.isReset = false := by
  rcases h with h | h
  · rcases content?_type h with h | h <;> simp [Message.isReset, h]
  · simp [Message.isReset, h.1.1]

theorem Message.Plain.not_open {m : Message} (h : m.Plain) : m.isOpenMessage = false := by
  rcases h with h | h
  · rcases content?_type h with h | h <;> simp [Message.isOpenMessage, h]
  · simp [Message.isOpenMessage, h.1.2, MESSAGE_ACK, MESSAGE_OPEN]

/-- What an ordered channel sends arrives in order. -/
theorem Item.ordered {r : Reliability} {m : Message} (h : Item r m) (hr : r.unordered = false) :
    m.unordered = false := by
  unfold Message.unordered
  rcases h.reliability with h | h <;> simp [h, hr]

/-- What a reliable channel sends is not given up. -/
theorem Item.not_lossy {r : Reliability} {m : Message} (h : Item r m) (hl : m.lossy = true) :
    ¬ r.isReliable := by
  intro hr
  unfold Message.lossy at hl
  rcases h.reliability with h | h
  · simp [h] at hl
  · simp [h, hr.1, hr.2] at hl

theorem contents_append (u v : List Message) : contents (u ++ v) = contents u ++ contents v :=
  List.filterMap_append ..

/-! ## One direction of a session -/

/-- What is on the way from the channel `id`: items, and a reset behind them once it is closed. Unless the
    receiver is closed, they are what it still has to get. -/
def Side (r : Reliability) (id : Nat) (closed : Bool) (sent : List Content) (deaf : Bool)
    (received : List Content) (w : List Message) : Prop :=
  ∃ items, w = items ++ (if closed then [reset id] else []) ∧ (∀ m ∈ items, Item r m) ∧
    (deaf = false → Flows r (received ++ contents items) sent)

/-- What is left of a session that its sender has closed. -/
def Closing (w : List Message) : Prop :=
  ∃ items i, w = items ++ [reset i] ∧ ∀ m ∈ items, m.Plain

variable {r : Reliability} {id : Nat} {closed deaf : Bool} {sent received : List Content}
  {w : List Message} {k : Nat} {m : Message}

theorem Side.closing (h : Side r id true sent deaf received w) : Closing w := by
  obtain ⟨items, hw, hitems, _⟩ := h
  exact ⟨items, id, hw, fun m hm => (hitems m hm).plain⟩

theorem Side.deafen (h : Side r id closed sent deaf received w) : Side r id closed sent true received w := by
  obtain ⟨items, hw, hitems, _⟩ := h
  exact ⟨items, hw, hitems, nofun⟩

/-- The channel sends a content. -/
theorem Side.send (h : Side r id false sent deaf received w) (hm : Item r m) {x : Content}
    (hx : m.content? = some x) : Side r id false (sent ++ [x]) deaf received (w ++ [m]) := by
  obtain ⟨items, hw, hitems, hflow⟩ := h
  refine ⟨items ++ [m], by simpa using hw, ?_, ?_⟩
  · intro m' hm'
    rcases List.mem_append.mp hm' with hm' | hm'
    · exact hitems m' hm'
    · exact List.mem_singleton.mp hm' ▸ hm
  · intro hd
    have hone : contents [m] = [x] := by simp [contents, hx]
    rw [contents_append, hone, ← List.append_assoc]
    exact (hflow hd).send [x]

/-- The channel is closed. -/
theorem Side.close (h : Side r id false sent deaf received w) :
    Side r id true sent deaf received (w ++ [reset id]) := by
  obtain ⟨items, hw, hitems, hflow⟩ := h
  exact ⟨items, by simpa using hw, hitems, hflow⟩

/-- Which messages can come out, and from where. -/
theorem Side.cases (h : Side r id closed sent deaf received w) (hm : w[k]? = some m)
    (hk : arrives Message.isReset Message.unordered w k = true) :
    (Item r m ∧ (r.unordered = false → k = 0)) ∨
      (m = reset id ∧ closed = true ∧ k = 0 ∧ w = [reset id]) := by
  obtain ⟨items, rfl, hitems, _⟩ := h
  have hordered : ∀ {i}, arrives Message.isReset Message.unordered items i = true →
      r.unordered = false → i = 0 := by
    intro i hi hr
    exact arrives_ordered (fun x hx => (hitems x hx).ordered hr) hi
  cases closed with
  | false =>
      rw [if_neg (by simp), List.append_nil] at hm hk
      exact .inl ⟨hitems m (List.mem_of_getElem? hm), hordered hk⟩
  | true =>
      rw [if_pos rfl] at hm hk ⊢
      rcases arrives_barrier (reset_isReset id) hk with ⟨hlt, hk⟩ | ⟨rfl, rfl⟩
      · rw [List.getElem?_append_left hlt] at hm
        exact .inl ⟨hitems m (List.mem_of_getElem? hm), hordered hk⟩
      · right
        refine ⟨?_, rfl, rfl, rfl⟩
        simpa using hm.symm

/-- Where an item is taken out, it is taken out of the items. -/
theorem Side.erase (h : Side r id closed sent deaf received w) (hm : w[k]? = some m)
    (hreset : m.isReset = false) {deaf' : Bool} {received' : List Content}
    (hflow : ∀ items, items[k]? = some m → Item r m → (deaf = false → Flows r (received ++ contents items) sent) →
      deaf' = false → Flows r (received' ++ contents (items.eraseIdx k)) sent) :
    Side r id closed sent deaf' received' (w.eraseIdx k) := by
  obtain ⟨items, rfl, hitems, hf⟩ := h
  have hlt : k < items.length := by
    by_contra hge
    rw [List.getElem?_append_right (by omega)] at hm
    have hmem := List.mem_of_getElem? hm
    cases closed with
    | false => simp at hmem
    | true =>
        rw [if_pos rfl, List.mem_singleton] at hmem
        rw [hmem, reset_isReset] at hreset
        exact absurd hreset (by simp)
  rw [List.getElem?_append_left hlt] at hm
  rw [List.eraseIdx_append_of_lt_length hlt]
  exact ⟨items.eraseIdx k, rfl, fun x hx => hitems x (List.mem_of_mem_eraseIdx hx),
    hflow items hm (hitems m (List.mem_of_getElem? hm)) hf⟩

/-- A content reaches a receiver that is not closed. -/
theorem Side.deliver (h : Side r id closed sent false received w) (hm : w[k]? = some m)
    (hitem : Item r m) (hk : r.unordered = false → k = 0) {x : Content} (hx : m.content? = some x) :
    Side r id closed sent false (received ++ [x]) (w.eraseIdx k) := by
  refine h.erase hm hitem.plain.not_reset ?_
  intro items hitems _ hf _
  refine (hf rfl).deliver (filterMap_eraseIdx_some hitems hx) ?_
  intro hr
  obtain rfl := hk hr
  obtain ⟨y, ys, rfl⟩ : ∃ y ys, items = y :: ys := by
    cases items with
    | nil => simp at hitems
    | cons y ys => exact ⟨y, ys, rfl⟩
  obtain rfl : y = m := by simpa using hitems
  rw [List.eraseIdx_cons_zero, contents, List.filterMap_cons_some hx]
  rfl

/-- A message without content reaches the receiver. -/
theorem Side.deliver_ack (h : Side r id closed sent deaf received w) (hm : w[k]? = some m)
    (hreset : m.isReset = false) (hx : m.content? = none) :
    Side r id closed sent deaf received (w.eraseIdx k) := by
  refine h.erase hm hreset ?_
  intro items hitems _ hf hd
  show Flows r (received ++ (items.eraseIdx k).filterMap Message.content?) sent
  rw [filterMap_eraseIdx_none hitems hx]
  exact hf hd

/-- A receiver that is closed ignores what it gets. -/
theorem Side.ignore (h : Side r id closed sent true received w) (hm : w[k]? = some m)
    (hreset : m.isReset = false) : Side r id closed sent true received (w.eraseIdx k) :=
  h.erase hm hreset fun _ _ _ _ hd => absurd hd (by simp)

/-- A message is given up. -/
theorem Side.lose (h : Side r id closed sent deaf received w) (hm : w[k]? = some m)
    (hl : m.lossy = true) : Side r id closed sent deaf received (w.eraseIdx k) := by
  have hreset : m.isReset = false := by
    obtain ⟨items, rfl, hitems, _⟩ := h
    rcases List.mem_append.mp (List.mem_of_getElem? hm) with hmem | hmem
    · exact (hitems m hmem).plain.not_reset
    · cases closed with
      | false => simp at hmem
      | true =>
          rw [if_pos rfl, List.mem_singleton] at hmem
          rw [hmem] at hl
          exact absurd hl (by simp [reset, Message.lossy])
  refine h.erase hm hreset ?_
  intro items _ hitem hf hd
  exact (hf hd).lose (filterMap_eraseIdx_sublist _ items k) (hitem.not_lossy hl)

/-- Nothing is on the way any more: what a receiver got is all that its partner sent. -/
theorem Side.done (h : Side r id closed sent false received w) (hw : contents w = []) :
    Flows r received sent := by
  obtain ⟨items, rfl, _, hf⟩ := h
  rw [contents_append] at hw
  have := hf rfl
  rwa [(List.append_eq_nil_iff.mp hw).1, List.append_nil] at this

theorem Side.conveys (h : Side r id closed sent false received w) : Conveys r received sent := by
  obtain ⟨items, -, -, hf⟩ := h
  exact (hf rfl).conveyed

/-- What is left of a closed session comes out up to its reset, before anything that was sent later. -/
theorem Closing.cases {v : List Message} (h : Closing w) (hm : (w ++ v)[k]? = some m)
    (hk : arrives Message.isReset Message.unordered (w ++ v) k = true) :
    (m.Plain ∧ ∃ w', (w ++ v).eraseIdx k = w' ++ v ∧ Closing w') ∨
      (∃ i, m = reset i ∧ (w ++ v).eraseIdx k = v) := by
  obtain ⟨items, i, rfl, hitems⟩ := h
  rw [List.append_assoc] at hm hk ⊢
  rcases arrives_barrier (reset_isReset i) hk with ⟨hlt, -⟩ | ⟨rfl, rfl⟩
  · left
    rw [List.getElem?_append_left hlt] at hm
    refine ⟨hitems m (List.mem_of_getElem? hm), items.eraseIdx k ++ [reset i], ?_, items.eraseIdx k, i, rfl, ?_⟩
    · rw [List.eraseIdx_append_of_lt_length hlt, List.append_assoc]
    · intro x hx
      exact hitems x (List.mem_of_mem_eraseIdx hx)
  · right
    exact ⟨i, by simpa using hm.symm, rfl⟩

/-- A message of a closed session is given up. -/
theorem Closing.lose {v : List Message} (h : Closing w) (hm : w[k]? = some m) (hl : m.lossy = true) :
    ∃ w', (w ++ v).eraseIdx k = w' ++ v ∧ Closing w' := by
  obtain ⟨items, i, rfl, hitems⟩ := h
  have hlt : k < items.length := by
    by_contra hge
    rw [List.getElem?_append_right (by omega)] at hm
    have hmem := List.mem_singleton.mp (List.mem_of_getElem? hm)
    rw [hmem] at hl
    exact absurd hl (by simp [reset, Message.lossy])
  refine ⟨items.eraseIdx k ++ [reset i], ?_, items.eraseIdx k, i, rfl, ?_⟩
  · rw [List.append_assoc, List.append_assoc, List.eraseIdx_append_of_lt_length hlt]
  · intro x hx
    exact hitems x (List.mem_of_mem_eraseIdx hx)

end HxDatachannel.Dcep
