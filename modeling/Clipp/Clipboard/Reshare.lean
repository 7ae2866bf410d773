import Clipp.Clipboard.LiveOrder
import Clipp.Clipboard.Sharing

open Foundation

namespace ClippProof.Clipboard

open ClippModel.Persistence ClippModel.Registers ClippModel.Clipboard ClippModel.Clipboard.ClipboardPayload
  ClippModel.Clipboard.ClipboardActivityStore

variable {β : Type} {C : Codec} {render : ClipboardPayload → Option β} {s after : ClipboardActivityStore}
  {p : ClipboardPayload} {item a : ActivityItem} {items : List ActivityItem} {clock : ActivityClock} {nowMs : UInt64}

/-- The item is last under its id, as it was or as it was shared again, with the others in front of it as they were,
    and it is what a paste or the request of the newest item gets. -/
def ServedLast (s after : ClipboardActivityStore) (item : ActivityItem) (p : ClipboardPayload) : Prop :=
  ∃ last : ActivityItem,
    after.items = s.items.filter (fun other => other.header.id ≠ item.header.id) ++ [last] ∧
    last.header.id = item.header.id ∧ (last = item ∨ last.payload = p) ∧
    after.itemsSince (List.replicate 16 0) 1 = [last.payload] ∧
    rcntReply after =
      if !last.payload.encoded.isEmpty ∧ last.payload.meta_.formatId = clippFormatUtf8 then clipboardFrame last.payload
      else ClippModel.Gateway.tagNONE

/-- No other item stands above both the item and the clock, and where there is no greater stamp, or the payload is
    passed over, the item is the last one already. -/
def ComesLast (s : ClipboardActivityStore) (nowMs : UInt64) (passedOver : Prop) (item : ActivityItem) : Prop :=
  (passedOver ∨ item.payload.meta_.timestamp = maxWord → s.items.getLast? = some item) ∧
    ∀ other ∈ s.items, other.header.id ≠ item.header.id →
      other.payload.meta_.timestamp ≤ item.payload.meta_.timestamp ∨ other.payload.meta_.timestamp < nowMs

theorem servedLast_of_items {last : ActivityItem}
    (place : after.items = s.items.filter (fun other => other.header.id ≠ item.header.id) ++ [last])
    (id : last.header.id = item.header.id) (payload : last = item ∨ last.payload = p) : ServedLast s after item p := by
  have newest := itemsSince_newest place
  refine ⟨last, place, id, payload, newest, ?_⟩
  rw [rcntReply, newest]
  rfl

theorem filter_id_split {front back : List ActivityItem}
    (distinct : ((front ++ item :: back).map (fun other => other.header.id)).Nodup) :
    (front ++ item :: back).filter (fun other => other.header.id ≠ item.header.id) = front ++ back := by
  rw [List.map_append, List.map_cons, List.nodup_middle, List.nodup_cons] at distinct
  have others : ∀ other ∈ front ++ back, decide (other.header.id ≠ item.header.id) = true := by
    intro other member
    refine decide_eq_true fun same => distinct.1 ?_
    rw [← same, ← List.map_append]
    exact List.mem_map_of_mem member
  have kept := List.filter_eq_self.mpr others
  rw [List.filter_append] at kept ⊢
  rw [List.filter_cons_of_neg (by simp)]
  exact kept

theorem servedLast_unchanged (good : WellFormed s) (member : item ∈ s.items) :
    ServedLast s s item p ↔ s.items.getLast? = some item := by
  constructor
  · intro served
    obtain ⟨last, place, id, _⟩ := served
    have inStore : last ∈ s.items := by
      rw [place]
      exact List.mem_append_right _ List.mem_cons_self
    have same : last = item := List.inj_on_of_nodup_map good.distinct inStore member id
    rw [place, List.getLast?_concat, same]
  · intro last
    obtain ⟨front, split⟩ := List.getLast?_eq_some_iff.mp last
    have distinct := good.distinct
    rw [split] at distinct
    have others := filter_id_split distinct
    rw [← split, List.append_nil] at others
    exact servedLast_of_items (by rw [others]; exact split) rfl (.inl rfl)

theorem WellFormed.existing (good : WellFormed s) (member : item ∈ s.items) (stamped : guidIsZero p = false)
    (same : item.payload.meta_.eventGuid = p.meta_.eventGuid) : existing s.items p = some item := by
  cases found : ClipboardActivityStore.existing s.items p with
  | none => exact absurd same (existing_none found stamped item member)
  | some other => rw [good.eq_of_existing found member same]

theorem eraseP_eq_filter (good : WellFormed s) (found : existing s.items p = some item) :
    s.items.eraseP (sameGuid p) = s.items.filter (fun other => other.header.id ≠ item.header.id) := by
  have distinct := good.distinct
  unfold ClipboardActivityStore.existing at found
  split_ifs at found
  obtain ⟨same, front, back, split, others⟩ := List.find?_eq_some_iff_append.mp found
  have none : ∀ a ∈ front, ¬ sameGuid p a = true := fun a member => by simpa using others a member
  rw [split] at distinct ⊢
  rw [filter_id_split distinct, List.eraseP_append_right _ none, List.eraseP_cons_of_pos same]

theorem addItem_last_iff (good : WellFormed s) (roomy : s.limits = unlimited) (member : item ∈ s.items)
    (stamped : guidIsZero p = false) (same : item.payload.meta_.eventGuid = p.meta_.eventGuid)
    (stored : p.meta_.formatId ≠ clippFormatNone) (newer : item.payload.meta_.timestamp < p.meta_.timestamp) :
    ServedLast s (s.addItem clock p).store item p ↔
      ∀ other ∈ s.items, other.header.id ≠ item.header.id → other.payload.meta_.timestamp < p.meta_.timestamp := by
  have found := good.existing member stamped same
  have fresh : ¬ Recorded s p := by
    intro recorded
    obtain ⟨known, here, notNewer⟩ := recorded.resolve_left stored
    rw [found] at here
    cases here
    exact absurd newer (not_lt.mpr notNewer)
  let moved : ActivityItem := { header := { id := item.header.id, timestamp := clock.added }, payload := p }
  let others := s.items.filter (fun other => other.header.id ≠ item.header.id)
  have items : (s.addItem clock p).store.items = insertItem moved others := by
    rw [(addItem_entered clock fresh).1, roomy, applyLimits_unlimited]
    simp only [entered, found, eraseP_eq_filter good found, moved, others]
  have memberOthers : ∀ other, other ∈ others ↔ other ∈ s.items ∧ other.header.id ≠ item.header.id := by
    intro other
    simp only [others, List.mem_filter, decide_eq_true_eq]
  rcases insertItem_last moved others with ⟨below, last⟩ | ⟨⟨above, inside, notOlder⟩, front, last, behind, split⟩
  · have served : ServedLast s (s.addItem clock p).store item p :=
      servedLast_of_items (items.trans last) rfl (.inr rfl)
    exact iff_of_true served fun other inStore apart => below other ((memberOthers other).mpr ⟨inStore, apart⟩)
  · constructor
    · intro served
      obtain ⟨final, place, id, _⟩ := served
      rw [items, split] at place
      have same := List.append_inj_right' place rfl
      have apart := ((memberOthers last).mp behind).2
      rw [List.head_eq_of_cons_eq same] at apart
      exact absurd id apart
    · intro below
      obtain ⟨inStore, apart⟩ := (memberOthers above).mp inside
      exact absurd (below above inStore apart) (not_lt.mpr notOlder)

/-- What becomes of the store when it is handed an item of its own under the stamp of a new share. -/
theorem addItem_reshared_iff (good : WellFormed s) (roomy : s.limits = unlimited) (member : item ∈ s.items)
    (stamped : guidIsZero p = false) (same : item.payload.meta_.eventGuid = p.meta_.eventGuid)
    (stored : p.meta_.formatId ≠ clippFormatNone)
    (stamp : p.meta_.timestamp = max nowMs (item.payload.meta_.timestamp + 1)) :
    ServedLast s (s.addItem clock p).store item p ↔ ComesLast s nowMs False item := by
  unfold ComesLast
  rw [false_or]
  by_cases full : item.payload.meta_.timestamp = maxWord
  · have recorded : Recorded s p :=
      .inr ⟨item, good.existing member stamped same, by rw [full]; exact le_maxWord _⟩
    rw [addItem_recorded recorded, servedLast_unchanged good member]
    constructor
    · intro last
      exact ⟨fun _ => last, fun other _ _ => .inl (by rw [full]; exact le_maxWord _)⟩
    · intro comes
      exact comes.1 full
  · have newer : item.payload.meta_.timestamp < p.meta_.timestamp := by
      rw [stamp]
      exact (word_lt_succ full).trans_le (le_max_right _ _)
    rw [addItem_last_iff good roomy member stamped same stored newer]
    have below : ∀ other : ActivityItem, other.payload.meta_.timestamp < p.meta_.timestamp ↔
        other.payload.meta_.timestamp ≤ item.payload.meta_.timestamp ∨ other.payload.meta_.timestamp < nowMs := by
      intro other
      rw [stamp, lt_max_iff, lt_word_succ full, or_comm]
    simp only [below, full, false_implies, true_and]

theorem newest_last (good : WellFormed s) (last : s.items.getLast? = some item) :
    ∀ other ∈ s.items, other.payload.meta_.timestamp ≤ item.payload.meta_.timestamp := by
  intro other member
  obtain ⟨front, split⟩ := List.getLast?_eq_some_iff.mp last
  have sorted := good.sorted
  rw [split] at sorted member
  rcases List.mem_append.mp member with inFront | final
  · exact (List.pairwise_append.mp sorted).2.2 other inFront item List.mem_cons_self
  · rw [List.mem_singleton.mp final]

section Flags

theorem reshared_flag {flag : UInt32} (apart : ~~~(clpmFlagSyncReplay ||| clpmFlagRelay) &&& flag = 0)
    (nowMs : UInt64) (p : ClipboardPayload) : (reshared nowMs p).meta_.flags &&& flag = 0 := by
  change p.meta_.flags &&& ~~~(clpmFlagSyncReplay ||| clpmFlagRelay) &&& flag = 0
  rw [UInt32.and_assoc, apart, UInt32.and_zero]

theorem reshared_not_replay (nowMs : UInt64) (p : ClipboardPayload) : (reshared nowMs p).isReplay = false := by
  simp [isReplay, reshared_flag (show _ &&& clpmFlagSyncReplay = 0 by decide) nowMs p]

theorem reshared_not_relay (nowMs : UInt64) (p : ClipboardPayload) : (reshared nowMs p).isRelay = false := by
  simp [isRelay, reshared_flag (show _ &&& clpmFlagRelay = 0 by decide) nowMs p]

theorem reshared_placeholder (nowMs : UInt64) (p : ClipboardPayload) :
    (reshared nowMs p).isPrivatePlaceholder = p.isPrivatePlaceholder := by
  have kept : ~~~(clpmFlagSyncReplay ||| clpmFlagRelay) &&& clpmFlagSourceMarkedPrivate = clpmFlagSourceMarkedPrivate := by
    decide
  have marked : (reshared nowMs p).isSourceMarkedPrivate = p.isSourceMarkedPrivate := by
    change decide (p.meta_.flags &&& ~~~(clpmFlagSyncReplay ||| clpmFlagRelay) &&& clpmFlagSourceMarkedPrivate ≠ 0) = _
    rw [UInt32.and_assoc, kept, isSourceMarkedPrivate]
  rw [isPrivatePlaceholder, marked]
  rfl

theorem reshared_live (content : p.isPrivatePlaceholder = false) : isLive (reshared nowMs p) = true := by
  rw [isLive, reshared_not_replay, reshared_placeholder, content]
  rfl

theorem reshared_handedOver (nowMs : UInt64) (p : ClipboardPayload) : handedOver (reshared nowMs p) = reshared nowMs p := by
  rw [handedOver, reshared_not_relay]
  rfl

end Flags

/-- A peer that is handed the item of its own under the stamp of a new share. -/
theorem received_reshared_iff {r : Receiver β} {arrival : Arrival} {copy : ActivityItem}
    (good : WellFormed r.activity) (roomy : r.activity.limits = unlimited) (member : copy ∈ r.activity.items)
    (stamped : guidIsZero p = false) (same : copy.payload.meta_.eventGuid = p.meta_.eventGuid)
    (stored : p.meta_.formatId ≠ clippFormatNone)
    (stamp : p.meta_.timestamp = max nowMs (copy.payload.meta_.timestamp + 1)) (arrives : arrival.payload = p)
    (live : isLive p = true) (direct : handedOver p = p) :
    ServedLast r.activity (onClipboardReceived C render r arrival).1.activity copy p ↔
      ComesLast r.activity nowMs (isClipboardDataCurrent r.guard p = true) copy := by
  unfold onClipboardReceived
  rw [arrives, live, direct]
  by_cases current : isClipboardDataCurrent r.guard p = true
  · simp only [current, Bool.and_true, if_true]
    rw [servedLast_unchanged good member]
    constructor
    · intro last
      exact ⟨fun _ => last, fun other inStore _ => .inl (newest_last good last other inStore)⟩
    · intro comes
      exact comes.1 (.inl trivial)
  · have passedOn : (isClipboardDataCurrent r.guard p = true) = False := eq_false current
    simp only [current, Bool.and_false, Bool.false_eq_true, if_false, if_true]
    exact addItem_reshared_iff good roomy member stamped same stored stamp

theorem reshare_eq {d : Sharer β} {occasion : Occasion} (good : WellFormed d.activity) (member : item ∈ d.activity.items)
    (content : item.payload.isPrivatePlaceholder = false) :
    d.reshareActivityItem C render occasion nowMs item.header.id =
      (true, { d.applyAndBroadcastPayload C render occasion (reshared nowMs item.payload) with undoSlot := .none }) := by
  simp only [Sharer.reshareActivityItem, payloadReference_item good member, content, Bool.false_eq_true, if_false]

/-- An item shared again is the newest, here and at a peer, exactly where no other item is above both its old stamp
    and the clock, its stamp can grow, and the peer does not take it for an echo. -/
theorem reshare_newest_iff (C : Codec) (render : ClipboardPayload → Option β) (d : Sharer β) (occasion : Occasion)
    (nowMs : UInt64) (item : ActivityItem) (good : WellFormed d.activity) (roomy : d.activity.limits = unlimited)
    (member : item ∈ d.activity.items) (stamped : guidIsZero item.payload = false)
    (content : item.payload.isPrivatePlaceholder = false) :
    (d.reshareActivityItem C render occasion nowMs item.header.id).1 = true ∧
    (d.reshareActivityItem C render occasion nowMs item.header.id).2.sent =
      d.sent ++ [.clipboard (reshared nowMs item.payload)] ∧
    (ServedLast d.activity (d.reshareActivityItem C render occasion nowMs item.header.id).2.activity item
        (reshared nowMs item.payload) ↔
      ComesLast d.activity nowMs False item) ∧
    ∀ (r : Receiver β) (arrival : Arrival) (copy : ActivityItem), WellFormed r.activity →
      r.activity.limits = unlimited → copy ∈ r.activity.items →
      copy.payload.meta_.eventGuid = item.payload.meta_.eventGuid →
      copy.payload.meta_.timestamp = item.payload.meta_.timestamp →
      arrival.payload = reshared nowMs item.payload →
      (ServedLast r.activity (onClipboardReceived C render r arrival).1.activity copy (reshared nowMs item.payload) ↔
        ComesLast r.activity nowMs (isClipboardDataCurrent r.guard item.payload = true) copy) := by
  have stored : (reshared nowMs item.payload).meta_.formatId ≠ clippFormatNone := good.stored item member
  have zero : guidIsZero (reshared nowMs item.payload) = false := stamped
  rw [reshare_eq good member content]
  refine ⟨rfl, rfl, addItem_reshared_iff good roomy member zero rfl stored rfl, ?_⟩
  intro r arrival copy peerGood peerRoomy inPeer guid time arrives
  have stamp : (reshared nowMs item.payload).meta_.timestamp = max nowMs (copy.payload.meta_.timestamp + 1) := by
    rw [time]
    rfl
  exact received_reshared_iff peerGood peerRoomy inPeer zero guid stored stamp arrives (reshared_live content)
    (reshared_handedOver nowMs item.payload)

namespace Resharing

open Redelivery

def given (payload : ClipboardPayload) : Event := { call := .add payload, clock := { added := 0, limited := 0 } }

def twoTexts (first second : UInt64) : ClipboardActivityStore :=
  performed { limits := unlimited } [given (text 0x61 first), given (text 0x62 second)]

def device (first second : UInt64) : Sharer Bytes where
  activity := twoTexts first second
  guard := {}
  clipboard := none
  registers := fresh.registers
  undoSlot := .none
  localHost := HostId.zero
  sent := []

def firstItem (stamp : UInt64) : ActivityItem := { header := { id := 1, timestamp := 0 }, payload := text 0x61 stamp }

def occasion : Occasion where
  clock := { added := 0, limited := 0 }
  access := .taken
  readings := .all 0

theorem twoTexts_good (first second : UInt64) : WellFormed (twoTexts first second) :=
  (WellFormed.fresh unlimited).performed _

end Resharing

open Redelivery Resharing in
theorem reshared_text_served :
    ServedLast (twoTexts 1 2) ((device 1 2).reshareActivityItem codec asText occasion 10 1).2.activity (firstItem 1)
        (reshared 10 (text 0x61 1)) ∧
      ServedLast (twoTexts 1 2)
        (onClipboardReceived codec asText (device 1 2).toReceiver (arrival (reshared 10 (text 0x61 1)))).1.activity
        (firstItem 1) (reshared 10 (text 0x61 1)) := by
  have member : firstItem 1 ∈ (twoTexts 1 2).items := by decide +kernel
  obtain ⟨_, _, here, peers⟩ := reshare_newest_iff codec asText (device 1 2) occasion 10 (firstItem 1)
    (twoTexts_good 1 2) rfl member (by decide +kernel) (by decide +kernel)
  have there := peers (device 1 2).toReceiver (arrival (reshared 10 (text 0x61 1))) (firstItem 1) (twoTexts_good 1 2) rfl
    member rfl rfl rfl
  exact ⟨here.mpr ⟨by decide +kernel, by decide +kernel⟩, there.mpr ⟨by decide +kernel, by decide +kernel⟩⟩

open Redelivery Resharing in
/-- A text with a stamp from a clock that is ahead stays behind the one that is shared again. -/
theorem reshared_text_not_served :
    ¬ ∀ (d : Sharer Bytes) (item : ActivityItem) (nowMs : UInt64), WellFormed d.activity →
      d.activity.limits = unlimited → item ∈ d.activity.items → guidIsZero item.payload = false →
      item.payload.isPrivatePlaceholder = false →
      ServedLast d.activity (d.reshareActivityItem codec asText occasion nowMs item.header.id).2.activity item
        (reshared nowMs item.payload) := by
  intro newest
  obtain ⟨last, place, id, _⟩ := newest (device 1 100) (firstItem 1) 10 (twoTexts_good 1 100) rfl (by decide +kernel)
    (by decide +kernel) (by decide +kernel)
  have order := congrArg (List.map (fun item => item.header.id)) place
  rw [List.map_append, List.map_singleton, id] at order
  exact absurd order (by decide +kernel)

end ClippProof.Clipboard
