import Clipp.Clipboard.ActivityMerge
import Clipp.Clipboard.Duplicates

open Foundation

namespace ClippProof.Clipboard

open ClippModel.Persistence ClippModel.Registers ClippModel.Clipboard ClippModel.Clipboard.ClipboardPayload
  ClippModel.Clipboard.ClipboardActivityStore

variable {β : Type} {C : Codec} {render : ClipboardPayload → Option β} {s : Receiver β} {a b : Arrival}
  {arrivals rest : List Arrival} {p q : ClipboardPayload} {item : ActivityItem} {items : List ActivityItem}

/-- What the guard takes for the same content. -/
def SameContent (p q : ClipboardPayload) : Prop :=
  p.meta_.hashAlg ≠ 0 ∧ p.meta_.hashAlg = q.meta_.hashAlg ∧ p.meta_.hashBytes = q.meta_.hashBytes

/-- Nothing is evicted while these arrive. -/
def Roomy (C : Codec) (render : ClipboardPayload → Option β) : Receiver β → List Arrival → Prop
  | _, [] => True
  | s, a :: rest =>
    applyLimits s.activity.limits a.clock.limited (entered s.activity a.clock (handedOver a.payload)) =
        (entered s.activity a.clock (handedOver a.payload), []) ∧
      Roomy C render (onClipboardReceived C render s a).1 rest

/-- Live events of different identity and content, whose times do not go back. -/
structure Batch (C : Codec) (render : ClipboardPayload → Option β) (s : Receiver β) (arrivals : List Arrival) :
    Prop where
  live : ∀ a ∈ arrivals, isLive a.payload = true ∧ a.payload.meta_.formatId ≠ clippFormatNone
  nondecreasing : arrivals.Pairwise (fun a b => a.payload.meta_.timestamp ≤ b.payload.meta_.timestamp)
  notBelow : ∀ item ∈ s.activity.items, ∀ a ∈ arrivals, item.payload.meta_.timestamp ≤ a.payload.meta_.timestamp
  guids : arrivals.Pairwise (fun a b => a.payload.meta_.eventGuid ≠ b.payload.meta_.eventGuid)
  newGuids : ∀ item ∈ s.activity.items, ∀ a ∈ arrivals, item.payload.meta_.eventGuid ≠ a.payload.meta_.eventGuid
  contents : arrivals.Pairwise (fun a b => ¬ SameContent a.payload b.payload)
  newContents : ∀ a ∈ arrivals, s.guard.isCurrent a.payload = false
  roomy : Roomy C render s arrivals

/-- The received event is what a paste asks for, and what was written to the clipboard. -/
structure Serves (render : ClipboardPayload → Option β) (s : Receiver β) (a : Arrival) : Prop where
  newest : s.activity.itemsSince (List.replicate 16 0) 1 = [handedOver a.payload]
  reply : rcntReply s.activity =
    if !(handedOver a.payload).encoded.isEmpty ∧ (handedOver a.payload).meta_.formatId = clippFormatUtf8 then
      clipboardFrame (handedOver a.payload)
    else ClippModel.Gateway.tagNONE
  written : a.access = .taken → ∀ content, render (handedOver a.payload) = some content → s.clipboard = some content

def ServesEach (C : Codec) (render : ClipboardPayload → Option β) : Receiver β → List Arrival → Prop
  | _, [] => True
  | s, a :: rest =>
    Serves render (onClipboardReceived C render s a).1 a ∧
      ServesEach C render (onClipboardReceived C render s a).1 rest

/-- After each event it is the one that is served, and the history lists them as they were sent. -/
structure NewestServed (C : Codec) (render : ClipboardPayload → Option β) (s : Receiver β) (arrivals : List Arrival) :
    Prop where
  each : ServesEach C render s arrivals
  listed : (received C render s arrivals).activity.items.map ActivityItem.payload =
    s.activity.items.map ActivityItem.payload ++ arrivals.map (fun a => handedOver a.payload)

/-- Every event is newer than what is stored when it comes. -/
def Ascending (s : Receiver β) (arrivals : List Arrival) : Prop :=
  (∀ item ∈ s.activity.items, ∀ a ∈ arrivals, item.payload.meta_.timestamp < a.payload.meta_.timestamp) ∧
    arrivals.Pairwise (fun a b => a.payload.meta_.timestamp < b.payload.meta_.timestamp)

theorem handedOver_same (p : ClipboardPayload) :
    (handedOver p).meta_ = { p.meta_ with flags := (handedOver p).meta_.flags } ∧ (handedOver p).encoded = p.encoded := by
  unfold handedOver
  split_ifs
  · exact ⟨rfl, rfl⟩
  · exact ⟨rfl, rfl⟩

theorem handedOver_timestamp (p : ClipboardPayload) : (handedOver p).meta_.timestamp = p.meta_.timestamp := by
  rw [(handedOver_same p).1]

theorem handedOver_guid (p : ClipboardPayload) : (handedOver p).meta_.eventGuid = p.meta_.eventGuid := by
  rw [(handedOver_same p).1]

theorem handedOver_format (p : ClipboardPayload) : (handedOver p).meta_.formatId = p.meta_.formatId := by
  rw [(handedOver_same p).1]

theorem isCurrent_handedOver (g : ClipboardHashGuard) (p : ClipboardPayload) :
    g.isCurrent (handedOver p) = g.isCurrent p := by
  unfold ClipboardHashGuard.isCurrent
  rw [(handedOver_same p).1]

theorem handedOver_hash (p : ClipboardPayload) :
    (handedOver p).meta_.hashAlg = p.meta_.hashAlg ∧ (handedOver p).meta_.hashBytes = p.meta_.hashBytes := by
  rw [(handedOver_same p).1]
  exact ⟨rfl, rfl⟩

theorem itemsSince_newest {store : ClipboardActivityStore} {front : List ActivityItem}
    (last : store.items = front ++ [item]) : store.itemsSince (List.replicate 16 0) 1 = [item.payload] := by
  have zero : (List.replicate 16 (0 : UInt8)).all (· = 0) = true := rfl
  have start : (if (front ++ [item]).length > (1 : UInt64).toNat then (front ++ [item]).length - (1 : UInt64).toNat
      else 0) = front.length := by
    rw [List.length_append]
    show (if front.length + 1 > 1 then front.length + 1 - 1 else 0) = front.length
    split_ifs with more
    · rfl
    · omega
  rw [itemsSince, if_neg (by decide)]
  simp only [zero, if_true, last, start, List.drop_left]
  rfl

theorem insertItem_last (item : ActivityItem) (items : List ActivityItem) :
    (∀ a ∈ items, a.payload.meta_.timestamp < item.payload.meta_.timestamp) ∧ insertItem item items = items ++ [item] ∨
      (∃ a ∈ items, item.payload.meta_.timestamp ≤ a.payload.meta_.timestamp) ∧
        ∃ front, ∃ last ∈ items, insertItem item items = front ++ [last] := by
  by_cases below : ∀ a ∈ items, a.payload.meta_.timestamp < item.payload.meta_.timestamp
  · have all : ∀ a ∈ items, older a item = true := fun a member => decide_eq_true (below a member)
    have none : items.dropWhile (older · item) = [] := List.dropWhile_eq_nil_iff.mpr all
    have whole := List.takeWhile_append_dropWhile (p := (older · item)) (l := items)
    rw [none, List.append_nil] at whole
    exact .inl ⟨below, by rw [insertItem, none, whole]⟩
  · obtain ⟨a, member, notOlder⟩ : ∃ a ∈ items, ¬ a.payload.meta_.timestamp < item.payload.meta_.timestamp := by
      simpa using below
    have some : items.dropWhile (older · item) ≠ [] := by
      intro none
      have isOlder := List.dropWhile_eq_nil_iff.mp none a member
      exact notOlder (of_decide_eq_true isOlder)
    obtain ⟨front, last, split⟩ := (List.eq_nil_or_concat' _).resolve_left some
    have inside : last ∈ items := by
      apply (List.dropWhile_sublist (older · item)).subset
      rw [split]
      exact List.mem_append_right _ List.mem_cons_self
    refine .inr ⟨⟨a, member, not_lt.mp notOlder⟩, items.takeWhile (older · item) ++ item :: front, last, inside, ?_⟩
    rw [insertItem, split, List.append_assoc, List.cons_append]

theorem insertItem_newest (item : ActivityItem) (items : List ActivityItem)
    (notBelow : ∀ a ∈ items, a.payload.meta_.timestamp ≤ item.payload.meta_.timestamp) :
    (∀ a ∈ items, a.payload.meta_.timestamp < item.payload.meta_.timestamp) ∧ insertItem item items = items ++ [item] ∨
      (∃ a ∈ items, a.payload.meta_.timestamp = item.payload.meta_.timestamp) ∧
        ∃ front, ∃ last ∈ items, insertItem item items = front ++ [last] := by
  rcases insertItem_last item items with newest | ⟨⟨a, member, above⟩, behind⟩
  · exact .inl newest
  · exact .inr ⟨⟨a, member, le_antisymm (notBelow a member) above⟩, behind⟩

def newItem (s : Receiver β) (a : Arrival) : ActivityItem where
  header := { id := s.activity.nextItemID, timestamp := a.clock.added }
  payload := handedOver a.payload

theorem received_live (batch : Batch C render s (a :: rest)) :
    (onClipboardReceived C render s a).1.activity.items = insertItem (newItem s a) s.activity.items ∧
      (onClipboardReceived C render s a).1.activity.limits = s.activity.limits ∧
      ((onClipboardReceived C render s a).1.clipboard, (onClipboardReceived C render s a).1.guard) =
        setClipboardData render s.clipboard s.guard a.access (handedOver a.payload) true false := by
  have live := batch.live a List.mem_cons_self
  have other : s.guard.isCurrent (handedOver a.payload) = false :=
    (isCurrent_handedOver _ _).trans (batch.newContents a List.mem_cons_self)
  have absent : existing s.activity.items (handedOver a.payload) = none := by
    unfold existing
    split_ifs
    · rfl
    · apply List.find?_eq_none.mpr
      intro item member
      rw [sameGuid, handedOver_guid, decide_eq_true_eq]
      exact batch.newGuids item member a List.mem_cons_self
  have fresh : ¬ Recorded s.activity (handedOver a.payload) := by
    rintro (none | ⟨item, found, -⟩)
    · exact live.2 ((handedOver_format _).symm.trans none)
    · rw [absent] at found
      cases found
  have put : entered s.activity a.clock (handedOver a.payload) = insertItem (newItem s a) s.activity.items := by
    simp only [entered, absent, newItem]
  have added := addItem_entered a.clock fresh
  rw [batch.roomy.1, put] at added
  unfold onClipboardReceived
  simp only [live.1, isClipboardDataCurrent, other, Bool.and_false, Bool.false_eq_true, if_false, if_true]
  exact ⟨added.1, added.2, trivial⟩

theorem setClipboardData_guard {clipboard : Option β} {g : ClipboardHashGuard} {access : ClipboardAccess}
    (other : ¬ SameContent p q) (before : g.isCurrent q = false) :
    (setClipboardData render clipboard g access p true false).2.isCurrent q = false := by
  unfold setClipboardData
  simp only [Bool.true_and, Bool.not_false, if_true]
  by_cases held : g.isCurrent p = true
  · rw [if_pos held]
    exact before
  · rw [if_neg held]
    cases access with
    | unavailable => exact before
    | emptied => exact before
    | taken =>
      cases render p with
      | none => exact before
      | some content =>
        show (g.rememberCurrent p).isCurrent q = false
        unfold ClipboardHashGuard.rememberCurrent
        split_ifs with unhashed
        · simp [ClipboardHashGuard.isCurrent]
        · apply Bool.eq_false_iff.mpr
          intro current
          simp only [ClipboardHashGuard.isCurrent, decide_eq_true_eq] at current
          exact other ⟨unhashed, current.2.2⟩

theorem Batch.tail (batch : Batch C render s (a :: rest)) :
    Batch C render (onClipboardReceived C render s a).1 rest := by
  obtain ⟨items, -, written⟩ := received_live batch
  have nondecreasing := List.pairwise_cons.mp batch.nondecreasing
  have guids := List.pairwise_cons.mp batch.guids
  have contents := List.pairwise_cons.mp batch.contents
  have member : ∀ item ∈ (onClipboardReceived C render s a).1.activity.items,
      item.payload = handedOver a.payload ∨ item ∈ s.activity.items := by
    intro item inStore
    rw [items] at inStore
    rcases mem_insertItem.mp inStore with rfl | old
    · exact .inl rfl
    · exact .inr old
  refine {
    live := fun b later => batch.live b (List.mem_cons_of_mem _ later)
    nondecreasing := nondecreasing.2
    notBelow := fun item inStore b later => ?_
    guids := guids.2
    newGuids := fun item inStore b later => ?_
    contents := contents.2
    newContents := fun b later => ?_
    roomy := batch.roomy.2 }
  · rcases member item inStore with new | old
    · rw [new, handedOver_timestamp]
      exact nondecreasing.1 b later
    · exact batch.notBelow item old b (List.mem_cons_of_mem _ later)
  · rcases member item inStore with new | old
    · rw [new, handedOver_guid]
      exact guids.1 b later
    · exact batch.newGuids item old b (List.mem_cons_of_mem _ later)
  · have guard := congrArg Prod.snd written
    rw [show (onClipboardReceived C render s a).1.guard = _ from guard]
    apply setClipboardData_guard _ (batch.newContents b (List.mem_cons_of_mem _ later))
    unfold SameContent
    rw [(handedOver_hash a.payload).1, (handedOver_hash a.payload).2]
    exact contents.1 b later

/-- One event is served after it came exactly if what was stored before is older. -/
theorem serves_iff (batch : Batch C render s (a :: rest)) :
    Serves render (onClipboardReceived C render s a).1 a ↔
      ∀ item ∈ s.activity.items, item.payload.meta_.timestamp < a.payload.meta_.timestamp := by
  obtain ⟨items, -, written⟩ := received_live batch
  have time : (newItem s a).payload.meta_.timestamp = a.payload.meta_.timestamp := handedOver_timestamp a.payload
  have notBelow : ∀ item ∈ s.activity.items,
      item.payload.meta_.timestamp ≤ (newItem s a).payload.meta_.timestamp := by
    intro item member
    rw [time]
    exact batch.notBelow item member a List.mem_cons_self
  have placed := insertItem_newest (newItem s a) s.activity.items notBelow
  rcases placed with ⟨below, last⟩ | ⟨⟨tied, member, tie⟩, front, last, inside, split⟩
  · have newest : (onClipboardReceived C render s a).1.activity.itemsSince (List.replicate 16 0) 1 =
        [handedOver a.payload] := itemsSince_newest (items.trans last)
    constructor
    · intro _ item member
      rw [← time]
      exact below item member
    · intro _
      refine ⟨newest, ?_, fun taken content form => ?_⟩
      · rw [rcntReply, newest]
        rfl
      · have shown := congrArg Prod.fst written
        have other : s.guard.isCurrent (handedOver a.payload) = false :=
          (isCurrent_handedOver _ _).trans (batch.newContents a List.mem_cons_self)
        rw [show (onClipboardReceived C render s a).1.clipboard = _ from shown]
        simp [setClipboardData, other, taken, form]
  · constructor
    · intro serves
      have newest := itemsSince_newest (items.trans split)
      rw [serves.newest] at newest
      have same : handedOver a.payload = last.payload := List.head_eq_of_cons_eq newest
      have guid := congrArg (fun p => p.meta_.eventGuid) same
      rw [handedOver_guid] at guid
      exact absurd guid.symm (batch.newGuids last inside a List.mem_cons_self)
    · intro below
      have older := below tied member
      rw [← time, ← tie] at older
      exact absurd older (lt_irrefl _)

theorem ascending_cons (batch : Batch C render s (a :: rest)) :
    Ascending s (a :: rest) ↔
      (∀ item ∈ s.activity.items, item.payload.meta_.timestamp < a.payload.meta_.timestamp) ∧
        Ascending (onClipboardReceived C render s a).1 rest := by
  obtain ⟨items, -, -⟩ := received_live batch
  have members : ∀ item, item ∈ (onClipboardReceived C render s a).1.activity.items ↔
      item = newItem s a ∨ item ∈ s.activity.items := by
    intro item
    rw [items, mem_insertItem]
  have time : (newItem s a).payload.meta_.timestamp = a.payload.meta_.timestamp := handedOver_timestamp a.payload
  constructor
  · rintro ⟨stored, sent⟩
    have parts := List.pairwise_cons.mp sent
    refine ⟨fun item member => stored item member a List.mem_cons_self, fun item member b later => ?_, parts.2⟩
    rcases (members item).mp member with rfl | old
    · rw [time]
      exact parts.1 b later
    · exact stored item old b (List.mem_cons_of_mem _ later)
  · rintro ⟨first, stored, sent⟩
    refine ⟨fun item member b later => ?_, List.pairwise_cons.mpr ⟨fun b later => ?_, sent⟩⟩
    · rcases List.mem_cons.mp later with rfl | later
      · exact first item member
      · exact stored item ((members item).mpr (.inr member)) b later
    · have newer := stored _ ((members _).mpr (.inl rfl)) b later
      rwa [time] at newer

/-- The newest event is served throughout exactly if no event has the time of one that is stored when it comes. -/
theorem newest_served_iff (batch : Batch C render s arrivals) :
    NewestServed C render s arrivals ↔ Ascending s arrivals := by
  induction arrivals generalizing s with
  | nil =>
    constructor
    · intro _
      exact ⟨fun _ _ _ none => (nomatch none), List.Pairwise.nil⟩
    · intro _
      exact ⟨trivial, (List.append_nil _).symm⟩
  | cons a rest ih =>
    rw [ascending_cons batch, ← ih batch.tail, ← serves_iff batch]
    obtain ⟨items, -, -⟩ := received_live batch
    have put : Serves render (onClipboardReceived C render s a).1 a →
        (onClipboardReceived C render s a).1.activity.items.map ActivityItem.payload =
          s.activity.items.map ActivityItem.payload ++ [handedOver a.payload] := by
      intro serves
      have below := (serves_iff batch).mp serves
      have all : ∀ item ∈ s.activity.items, older item (newItem s a) = true := by
        intro item member
        simp only [older, newItem, handedOver_timestamp, decide_eq_true_eq]
        exact below item member
      rw [items, insertItem, List.takeWhile_eq_self_iff.mpr all, List.dropWhile_eq_nil_iff.mpr all, List.map_append]
      rfl
    constructor
    · rintro ⟨⟨first, each⟩, listed⟩
      refine ⟨first, each, ?_⟩
      rw [put first, List.append_assoc]
      exact listed
    · rintro ⟨first, each, listed⟩
      refine ⟨⟨first, each⟩, ?_⟩
      rw [put first, List.append_assoc] at listed
      exact listed

theorem Batch.pair {first second : Arrival} (empty : s.activity.items = [])
    (live : ∀ a ∈ [first, second], isLive a.payload = true ∧ a.payload.meta_.formatId ≠ clippFormatNone)
    (times : first.payload.meta_.timestamp ≤ second.payload.meta_.timestamp)
    (guids : first.payload.meta_.eventGuid ≠ second.payload.meta_.eventGuid)
    (contents : first.payload.meta_.hashBytes ≠ second.payload.meta_.hashBytes)
    (newContents : ∀ a ∈ [first, second], s.guard.isCurrent a.payload = false)
    (roomy : Roomy C render s [first, second]) : Batch C render s [first, second] where
  live := live
  nondecreasing := List.pairwise_pair.mpr times
  notBelow := by
    rw [empty]
    exact fun _ none => nomatch none
  guids := List.pairwise_pair.mpr guids
  newGuids := by
    rw [empty]
    exact fun _ none => nomatch none
  contents := List.pairwise_pair.mpr (fun same => contents same.2.2)
  newContents := newContents
  roomy := roomy

namespace Redelivery

def sent (b : UInt8) (timestamp : UInt64) : Arrival := arrival ((text b timestamp).addFlags clpmFlagRelay)

theorem sent_apart : Batch codec asText fresh [sent 0x61 1, sent 0x62 2] :=
  .pair rfl (by decide +kernel) (by decide +kernel) (by decide +kernel) (by decide +kernel) (by decide +kernel)
    ⟨by decide +kernel, by decide +kernel, trivial⟩

theorem sent_together : Batch codec asText fresh [sent 0x61 1, sent 0x62 1] :=
  .pair rfl (by decide +kernel) (by decide +kernel) (by decide +kernel) (by decide +kernel) (by decide +kernel)
    ⟨by decide +kernel, by decide +kernel, trivial⟩

end Redelivery

open Redelivery in
theorem newest_served_apart : NewestServed codec asText fresh [sent 0x61 1, sent 0x62 2] :=
  (newest_served_iff sent_apart).mpr
    ⟨fun _ none => (nomatch none), List.pairwise_pair.mpr (by decide +kernel)⟩

open Redelivery in
/-- Of two files sent within one millisecond the first is served, while the second is on the clipboard. -/
theorem newest_not_served_within_millisecond :
    ¬ ∀ arrivals, Batch codec asText fresh arrivals → NewestServed codec asText fresh arrivals := by
  intro newest
  have served := (newest _ sent_together).each.2.1.newest
  have first : (received codec asText fresh [sent 0x61 1, sent 0x62 1]).activity.itemsSince (List.replicate 16 0) 1 =
      [handedOver (sent 0x61 1).payload] := by decide +kernel
  have same : [handedOver (sent 0x62 1).payload] = [handedOver (sent 0x61 1).payload] := served.symm.trans first
  exact absurd same (by decide +kernel)

end ClippProof.Clipboard
