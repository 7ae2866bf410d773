import Clipp.Clipboard.ActivityMerge

open Foundation

namespace ClippModel.Clipboard.ClipboardActivityStore

def nextAnchor (anchor : Bytes) (answer : List ClipboardPayload) : Bytes :=
  match answer.getLast? with
  | some last => last.meta_.eventGuid.val
  | none => anchor

/-- The answers to so many requests in a row, while nothing changes. -/
def replayPages (s : ClipboardActivityStore) (maxItems : UInt64) : Nat → Bytes → List (List ClipboardPayload)
  | 0, _ => []
  | requests + 1, anchor =>
    s.itemsSince anchor maxItems ::
      replayPages s maxItems requests (nextAnchor anchor (s.itemsSince anchor maxItems))

end ClippModel.Clipboard.ClipboardActivityStore

namespace ClippProof.Clipboard

open ClippModel.Persistence ClippModel.Clipboard ClippModel.Clipboard.ClipboardActivityStore

variable {s : ClipboardActivityStore} {anchor : Bytes} {maxItems : UInt64} {i : Nat} {item : ActivityItem}

structure AnchoredAt (s : ClipboardActivityStore) (anchor : Bytes) (i : Nat) : Prop where
  stamped : anchor.all (· = 0) = false
  present : ∃ item, s.items[i]? = some item ∧ item.payload.meta_.eventGuid.val = anchor

theorem AnchoredAt.findIdx (good : WellFormed s) (anchored : AnchoredAt s anchor i) :
    s.items.findIdx? (fun item => item.payload.meta_.eventGuid.val = anchor) = some i := by
  obtain ⟨item, place, same⟩ := anchored.present
  obtain ⟨inside, found⟩ := List.getElem?_eq_some_iff.mp place
  rw [List.findIdx?_eq_some_iff_getElem]
  refine ⟨inside, by rw [found]; exact decide_eq_true same, ?_⟩
  intro j earlier
  rw [decide_eq_true_eq]
  intro twice
  have apart := (List.pairwise_iff_getElem.mp good.oneEach) j i (earlier.trans inside) inside earlier
  apply apart
  constructor
  · rw [guidIsZero, twice]
    exact anchored.stamped
  · apply Subtype.ext
    rw [twice, found, same]

theorem itemsSince_anchored (maxItems : UInt64) (good : WellFormed s) (anchored : AnchoredAt s anchor i) :
    s.itemsSince anchor maxItems = ((s.items.drop (i + 1)).take maxItems.toNat).map ActivityItem.payload := by
  by_cases none : maxItems = 0
  · rw [none]
    rfl
  · simp only [itemsSince, if_neg none, anchored.stamped, Bool.false_eq_true, if_false, anchored.findIdx good]

theorem itemsSince_recent (unanchored : anchor.all (· = 0) = true ∨
      ∀ item ∈ s.items, item.payload.meta_.eventGuid.val ≠ anchor) :
    s.itemsSince anchor maxItems = (s.items.drop (s.items.length - maxItems.toNat)).map ActivityItem.payload := by
  have recent : (if s.items.length > maxItems.toNat then s.items.length - maxItems.toNat else 0) =
      s.items.length - maxItems.toNat := by
    split_ifs with more
    · rfl
    · omega
  have whole : (s.items.drop (s.items.length - maxItems.toNat)).take maxItems.toNat =
      s.items.drop (s.items.length - maxItems.toNat) := by
    apply List.take_of_length_le
    rw [List.length_drop]
    omega
  by_cases none : maxItems = 0
  · have nothing : s.items.drop (s.items.length - maxItems.toNat) = [] := by
      rw [none]
      exact List.drop_length
    rw [nothing, itemsSince, if_pos none]
    rfl
  · rw [itemsSince, if_neg none]
    by_cases zero : anchor.all (· = 0) = true
    · simp only [zero, if_true, recent, whole]
    · have absent : s.items.findIdx? (fun item => item.payload.meta_.eventGuid.val = anchor) = Option.none := by
        rw [List.findIdx?_eq_none_iff]
        intro item member
        exact decide_eq_false (unanchored.resolve_left zero item member)
      simp only [zero, Bool.false_eq_true, if_false, absent, recent, whole]

/-- The answer to one request: a run of the store's items, where the anchor or the end of the store puts it. -/
structure ExactWindow (s : ClipboardActivityStore) (anchor : Bytes) (maxItems : UInt64) : Prop where
  run : ∃ front run back, s.items = front ++ run ++ back ∧
    s.itemsSince anchor maxItems = run.map ActivityItem.payload ∧ run.length ≤ maxItems.toNat ∧
    (∀ i, AnchoredAt s anchor i → front = s.items.take (i + 1) ∧ run = (s.items.drop (i + 1)).take maxItems.toNat) ∧
    ((anchor.all (· = 0) = true ∨ ∀ item ∈ s.items, item.payload.meta_.eventGuid.val ≠ anchor) →
      back = [] ∧ run.length = min maxItems.toNat s.items.length)

theorem exactWindow (good : WellFormed s) (anchor : Bytes) (maxItems : UInt64) : ExactWindow s anchor maxItems := by
  by_cases placed : ∃ i, AnchoredAt s anchor i
  · obtain ⟨i, anchored⟩ := placed
    refine ⟨s.items.take (i + 1), (s.items.drop (i + 1)).take maxItems.toNat,
      (s.items.drop (i + 1)).drop maxItems.toNat, ?_, itemsSince_anchored maxItems good anchored,
      List.length_take_le _ _, ?_, ?_⟩
    · rw [List.append_assoc, List.take_append_drop, List.take_append_drop]
    · intro j other
      have same : j = i := Option.some.inj ((other.findIdx good).symm.trans (anchored.findIdx good))
      rw [same]
      exact ⟨rfl, rfl⟩
    · intro unanchored
      obtain ⟨item, place, same⟩ := anchored.present
      rcases unanchored with zero | absent
      · rw [anchored.stamped] at zero
        cases zero
      · exact absurd same (absent item (List.mem_of_getElem? place))
  · have unanchored : anchor.all (· = 0) = true ∨ ∀ item ∈ s.items, item.payload.meta_.eventGuid.val ≠ anchor := by
      by_contra named
      rw [not_or] at named
      obtain ⟨stamped, present⟩ := named
      simp only [not_forall, not_not] at present
      obtain ⟨item, member, same⟩ := present
      obtain ⟨i, place⟩ := List.mem_iff_getElem?.mp member
      exact placed ⟨i, Bool.eq_false_iff.mpr stamped, item, place, same⟩
    refine ⟨s.items.take (s.items.length - maxItems.toNat), s.items.drop (s.items.length - maxItems.toNat), [], ?_,
      itemsSince_recent unanchored, ?_, ?_, ?_⟩
    · rw [List.append_nil, List.take_append_drop]
    · rw [List.length_drop]
      omega
    · intro i anchored
      exact absurd ⟨i, anchored⟩ placed
    · intro _
      refine ⟨rfl, ?_⟩
      rw [List.length_drop]
      omega

/-- Every answer in this row of requests ends with a stamped item. -/
def EndsStamped (pages : List (List ClipboardPayload)) : Prop :=
  ∀ page ∈ pages, ∀ last, page.getLast? = some last → guidIsZero last = false

theorem endsStamped_of_stamped (stamped : ∀ item ∈ s.items, guidIsZero item.payload = false) (requests : Nat) :
    EndsStamped (s.replayPages maxItems requests anchor) := by
  induction requests generalizing anchor with
  | zero =>
    intro page member
    cases member
  | succ requests ih =>
    intro page member last final
    rcases List.mem_cons.mp member with rfl | later
    · obtain ⟨item, stored, rfl⟩ := itemsSince_stored (List.mem_of_getLast? final)
      exact stamped item stored
    · exact ih page later last final

theorem nextAnchor_anchored (good : WellFormed s) (anchored : AnchoredAt s anchor i)
    (stamped : ∀ last, (s.itemsSince anchor maxItems).getLast? = some last → guidIsZero last = false) :
    AnchoredAt s (nextAnchor anchor (s.itemsSince anchor maxItems))
      (i + min maxItems.toNat (s.items.drop (i + 1)).length) := by
  have page := itemsSince_anchored maxItems good anchored
  have size : ((s.items.drop (i + 1)).take maxItems.toNat).length =
      min maxItems.toNat (s.items.drop (i + 1)).length := List.length_take
  cases ended : (s.itemsSince anchor maxItems).getLast? with
  | none =>
    rw [List.getLast?_eq_none_iff, page, List.map_eq_nil_iff] at ended
    rw [ended, List.length_nil] at size
    rw [← size, Nat.add_zero, nextAnchor, page, ended]
    exact anchored
  | some last =>
    have zero := stamped last ended
    rw [nextAnchor, ended]
    rw [page, List.getLast?_map, Option.map_eq_some_iff] at ended
    obtain ⟨item, final, rfl⟩ := ended
    refine ⟨zero, item, ?_, rfl⟩
    rw [List.getLast?_eq_getElem?, size] at final
    obtain ⟨bound, -⟩ := List.getElem?_eq_some_iff.mp final
    rw [size] at bound
    rw [List.getElem?_take_of_lt (by omega), List.getElem?_drop] at final
    rw [← final]
    congr 1
    omega

/-- A row of requests is sent the items behind the anchor once each, as many as it has room for, and then none. -/
theorem replayPages_spec (good : WellFormed s) (requests : Nat) (anchored : AnchoredAt s anchor i)
    (stamped : EndsStamped (s.replayPages maxItems requests anchor)) :
    (s.replayPages maxItems requests anchor).flatten =
        ((s.items.drop (i + 1)).take (requests * maxItems.toNat)).map ActivityItem.payload ∧
      ((s.items.drop (i + 1)).length ≤ requests * maxItems.toNat →
        s.replayPages maxItems (requests + 1) anchor = s.replayPages maxItems requests anchor ++ [[]]) := by
  induction requests generalizing anchor i with
  | zero =>
    rw [Nat.zero_mul, List.take_zero]
    refine ⟨rfl, ?_⟩
    intro empty
    have page := itemsSince_anchored maxItems good anchored
    rw [List.length_eq_zero_iff.mp (Nat.le_zero.mp empty)] at page
    have one : s.replayPages maxItems (0 + 1) anchor = [s.itemsSince anchor maxItems] := rfl
    rw [one, page, List.take_nil]
    rfl
  | succ requests ih =>
    have page := itemsSince_anchored maxItems good anchored
    have first := stamped _ List.mem_cons_self
    have later : EndsStamped (s.replayPages maxItems requests (nextAnchor anchor (s.itemsSince anchor maxItems))) :=
      fun other member => stamped other (List.mem_cons_of_mem _ member)
    obtain ⟨flat, ends⟩ := ih (nextAnchor_anchored good anchored first) later
    have onward : s.items.drop (i + min maxItems.toNat (s.items.drop (i + 1)).length + 1) =
        (s.items.drop (i + 1)).drop maxItems.toNat := by
      rw [List.drop_drop]
      by_cases short : (s.items.drop (i + 1)).length ≤ maxItems.toNat
      · rw [min_eq_right short]
        rw [List.length_drop] at short ⊢
        rw [List.drop_of_length_le (by omega), List.drop_of_length_le (by omega)]
      · rw [min_eq_left (not_le.mp short).le]
        congr 1
        omega
    rw [onward] at flat ends
    constructor
    · rw [replayPages, List.flatten_cons, flat, page, ← List.map_append, Nat.succ_mul,
        Nat.add_comm (requests * maxItems.toNat), List.take_add]
    · intro enough
      rw [Nat.succ_mul] at enough
      have rest : ((s.items.drop (i + 1)).drop maxItems.toNat).length ≤ requests * maxItems.toNat := by
        rw [List.length_drop (l := s.items.drop (i + 1))]
        omega
      rw [replayPages, ends rest]
      rfl

/-- Somebody who asks from what was sent last gets every later item once, and then nothing. -/
structure ReplaysRest (s : ClipboardActivityStore) (anchor : Bytes) (maxItems : UInt64) (i requests : Nat) : Prop where
  once : (s.replayPages maxItems requests anchor).flatten = (s.items.drop (i + 1)).map ActivityItem.payload
  ended : s.replayPages maxItems (requests + 1) anchor = s.replayPages maxItems requests anchor ++ [[]]

/-- Windows are exact in every reachable store, and a row of requests pages through it where an answer may
    hold something and each ends with an item that can be asked from. -/
theorem replay_windows (events : List Event) (anchor : Bytes) (maxItems : UInt64) :
    ExactWindow (performed {} events) anchor maxItems ∧
      ∀ i, AnchoredAt (performed {} events) anchor i → maxItems ≠ 0 →
        (∀ requests, EndsStamped ((performed {} events).replayPages maxItems requests anchor)) →
        (∀ requests, ((performed {} events).replayPages maxItems requests anchor).flatten =
          (((performed {} events).items.drop (i + 1)).take (requests * maxItems.toNat)).map ActivityItem.payload) ∧
        ∃ enough, ∀ requests, enough ≤ requests → ReplaysRest (performed {} events) anchor maxItems i requests := by
  have good : WellFormed (performed {} events) := (WellFormed.fresh {}).performed events
  refine ⟨exactWindow good anchor maxItems, ?_⟩
  intro i anchored some stamped
  have pages := fun requests => replayPages_spec good requests anchored (stamped requests)
  refine ⟨fun requests => (pages requests).1, ((performed {} events).items.drop (i + 1)).length, ?_⟩
  intro requests enough
  have positive : 0 < maxItems.toNat := by
    apply Nat.pos_of_ne_zero
    intro zero
    exact some (UInt64.toNat_inj.mp zero)
  have room : ((performed {} events).items.drop (i + 1)).length ≤ requests * maxItems.toNat :=
    enough.trans (Nat.le_mul_of_pos_right requests positive)
  obtain ⟨flat, ends⟩ := pages requests
  rw [List.take_of_length_le room] at flat
  exact ⟨flat, ends room⟩

namespace ReplaySample

def recordedText (guid : UInt8) (timestamp : UInt64) : Event where
  call := .add (MergeSample.stampedText guid timestamp)
  clock := { added := 0, limited := 0 }

def firstAnchor : Bytes := 1 :: List.replicate 15 0

def bothStamped : List Event := [recordedText 1 1, recordedText 2 2]

def lastUnstamped : List Event := [recordedText 1 1, recordedText 0 2]

end ReplaySample

open ReplaySample

theorem both_replayed :
    ∃ enough, ∀ requests, enough ≤ requests → ReplaysRest (performed {} bothStamped) firstAnchor 2 0 requests := by
  have stamped : ∀ requests, EndsStamped ((performed {} bothStamped).replayPages 2 requests firstAnchor) :=
    endsStamped_of_stamped (by decide)
  have pages := (replay_windows bothStamped firstAnchor 2).2 0 ⟨by decide, by decide⟩ (by decide) stamped
  exact pages.2

theorem replayPages_zero (s : ClipboardActivityStore) (requests : Nat) (anchor : Bytes) :
    (s.replayPages 0 requests anchor).flatten = [] := by
  induction requests generalizing anchor with
  | zero => rfl
  | succ requests ih =>
    have page : s.itemsSince anchor 0 = [] := rfl
    rw [replayPages, List.flatten_cons, page, ih, List.append_nil]

theorem lastUnstamped_pages (requests : Nat) : ¬ ReplaysRest (performed {} lastUnstamped) firstAnchor 2 0 requests := by
  intro replays
  have later : ((performed {} lastUnstamped).items.drop 1).length = 1 := by decide
  have total := congrArg List.length replays.once
  rw [List.length_map, later] at total
  rcases requests with _ | _ | requests
  · cases total
  · -- The second answer is asked for from the guid 0, and is the end of the store over again.
    have pages := congrArg (List.map List.length) replays.ended
    exact absurd pages (by decide)
  · have first : ((performed {} lastUnstamped).itemsSince firstAnchor 2).length = 1 := by decide
    have second : ((performed {} lastUnstamped).itemsSince
        (nextAnchor firstAnchor ((performed {} lastUnstamped).itemsSince firstAnchor 2)) 2).length = 2 := by decide
    rw [replayPages, replayPages, List.flatten_cons, List.flatten_cons, List.length_append, List.length_append, first,
      second] at total
    omega

/-- Nothing is paged through without room in the answers, and an unstamped item is sent again for ever. -/
theorem replay_incomplete :
    (¬ ∀ events anchor i, AnchoredAt (performed {} events) anchor i →
      ∃ requests, ReplaysRest (performed {} events) anchor 0 i requests) ∧
    ¬ ∀ events anchor maxItems i, AnchoredAt (performed {} events) anchor i → maxItems ≠ 0 →
      ∃ requests, ReplaysRest (performed {} events) anchor maxItems i requests := by
  constructor
  · intro always
    obtain ⟨requests, replays⟩ := always bothStamped firstAnchor 0 ⟨by decide, by decide⟩
    have once := replays.once
    rw [replayPages_zero] at once
    exact absurd once (by decide)
  · intro always
    obtain ⟨requests, replays⟩ := always lastUnstamped firstAnchor 2 0 ⟨by decide, by decide⟩ (by decide)
    exact lastUnstamped_pages requests replays

end ClippProof.Clipboard
