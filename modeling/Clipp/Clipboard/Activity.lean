import Clipp.Clipboard.Payload

open Foundation

namespace ClippModel.Clipboard

open ClippModel.Persistence

/-- Times of the system clock are counted in nanoseconds, in 64 bits. -/
def kTicksPerSecond : Int := 1000000000

def ticks (count : Int) : Int := count.bmod (2 ^ 64)

structure ClipboardActivityItemHeader where
  id : Nat
  timestamp : Int
  deriving DecidableEq

structure ActivityItem where
  header : ClipboardActivityItemHeader
  payload : ClipboardPayload
  deriving DecidableEq

inductive ClipboardActivityUpdate where
  | added (itemID : Nat)
  | removed (itemID : Nat)
  | cleared
  | moved (itemID : Nat)
  deriving DecidableEq

/-- A limit of zero is no limit. -/
structure ActivityLimits where
  memoryLimitBytes : UInt64 := 256 * 1024 * 1024
  maxAgeSeconds : UInt64 := 24 * 60 * 60
  maxItems : UInt64 := 1000
  deriving DecidableEq

structure ClipboardActivityStore where
  items : List ActivityItem := []
  limits : ActivityLimits := {}
  nextItemID : Nat := 1
  deriving DecidableEq

/-- The readings of the clock during one call: for the header of the item, then for the limits. -/
structure ActivityClock where
  added : Int
  limited : Int

namespace ClipboardActivityStore

def estimateItemBytes (item : ActivityItem) : Nat := 256 + item.payload.encoded.length

/-- A long age wraps around, in ticks. -/
def cutoff (limits : ActivityLimits) (now : Int) : Int :=
  ticks (now - ticks (limits.maxAgeSeconds.toNat * kTicksPerSecond))

def expired (limits : ActivityLimits) (now : Int) (item : ActivityItem) : Bool :=
  limits.maxAgeSeconds ≠ 0 ∧ limits.maxAgeSeconds.toNat < 2 ^ 63 ∧ item.header.timestamp < cutoff limits now

def surplus (limits : ActivityLimits) (items : List ActivityItem) : Nat :=
  if limits.maxItems = 0 then 0 else items.length - limits.maxItems.toNat

/-- The sum saturates at the largest 64-bit number. -/
def totalBytes (items : List ActivityItem) : Nat :=
  items.foldl (fun total item =>
    if total > 2 ^ 64 - 1 - estimateItemBytes item then 2 ^ 64 - 1 else total + estimateItemBytes item) 0

def dropOverflow (memoryLimitBytes : Nat) : Nat → List ActivityItem → List ActivityItem
  | total, item :: next :: rest =>
    if total > memoryLimitBytes then
      dropOverflow memoryLimitBytes (total - estimateItemBytes item) (next :: rest)
    else item :: next :: rest
  | _, items => items

def withinMemory (limits : ActivityLimits) (items : List ActivityItem) : List ActivityItem :=
  if limits.memoryLimitBytes = 0 then items
  else dropOverflow limits.memoryLimitBytes.toNat (totalBytes items) items

def applyLimits (limits : ActivityLimits) (now : Int) (items : List ActivityItem) :
    List ActivityItem × List ClipboardActivityUpdate :=
  let young := items.filter (fun item => !expired limits now item)
  let counted := young.drop (surplus limits young)
  let kept := withinMemory limits counted
  let evicted := items.filter (expired limits now) ++ young.take (surplus limits young) ++
    counted.take (counted.length - kept.length)
  (kept, evicted.map (fun item => .removed item.header.id))

def guidIsZero (payload : ClipboardPayload) : Bool := payload.meta_.eventGuid.val.all (· = 0)

def sameGuid (payload : ClipboardPayload) (item : ActivityItem) : Bool :=
  item.payload.meta_.eventGuid = payload.meta_.eventGuid

def existing (items : List ActivityItem) (payload : ClipboardPayload) : Option ActivityItem :=
  if guidIsZero payload then none else items.find? (sameGuid payload)

def older (a b : ActivityItem) : Bool := a.payload.meta_.timestamp < b.payload.meta_.timestamp

/-- In front of the first item that is not older: the lower bound, as the items are in ascending order. -/
def insertItem (item : ActivityItem) (items : List ActivityItem) : List ActivityItem :=
  items.takeWhile (older · item) ++ item :: items.dropWhile (older · item)

structure AddResult where
  store : ClipboardActivityStore
  itemID : Nat
  updates : List ClipboardActivityUpdate
  deriving DecidableEq

def place (s : ClipboardActivityStore) (clock : ActivityClock) (item : ActivityItem) (others : List ActivityItem)
    (update : ClipboardActivityUpdate) : AddResult :=
  let limited := applyLimits s.limits clock.limited (insertItem item others)
  { store := { s with items := limited.1 }
    itemID := item.header.id
    updates := update :: limited.2 }

def addItem (s : ClipboardActivityStore) (clock : ActivityClock) (payload : ClipboardPayload) : AddResult :=
  if payload.meta_.formatId = clippFormatNone then { store := s, itemID := 0, updates := [] }
  else match existing s.items payload with
    | some item =>
      if payload.meta_.timestamp ≤ item.payload.meta_.timestamp then
        { store := s, itemID := item.header.id, updates := [] }
      else
        s.place clock { header := { id := item.header.id, timestamp := clock.added }, payload := payload }
          (s.items.eraseP (sameGuid payload)) (.moved item.header.id)
    | none =>
      { s with nextItemID := s.nextItemID + 1 }.place clock
        { header := { id := s.nextItemID, timestamp := clock.added }, payload := payload }
        s.items (.added s.nextItemID)

def payloadReference (s : ClipboardActivityStore) (itemID : Nat) : Option ClipboardPayload :=
  (s.items.find? (fun item => item.header.id = itemID)).map ActivityItem.payload

/-- The items after the one with this guid, or the most recent ones. -/
def itemsSince (s : ClipboardActivityStore) (fromGuid : Bytes) (maxItems : UInt64) : List ClipboardPayload :=
  if maxItems = 0 then []
  else
    let recent := if s.items.length > maxItems.toNat then s.items.length - maxItems.toNat else 0
    let startIndex :=
      if fromGuid.all (· = 0) then recent
      else match s.items.findIdx? (fun item => item.payload.meta_.eventGuid.val = fromGuid) with
        | some i => i + 1
        | none => recent
    ((s.items.drop startIndex).take maxItems.toNat).map ActivityItem.payload

end ClipboardActivityStore

end ClippModel.Clipboard

namespace ClippProof.Clipboard

open ClippModel.Clipboard ClippModel.Clipboard.ClipboardActivityStore

variable {s : ClipboardActivityStore} {clock : ActivityClock} {p : ClipboardPayload} {limits : ActivityLimits}
  {item : ActivityItem} {items : List ActivityItem} {update : ClipboardActivityUpdate} {now : Int}

theorem insertItem_perm (item : ActivityItem) (items : List ActivityItem) :
    (insertItem item items).Perm (item :: items) := by
  have parts := List.takeWhile_append_dropWhile (p := (older · item)) (l := items)
  unfold insertItem
  conv_rhs => rw [← parts]
  exact List.perm_middle

theorem mem_insertItem {a item : ActivityItem} {items : List ActivityItem} :
    a ∈ insertItem item items ↔ a = item ∨ a ∈ items := (insertItem_perm item items).mem_iff.trans List.mem_cons

theorem dropOverflow_suffix (memoryLimitBytes total : Nat) (items : List ActivityItem) :
    dropOverflow memoryLimitBytes total items <:+ items := by
  fun_induction dropOverflow memoryLimitBytes total items with
  | case1 total item next rest above ih => exact ih.trans (List.suffix_cons _ _)
  | case2 => exact List.suffix_rfl
  | case3 => exact List.suffix_rfl

theorem withinMemory_suffix (limits : ActivityLimits) (items : List ActivityItem) :
    withinMemory limits items <:+ items := by
  unfold withinMemory
  split_ifs
  · exact List.suffix_rfl
  · exact dropOverflow_suffix _ _ _

theorem applyLimits_sublist (limits : ActivityLimits) (now : Int) (items : List ActivityItem) :
    (applyLimits limits now items).1.Sublist items := by
  have young : (items.filter (fun item => !expired limits now item)).Sublist items := List.filter_sublist
  exact ((withinMemory_suffix limits _).sublist.trans (List.drop_sublist _ _)).trans young

/-- What the store already tells of the payload: there is nothing to record, or it holds the event, as new. -/
def Recorded (s : ClipboardActivityStore) (p : ClipboardPayload) : Prop :=
  p.meta_.formatId = clippFormatNone ∨
    ∃ item, existing s.items p = some item ∧ p.meta_.timestamp ≤ item.payload.meta_.timestamp

theorem addItem_recorded (recorded : Recorded s p) : (s.addItem clock p).store = s := by
  unfold addItem
  split_ifs with empty
  · rfl
  · obtain ⟨item, found, notNewer⟩ := recorded.resolve_left empty
    simp only [found, notNewer, if_true]

theorem eraseP_perm (found : existing items p = some item) : (item :: items.eraseP (sameGuid p)).Perm items := by
  unfold existing at found
  split_ifs at found
  obtain ⟨same, before, after, rfl, others⟩ := List.find?_eq_some_iff_append.mp found
  have none : ∀ a ∈ before, ¬ sameGuid p a = true := fun a member => by simpa using others a member
  rw [List.eraseP_append_right _ none, List.eraseP_cons_of_pos same]
  exact List.perm_middle.symm

theorem place_moved_ne (found : existing s.items p = some item)
    (newer : ¬ p.meta_.timestamp ≤ item.payload.meta_.timestamp) (header : ClipboardActivityItemHeader) :
    (s.place clock { header := header, payload := p } (s.items.eraseP (sameGuid p)) update).store ≠ s := by
  intro same
  have items : (applyLimits s.limits clock.limited
      (insertItem { header := header, payload := p } (s.items.eraseP (sameGuid p)))).1 = s.items :=
    congrArg ClipboardActivityStore.items same
  have other : ({ header := header, payload := p } : ActivityItem) ≠ item := by
    rintro rfl
    exact newer le_rfl
  have before : (s.items.eraseP (sameGuid p)).count item + 1 = s.items.count item := by
    rw [← (eraseP_perm found).count_eq, List.count_cons_self]
  have after : s.items.count item ≤ (s.items.eraseP (sameGuid p)).count item := by
    have fewer := (applyLimits_sublist s.limits clock.limited
      (insertItem { header := header, payload := p } (s.items.eraseP (sameGuid p)))).count_le item
    rw [items, (insertItem_perm _ _).count_eq, List.count_cons_of_ne other] at fewer
    exact fewer
  omega

theorem addItem_eq_self : (s.addItem clock p).store = s ↔ Recorded s p := by
  refine ⟨fun same => ?_, addItem_recorded⟩
  unfold addItem at same
  split_ifs at same with empty
  · exact .inl empty
  · cases found : existing s.items p with
    | none =>
      simp only [found] at same
      have counted : s.nextItemID + 1 = s.nextItemID := congrArg ClipboardActivityStore.nextItemID same
      omega
    | some item =>
      simp only [found] at same
      split_ifs at same with notNewer
      · exact .inr ⟨item, found, notNewer⟩
      · exact absurd same (place_moved_ne found notNewer _)

end ClippProof.Clipboard
