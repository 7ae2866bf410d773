import Clipp.Clipboard.ActivityMerge
import Clipp.Clipboard.Duplicates
import Clipp.Clipboard.Persistence
import Clipp.Foundation.KeyedList
import Clipp.Persistence.SnapshotRoundTrip

open Foundation

namespace ClippModel.Clipboard

open ClippModel.Persistence ClippModel.Persistence.SealedSnapshot

namespace ClipboardPersistence

def kSnapshotMagic : Magic := ⟨[0x43, 0x4C, 0x50, 0x43], rfl⟩
def kVersion : UInt8 := 1
def kSnapshotBudgetBytes : Nat := 32 * 1024 * 1024

/-- Items that would blow the remaining budget are skipped. -/
def collectWithin (s : ClipboardActivityStore) : Nat → List ClipboardActivityItemHeader → List ClipboardPayload
  | _, [] => []
  | budget, header :: headers =>
    match s.payloadReference header.id with
    | none => collectWithin s budget headers
    | some payload =>
      if payload.encoded.length > budget then collectWithin s budget headers
      else payload :: collectWithin s (budget - payload.encoded.length) headers

/-- `order` is what the sort by the time of adding made of the headers. -/
def collectSnapshotPayloads (s : ClipboardActivityStore) (order : List ClipboardActivityItemHeader) :
    List ClipboardPayload := collectWithin s kSnapshotBudgetBytes order

def sealSnapshot (A : Aead) (nonce : Nonce) (payloads : List ClipboardPayload) (key : SealKey) : Bytes :=
  seal_ A nonce kSnapshotMagic kVersion (payloads.map encodeRecord) key

/-- Undecodable records are skipped. -/
def openSnapshot (A : Aead) (blob : Bytes) (key : SealKey) : Option (List ClipboardPayload) :=
  match tryOpen A kSnapshotMagic kVersion blob key [] with
  | (false, _) => none
  | (true, records) => some (records.filterMap tryDecodeRecord)

def readBack (payloads : List ClipboardPayload) : Option (List Bytes) :=
  Reader.whole readRecords (plaintext (payloads.map encodeRecord))

def readSnapshot (payloads : List ClipboardPayload) : Option (List ClipboardPayload) :=
  (readBack payloads).map (List.filterMap tryDecodeRecord)

/-- The history that is saved: to take the headers applies the limits. -/
def snapshotted (events : List ClipboardActivityStore.Event) (now : Int) : ClipboardActivityStore :=
  ((ClipboardActivityStore.performed {} events).applyLimitsLocked now).store

end ClipboardPersistence

end ClippModel.Clipboard

namespace ClippProof.Clipboard

open ClippModel.Persistence ClippModel.Persistence.SealedSnapshot ClippModel.Clipboard
  ClippModel.Clipboard.ClipboardActivityStore ClippModel.Clipboard.ClipboardPersistence ClippProof.Persistence

variable {s t u : ClipboardActivityStore} {p q : ClipboardPayload} {item a b : ActivityItem} {d : Delivery}
  {deliveries : List Delivery} {items : List ActivityItem} {limits : ActivityLimits}
  {headers order : List ClipboardActivityItemHeader} {budget : Nat}

def encodedSize (payloads : List ClipboardPayload) : Nat := (payloads.map (fun p => p.encoded.length)).sum

section File

def referenced (s : ClipboardActivityStore) (header : ClipboardActivityItemHeader) : Option ClipboardPayload :=
  s.payloadReference header.id

theorem payloadReference_item (good : WellFormed s) (member : item ∈ s.items) :
    s.payloadReference item.header.id = some item.payload := by
  have found : s.items.find? (fun a => a.header.id = item.header.id) = some item :=
    KeyedList.find_of_mem good.distinct member
  rw [payloadReference, found, Option.map_some]

theorem collectWithin_all (fits : encodedSize (headers.filterMap (referenced s)) ≤ budget) :
    collectWithin s budget headers = headers.filterMap (referenced s) := by
  induction headers generalizing budget with
  | nil => rfl
  | cons header rest ih =>
    cases found : referenced s header with
    | none =>
      rw [List.filterMap_cons_none found] at fits ⊢
      have missing : s.payloadReference header.id = none := found
      simp only [collectWithin, missing]
      exact ih fits
    | some payload =>
      rw [List.filterMap_cons_some found] at fits ⊢
      have size : encodedSize (payload :: rest.filterMap (referenced s)) =
          payload.encoded.length + encodedSize (rest.filterMap (referenced s)) := rfl
      rw [size] at fits
      have small : ¬ payload.encoded.length > budget := by omega
      have here : s.payloadReference header.id = some payload := found
      simp only [collectWithin, here, if_neg small]
      rw [ih (by omega)]

theorem collect_perm (good : WellFormed s) (perm : order.Perm (s.items.map ActivityItem.header))
    (within : encodedSize (s.items.map ActivityItem.payload) ≤ kSnapshotBudgetBytes) :
    (collectSnapshotPayloads s order).Perm (s.items.map ActivityItem.payload) := by
  have inStore : (s.items.map ActivityItem.header).filterMap (referenced s) =
      s.items.map ActivityItem.payload := by
    rw [List.filterMap_map, ← List.filterMap_eq_map]
    apply List.filterMap_congr
    intro item member
    exact payloadReference_item good member
  have all := perm.filterMap (referenced s)
  rw [inStore] at all
  have size : encodedSize (order.filterMap (referenced s)) ≤ kSnapshotBudgetBytes := by
    rw [encodedSize, (all.map _).sum_nat]
    exact within
  rw [collectSnapshotPayloads, collectWithin_all size]
  exact all

theorem openSnapshot_sealed {A : Aead} {nonce : Nonce} {key : SealKey} {payloads : List ClipboardPayload}
    (ideal : A.Ideal kTagSize [sealingOf nonce kSnapshotMagic kVersion (payloads.map encodeRecord) key]) :
    openSnapshot A (sealSnapshot A nonce payloads key) key = readSnapshot payloads := by
  rw [openSnapshot, sealSnapshot, tryOpen_seal ideal, readSnapshot, ClipboardPersistence.readBack]
  cases Reader.whole readRecords (plaintext (payloads.map encodeRecord)) with
  | none => rfl
  | some records => rfl

def Encodable (p : ClipboardPayload) : Prop := tryDecodeRecord (encodeRecord p) = some p

theorem Encodable.kept (encodable : Encodable p) : encodeRecord p ≠ [] := by
  intro none
  rw [Encodable, none] at encodable
  cases encodable

theorem encodeRecord_length (encodable : Encodable p) : (encodeRecord p).length < 2 ^ 32 := by
  obtain ⟨small, frame⟩ := encodeRecord_kept encodable.kept
  have tag : tagCLIP.length = 4 := rfl
  have limit : 4 + clipboardMessageSize + kMaxBodyBytes < 2 ^ 32 := by decide
  rw [frame, clipboardFrame, List.length_append, List.length_append, pack_length, tag]
  omega

theorem sealedRecords_encodable {payloads : List ClipboardPayload} (encodable : ∀ p ∈ payloads, Encodable p) :
    sealedRecords (payloads.map encodeRecord) = payloads.map encodeRecord := by
  apply List.filter_eq_self.mpr
  intro record member
  obtain ⟨p, among, rfl⟩ := List.mem_map.mp member
  simpa using (encodable p among).kept

theorem readSnapshot_encodable {payloads : List ClipboardPayload} (encodable : ∀ p ∈ payloads, Encodable p)
    (few : payloads.length ≤ kMaxRecords) : readSnapshot payloads = some payloads := by
  have records := sealedRecords_encodable encodable
  have count : (sealedRecords (payloads.map encodeRecord)).length ≤ kMaxRecords := by
    rw [records, List.length_map]
    exact few
  have small : ∀ r ∈ payloads.map encodeRecord, r.length < 2 ^ 32 := by
    intro r member
    obtain ⟨p, among, rfl⟩ := List.mem_map.mp member
    exact encodeRecord_length (encodable p among)
  rw [readSnapshot, ClipboardPersistence.readBack, reads_plaintext count small, records]
  show some ((payloads.map encodeRecord).filterMap tryDecodeRecord) = some payloads
  rw [List.filterMap_map]
  congr 1
  conv_rhs => rw [← List.filterMap_some (l := payloads)]
  apply List.filterMap_congr
  intro p member
  exact encodable p member

theorem openSnapshot_few {A : Aead} {nonce : Nonce} {key : SealKey} {payloads : List ClipboardPayload}
    (ideal : A.Ideal kTagSize [sealingOf nonce kSnapshotMagic kVersion (payloads.map encodeRecord) key]) :
    ((openSnapshot A (sealSnapshot A nonce payloads key) key).getD []).length ≤ kMaxRecords := by
  rw [openSnapshot_sealed ideal, readSnapshot, ClipboardPersistence.readBack]
  cases framed : Reader.whole readRecords (plaintext (payloads.map encodeRecord)) with
  | none => exact Nat.zero_le _
  | some records => exact (List.length_filterMap_le _ _).trans (readRecords_bounds framed).1

end File

section Load

/-- What was added at `timestamp` is not beyond the age limit at `now`. -/
def Young (limits : ActivityLimits) (now timestamp : Int) : Prop :=
  limits.maxAgeSeconds = 0 ∨ 2 ^ 63 ≤ limits.maxAgeSeconds.toNat ∨ cutoff limits now ≤ timestamp

theorem expired_iff {now : Int} : expired limits now item = false ↔ Young limits now item.header.timestamp := by
  unfold expired Young
  rw [decide_eq_false_iff_not, not_and_or, not_and_or, not_not, not_lt, not_lt]

def freshly (limits : ActivityLimits) (now : Int) : Int := max now (cutoff limits now)

theorem young_freshly (limits : ActivityLimits) (now : Int) : Young limits now (freshly limits now) :=
  .inr (.inr (le_max_right _ _))

/-- The payloads come quickly enough that none of the items is beyond the age limit while they do. -/
structure Prompt (t : ClipboardActivityStore) (deliveries : List Delivery) : Prop where
  held : ∀ d ∈ deliveries, ∀ item ∈ t.items, Young t.limits d.clock.limited item.header.timestamp
  own : ∀ d ∈ deliveries, Young t.limits d.clock.limited d.clock.added
  earlier : deliveries.Pairwise (fun d e => Young t.limits e.clock.limited d.clock.added)

/-- The history is within the limits of its store. -/
structure WithinLimits (s : ClipboardActivityStore) : Prop where
  counted : s.limits.maxItems = 0 ∨ s.items.length ≤ s.limits.maxItems.toNat
  small : s.limits.memoryLimitBytes = 0 ∨ s.items.length ≤ 1 ∨ totalSize s.items ≤ s.limits.memoryLimitBytes.toNat
  addressable : totalSize s.items < 2 ^ 64

theorem totalSize_payloads (items : List ActivityItem) :
    totalSize items = ((items.map ActivityItem.payload).map (fun p => 256 + p.encoded.length)).sum := by
  rw [List.map_map]
  rfl

theorem totalSize_subperm (sub : (items.map ActivityItem.payload).Subperm (s.items.map ActivityItem.payload)) :
    totalSize items ≤ totalSize s.items := by
  obtain ⟨some, perm, sublist⟩ := sub
  rw [totalSize_payloads, totalSize_payloads, ← (perm.map _).sum_nat]
  exact (sublist.map _).sum_le_sum (fun _ _ => Nat.zero_le _)

theorem WithinLimits.kept (within : WithinLimits s) {now : Int}
    (sub : (items.map ActivityItem.payload).Subperm (s.items.map ActivityItem.payload))
    (young : ∀ item ∈ items, Young s.limits now item.header.timestamp) :
    applyLimits s.limits now items = (items, []) := by
  have fewer : items.length ≤ s.items.length := by
    have length := sub.length_le
    rwa [List.length_map, List.length_map] at length
  have less := totalSize_subperm sub
  apply applyLimits_of_roomy
  · exact fun item member => expired_iff.mpr (young item member)
  · exact within.counted.imp_right fewer.trans
  · rw [totalBytes_eq (less.trans_lt within.addressable)]
    exact within.small.imp_right (Or.imp fewer.trans less.trans)

/-- A store on the way from `t` to one with the history of `s`. -/
structure Loading (s t u : ClipboardActivityStore) (loaded : List ClipboardPayload) : Prop where
  good : WellFormed u
  limits : u.limits = s.limits
  among : ∀ item ∈ u.items, item.payload ∈ s.items.map ActivityItem.payload
  held : t.items.Sublist u.items
  has : ∀ p ∈ loaded, p ∈ u.items.map ActivityItem.payload

theorem payload_unique (good : WellFormed s) (stamped : ∀ item ∈ s.items, guidIsZero item.payload = false)
    (first : p ∈ s.items.map ActivityItem.payload) (second : q ∈ s.items.map ActivityItem.payload)
    (same : p.meta_.eventGuid = q.meta_.eventGuid) : p = q := by
  obtain ⟨a, inStore, rfl⟩ := List.mem_map.mp first
  obtain ⟨b, inStoreToo, rfl⟩ := List.mem_map.mp second
  rw [good.eq_of_sameEvent inStore inStoreToo (stamped a inStore) same]

theorem payloads_nodup (good : WellFormed u) (stamped : ∀ item ∈ u.items, guidIsZero item.payload = false) :
    (u.items.map ActivityItem.payload).Nodup := by
  apply List.Nodup.map_on
  · intro a first b second same
    exact good.eq_of_sameEvent first second (stamped a first) (by rw [same])
  · exact good.distinct.of_map

variable {loaded : List ClipboardPayload}

theorem Loading.stamped (loading : Loading s t u loaded)
    (stamped : ∀ item ∈ s.items, guidIsZero item.payload = false) :
    ∀ item ∈ u.items, guidIsZero item.payload = false := by
  intro item member
  obtain ⟨same, inStore, equal⟩ := List.mem_map.mp (loading.among item member)
  rw [← equal]
  exact stamped same inStore

theorem insertItem_sublist (item : ActivityItem) (items : List ActivityItem) : items.Sublist (insertItem item items) := by
  rw [insertItem_eq_orderedInsert]
  exact List.sublist_orderedInsert item items

theorem WithinLimits.inserted (within : WithinLimits s) (same : u.limits = s.limits)
    (stored : d.payload.meta_.formatId ≠ clippFormatNone) (absent : existing u.items d.payload = none)
    (sub : ((insertItem { header := { id := u.nextItemID, timestamp := d.clock.added }, payload := d.payload }
      u.items).map ActivityItem.payload).Subperm (s.items.map ActivityItem.payload))
    (held : ∀ item ∈ u.items, Young u.limits d.clock.limited item.header.timestamp)
    (own : Young u.limits d.clock.limited d.clock.added) :
    (u.addAll [d]).items =
      insertItem { header := { id := u.nextItemID, timestamp := d.clock.added }, payload := d.payload } u.items := by
  have fresh : ¬ Recorded u d.payload := by
    rintro (none | ⟨item, some, -⟩)
    · exact stored none
    · cases absent.symm.trans some
  have put : entered u d.clock d.payload = insertItem
      { header := { id := u.nextItemID, timestamp := d.clock.added }, payload := d.payload } u.items := by
    simp only [entered, absent]
  have young : ∀ item ∈ entered u d.clock d.payload, Young s.limits d.clock.limited item.header.timestamp := by
    intro item member
    rw [← same]
    rcases mem_insertItem.mp (put ▸ member) with rfl | old
    · exact own
    · exact held item old
  have items : (u.addAll [d]).items = (applyLimits u.limits d.clock.limited (entered u d.clock d.payload)).1 :=
    (addItem_entered d.clock fresh).1
  rw [items, same, within.kept (put ▸ sub) young, put]

theorem Loading.known {item : ActivityItem} (good : WellFormed s)
    (stamped : ∀ item ∈ s.items, guidIsZero item.payload = false) (loading : Loading s t u loaded)
    (listed : d.payload ∈ s.items.map ActivityItem.payload) (found : existing u.items d.payload = some item) :
    u.addAll [d] = u ∧ Loading s t u (loaded ++ [d.payload]) := by
  have known := existing_some found
  have same : item.payload = d.payload :=
    payload_unique good stamped (loading.among item known.member) listed known.same
  have recorded : Recorded u d.payload := .inr ⟨item, found, by rw [same]⟩
  have result : u.addAll [d] = (u.addItem d.clock d.payload).store := rfl
  rw [addItem_recorded recorded] at result
  refine ⟨result, loading.good, loading.limits, loading.among, loading.held, ?_⟩
  intro p member
  rcases List.mem_append.mp member with before | last
  · exact loading.has p before
  · rw [List.mem_singleton.mp last, ← same]
    exact List.mem_map_of_mem known.member

theorem Loading.insert {item : ActivityItem} (loading : Loading s t u loaded)
    (stamped : ∀ item ∈ s.items, guidIsZero item.payload = false)
    (listed : item.payload ∈ s.items.map ActivityItem.payload) (absent : existing u.items item.payload = none)
    (zero : guidIsZero item.payload = false) :
    ((insertItem item u.items).map ActivityItem.payload).Subperm (s.items.map ActivityItem.payload) := by
  apply List.subperm_of_subset
  · rw [((insertItem_perm _ _).map _).nodup_iff, List.map_cons, List.nodup_cons]
    refine ⟨fun taken => ?_, payloads_nodup loading.good (loading.stamped stamped)⟩
    obtain ⟨old, member, same⟩ := List.mem_map.mp taken
    exact existing_none absent zero old member (by rw [same])
  · intro p member
    obtain ⟨old, inside, rfl⟩ := List.mem_map.mp member
    rcases mem_insertItem.mp inside with rfl | before
    · exact listed
    · exact loading.among old before

theorem Loading.add (good : WellFormed s) (stamped : ∀ item ∈ s.items, guidIsZero item.payload = false)
    (within : WithinLimits s) (loading : Loading s t u loaded) (listed : d.payload ∈ s.items.map ActivityItem.payload)
    (held : ∀ item ∈ u.items, Young u.limits d.clock.limited item.header.timestamp)
    (own : Young u.limits d.clock.limited d.clock.added) :
    Loading s t (u.addAll [d]) (loaded ++ [d.payload]) ∧
      ∀ item ∈ (u.addAll [d]).items, item ∈ u.items ∨ item.header.timestamp = d.clock.added := by
  have goodAfter : WellFormed (u.addAll [d]) := loading.good.performed _
  obtain ⟨source, inStore, equal⟩ := List.mem_map.mp listed
  have zero : guidIsZero d.payload = false := equal ▸ stamped source inStore
  have stored : d.payload.meta_.formatId ≠ clippFormatNone := equal ▸ good.stored source inStore
  cases found : existing u.items d.payload with
  | some item =>
    obtain ⟨same, after⟩ := loading.known good stamped listed found
    rw [same]
    exact ⟨after, fun item member => .inl member⟩
  | none =>
    have items := within.inserted loading.limits stored found (loading.insert stamped listed found zero) held own
    have limits : (u.addAll [d]).limits = u.limits := addItem_limits d.clock d.payload
    refine ⟨⟨goodAfter, limits.trans loading.limits, ?_, ?_, ?_⟩, ?_⟩
    · rw [items]
      intro item member
      rcases mem_insertItem.mp member with rfl | old
      · exact listed
      · exact loading.among item old
    · rw [items]
      exact loading.held.trans (insertItem_sublist _ _)
    · intro p member
      rw [items, ((insertItem_perm _ _).map _).mem_iff, List.map_cons, List.mem_cons]
      rcases List.mem_append.mp member with before | last
      · exact .inr (loading.has p before)
      · exact .inl (List.mem_singleton.mp last)
    · intro item member
      rw [items] at member
      rcases mem_insertItem.mp member with rfl | old
      · exact .inr rfl
      · exact .inl old

theorem Loading.all (good : WellFormed s) (stamped : ∀ item ∈ s.items, guidIsZero item.payload = false)
    (within : WithinLimits s) (loading : Loading s t u loaded)
    (listed : ∀ d ∈ deliveries, d.payload ∈ s.items.map ActivityItem.payload) (prompt : Prompt u deliveries) :
    Loading s t (u.addAll deliveries) (loaded ++ deliveries.map Delivery.payload) := by
  induction deliveries generalizing u loaded with
  | nil =>
    rw [List.map_nil, List.append_nil]
    exact loading
  | cons first rest ih =>
    obtain ⟨next, origin⟩ := loading.add good stamped within (listed first List.mem_cons_self)
      (prompt.held first List.mem_cons_self) (prompt.own first List.mem_cons_self)
    have limits : (u.addAll [first]).limits = u.limits := next.limits.trans loading.limits.symm
    have earlier := List.pairwise_cons.mp prompt.earlier
    have onward : Prompt (u.addAll [first]) rest := by
      refine ⟨fun d member item inStore => ?_, fun d member => ?_, ?_⟩
      · rw [limits]
        rcases origin item inStore with old | new
        · exact prompt.held d (List.mem_cons_of_mem _ member) item old
        · rw [new]
          exact earlier.1 d member
      · rw [limits]
        exact prompt.own d (List.mem_cons_of_mem _ member)
      · rw [limits]
        exact earlier.2
    have rested := ih next (fun d member => listed d (List.mem_cons_of_mem _ member)) onward
    rwa [List.append_assoc] at rested

end Load

section Survival

/-- A relaunch: how the headers were sorted, and with what the file was sealed. -/
structure Relaunch (s : ClipboardActivityStore) where
  order : List ClipboardActivityItemHeader
  perm : order.Perm (s.items.map ActivityItem.header)
  newestFirst : order.Pairwise (fun a b => b.timestamp ≤ a.timestamp)
  cipher : Aead
  nonce : Nonce
  key : SealKey
  ideal : cipher.Ideal kTagSize
    [sealingOf nonce kSnapshotMagic kVersion ((collectSnapshotPayloads s order).map encodeRecord) key]

def Relaunch.file (r : Relaunch s) : List ClipboardPayload :=
  (openSnapshot r.cipher (sealSnapshot r.cipher r.nonce (collectSnapshotPayloads s r.order) r.key) r.key).getD []

def emptied (s : ClipboardActivityStore) : ClipboardActivityStore := { limits := s.limits }

/-- The file brings the history back, into a fresh store, once more, and next to a part of it. -/
structure Survives (s : ClipboardActivityStore) : Prop where
  fresh : ∀ (r : Relaunch s) deliveries, deliveries.map Delivery.payload = r.file → Prompt (emptied s) deliveries →
    ((emptied s).addAll deliveries).items.map ActivityItem.payload = s.items.map ActivityItem.payload
  again : ∀ (r : Relaunch s) first second, first.map Delivery.payload = r.file →
    second.map Delivery.payload = r.file → Prompt (emptied s) first →
    ((emptied s).addAll first).addAll second = (emptied s).addAll first
  onTop : ∀ (r : Relaunch s) t deliveries, WellFormed t → t.limits = s.limits →
    (∀ item ∈ t.items, item.payload ∈ s.items.map ActivityItem.payload) →
    deliveries.map Delivery.payload = r.file → Prompt t deliveries →
    (t.addAll deliveries).items.map ActivityItem.payload = s.items.map ActivityItem.payload ∧
      t.items.Sublist (t.addAll deliveries).items

/-- No two items have the same event time, each record can be decoded again, and the file and the byte limit take them
    all. -/
structure Survivable (s : ClipboardActivityStore) : Prop where
  decoded : ∀ item ∈ s.items, Encodable item.payload
  ascending : s.items.Pairwise (fun a b => a.payload.meta_.timestamp < b.payload.meta_.timestamp)
  few : s.items.length ≤ kMaxRecords
  small : s.limits.memoryLimitBytes = 0 ∨ s.items.length ≤ 1 ∨ totalSize s.items ≤ s.limits.memoryLimitBytes.toNat

/-- What is said of a history is about stamped items that can be encoded and are within the budget. -/
structure History (s : ClipboardActivityStore) : Prop where
  good : WellFormed s
  counted : Counted s
  stamped : ∀ item ∈ s.items, guidIsZero item.payload = false
  encoded : ∀ item ∈ s.items, encodeRecord item.payload ≠ []
  budget : encodedSize (s.items.map ActivityItem.payload) ≤ kSnapshotBudgetBytes

theorem totalSize_eq (items : List ActivityItem) :
    totalSize items = 256 * items.length + encodedSize (items.map ActivityItem.payload) := by
  induction items with
  | nil => rfl
  | cons first rest ih =>
    have left : totalSize (first :: rest) = 256 + first.payload.encoded.length + totalSize rest := rfl
    have right : encodedSize ((first :: rest).map ActivityItem.payload) =
        first.payload.encoded.length + encodedSize (rest.map ActivityItem.payload) := rfl
    rw [left, right, ih, List.length_cons]
    omega

variable {h : History s}

theorem History.addressable (h : History s) (few : s.items.length ≤ kMaxRecords) : totalSize s.items < 2 ^ 64 := by
  have budget := h.budget
  have bounds : kMaxRecords = 65535 ∧ kSnapshotBudgetBytes = 33554432 := by decide
  rw [totalSize_eq]
  omega

theorem History.collected (h : History s) (r : Relaunch s) :
    (collectSnapshotPayloads s r.order).Perm (s.items.map ActivityItem.payload) := collect_perm h.good r.perm h.budget

theorem History.file (h : History s) (decoded : ∀ item ∈ s.items, Encodable item.payload)
    (few : s.items.length ≤ kMaxRecords) (r : Relaunch s) :
    r.file.Perm (s.items.map ActivityItem.payload) := by
  have all := h.collected r
  have encodable : ∀ p ∈ collectSnapshotPayloads s r.order, Encodable p := by
    intro p member
    obtain ⟨item, inStore, rfl⟩ := List.mem_map.mp (all.mem_iff.mp member)
    exact decoded item inStore
  have count : (collectSnapshotPayloads s r.order).length ≤ kMaxRecords := by
    rw [all.length_eq, List.length_map]
    exact few
  rw [Relaunch.file, openSnapshot_sealed r.ideal, readSnapshot_encodable encodable count]
  exact all

theorem History.withinLimits (h : History s) (few : s.items.length ≤ kMaxRecords)
    (small : s.limits.memoryLimitBytes = 0 ∨ s.items.length ≤ 1 ∨
      totalSize s.items ≤ s.limits.memoryLimitBytes.toNat) : WithinLimits s where
  counted := or_iff_not_imp_left.mpr h.counted
  small := small
  addressable := h.addressable few

/-- A load next to a part of the history ends with all of it. -/
theorem History.loaded (h : History s) (within : WithinLimits s)
    (decoded : ∀ item ∈ s.items, Encodable item.payload) (few : s.items.length ≤ kMaxRecords) (r : Relaunch s)
    (good : WellFormed t) (limits : t.limits = s.limits)
    (among : ∀ item ∈ t.items, item.payload ∈ s.items.map ActivityItem.payload)
    (read : deliveries.map Delivery.payload = r.file) (prompt : Prompt t deliveries) :
    Loading s t (t.addAll deliveries) r.file ∧
      ((t.addAll deliveries).items.map ActivityItem.payload).Perm (s.items.map ActivityItem.payload) := by
  have file := h.file decoded few r
  have start : Loading s t t [] := ⟨good, limits, among, List.Sublist.refl _, fun _ none => nomatch none⟩
  have listed : ∀ d ∈ deliveries, d.payload ∈ s.items.map ActivityItem.payload := by
    intro d member
    apply file.mem_iff.mp
    rw [← read]
    exact List.mem_map_of_mem member
  have loading := start.all h.good h.stamped within listed prompt
  rw [List.nil_append, read] at loading
  refine ⟨loading, ?_⟩
  rw [List.perm_ext_iff_of_nodup (payloads_nodup loading.good (loading.stamped h.stamped))
    (payloads_nodup h.good h.stamped)]
  intro p
  constructor
  · intro member
    obtain ⟨item, inStore, rfl⟩ := List.mem_map.mp member
    exact loading.among item inStore
  · intro member
    exact loading.has p (file.mem_iff.mpr member)

theorem same_order (ascending : s.items.Pairwise (fun a b => a.payload.meta_.timestamp < b.payload.meta_.timestamp))
    (sorted : t.items.Pairwise Chronological)
    (perm : (t.items.map ActivityItem.payload).Perm (s.items.map ActivityItem.payload)) :
    t.items.map ActivityItem.payload = s.items.map ActivityItem.payload := by
  have strict : (s.items.map ActivityItem.payload).Pairwise (fun p q => p.meta_.timestamp < q.meta_.timestamp) :=
    List.pairwise_map.mpr ascending
  have apart : ∀ p ∈ s.items.map ActivityItem.payload, ∀ q ∈ s.items.map ActivityItem.payload,
      p.meta_.timestamp = q.meta_.timestamp → p = q := by
    intro p first q second tie
    by_contra different
    have symmetric : (s.items.map ActivityItem.payload).Pairwise (fun p q => p.meta_.timestamp ≠ q.meta_.timestamp) :=
      strict.imp (fun less => ne_of_lt less)
    have : Std.Symm (fun p q : ClipboardPayload => p.meta_.timestamp ≠ q.meta_.timestamp) := ⟨fun _ _ => Ne.symm⟩
    exact symmetric.forall first second different tie
  have inOrder : (t.items.map ActivityItem.payload).Pairwise (fun p q => p.meta_.timestamp ≤ q.meta_.timestamp) :=
    List.pairwise_map.mpr sorted
  apply List.Perm.eq_of_pairwise _ inOrder (strict.imp le_of_lt) perm
  intro p q first second le ge
  exact apart p (perm.mem_iff.mp first) q second (le_antisymm le ge)

theorem Survivable.survives (survivable : Survivable s) (h : History s) : Survives s := by
  have within := h.withinLimits survivable.few survivable.small
  have none : WellFormed (emptied s) := .fresh s.limits
  refine ⟨fun r deliveries read prompt => ?_, fun r first second read readAgain prompt => ?_,
    fun r t deliveries good limits among read prompt => ?_⟩
  · obtain ⟨loading, perm⟩ :=
      h.loaded within survivable.decoded survivable.few r none rfl (fun _ none => nomatch none) read prompt
    exact same_order survivable.ascending loading.good.sorted perm
  · obtain ⟨loading, -⟩ :=
      h.loaded within survivable.decoded survivable.few r none rfl (fun _ none => nomatch none) read prompt
    apply addAll_recorded
    intro d member
    have has := loading.has d.payload (readAgain ▸ List.mem_map_of_mem member)
    obtain ⟨item, inStore, same⟩ := List.mem_map.mp has
    rw [← same]
    exact recorded_of_mem loading.good inStore (loading.stamped h.stamped item inStore)
  · obtain ⟨loading, perm⟩ := h.loaded within survivable.decoded survivable.few r good limits among read prompt
    exact ⟨same_order survivable.ascending loading.good.sorted perm, loading.held⟩

def atOnce (limits : ActivityLimits) (now : Int) (payloads : List ClipboardPayload) : List Delivery :=
  payloads.map (fun p => { payload := p, clock := { added := freshly limits now, limited := now } })

theorem atOnce_payloads (limits : ActivityLimits) (now : Int) (payloads : List ClipboardPayload) :
    (atOnce limits now payloads).map Delivery.payload = payloads := by
  rw [atOnce, List.map_map]
  exact List.map_id _

theorem atOnce_prompt {now : Int} (young : ∀ item ∈ t.items, Young t.limits now item.header.timestamp)
    (payloads : List ClipboardPayload) : Prompt t (atOnce t.limits now payloads) where
  held d member item inStore := by
    obtain ⟨p, -, rfl⟩ := List.mem_map.mp member
    exact young item inStore
  own d member := by
    obtain ⟨p, -, rfl⟩ := List.mem_map.mp member
    exact young_freshly _ _
  earlier := List.pairwise_map.mpr (List.pairwise_of_forall (fun _ _ => young_freshly _ _))

theorem relaunch_exists (s : ClipboardActivityStore) : Nonempty (Relaunch s) := by
  let newest : ClipboardActivityItemHeader → ClipboardActivityItemHeader → Bool :=
    fun a b => decide (b.timestamp ≤ a.timestamp)
  let order := (s.items.map ActivityItem.header).mergeSort newest
  let nonce := repeatedByte kNonceSize 1
  let key := repeatedByte kSealKeyBytes 7
  let sealing := sealingOf nonce kSnapshotMagic kVersion ((collectSnapshotPayloads s order).map encodeRecord) key
  have sorted : order.Pairwise (fun a b => newest a b = true) := by
    apply List.pairwise_mergeSort
    · intro a b c first second
      exact decide_eq_true ((of_decide_eq_true second).trans (of_decide_eq_true first))
    · intro a b
      rcases le_total a.timestamp b.timestamp with le | ge
      · simp [newest, le]
      · simp [newest, ge]
  exact ⟨{
    order := order
    perm := List.mergeSort_perm _ _
    newestFirst := sorted.imp of_decide_eq_true
    cipher := Aead.table kTagSize sealing
    nonce := nonce
    key := key
    ideal := Aead.table_ideal kTagSize sealing }⟩

theorem removed_event (member : item ∈ s.items) (stamped : guidIsZero item.payload = false) :
    (s.removeByEventGuid item.payload.meta_.eventGuid).store.items = s.items.eraseP (sameGuid item.payload) ∧
      (s.removeByEventGuid item.payload.meta_.eventGuid).store.limits = s.limits := by
  have addressed : ¬ item.payload.meta_.eventGuid.val.all (· = 0) = true := Bool.eq_false_iff.mp stamped
  have some : ∃ a, s.items.find? (sameGuid item.payload) = some a := by
    cases found : s.items.find? (sameGuid item.payload) with
    | some a => exact ⟨a, rfl⟩
    | none => exact absurd (decide_eq_true rfl) (List.find?_eq_none.mp found item member)
  obtain ⟨a, found⟩ := some
  have result : s.removeByEventGuid item.payload.meta_.eventGuid = s.removeFirst (sameGuid item.payload) :=
    if_neg addressed
  rw [result]
  simp only [removeFirst, found, and_self]

theorem addAll_append (first second : List Delivery) : t.addAll (first ++ second) = (t.addAll first).addAll second := by
  rw [addAll, List.map_append, performed, List.foldl_append]
  rfl

theorem addAll_length (deliveries : List Delivery) :
    (t.addAll deliveries).items.length ≤ t.items.length + deliveries.length := by
  induction deliveries generalizing t with
  | nil => exact le_rfl
  | cons first rest ih =>
    have later := ih (t := t.addAll [first])
    have one : (t.addAll [first]).items.length ≤ t.items.length + 1 := by
      by_cases recorded : Recorded t first.payload
      · have same : t.addAll [first] = t := addItem_recorded recorded
        rw [same]
        exact Nat.le_succ _
      · have items : (t.addAll [first]).items = _ := (addItem_entered first.clock recorded).1
        have fewer := (applyLimits_sublist t.limits first.clock.limited (entered t first.clock first.payload)).length_le
        rw [items]
        apply fewer.trans
        unfold entered
        split
        · rw [(insertItem_perm _ _).length_eq, List.length_cons]
          exact Nat.succ_le_succ List.eraseP_sublist.length_le
        · rw [(insertItem_perm _ _).length_eq, List.length_cons]
    have both : t.addAll (first :: rest) = (t.addAll [first]).addAll rest := rfl
    rw [both, List.length_cons]
    omega

def deliveredSize (deliveries : List Delivery) : Nat := (deliveries.map (fun d => 256 + d.payload.encoded.length)).sum

theorem addAll_withinBytes {deliveries : List Delivery} (within : WithinBytes t)
    (fits : totalSize t.items + deliveredSize deliveries < 2 ^ 64) : WithinBytes (t.addAll deliveries) := by
  induction deliveries generalizing t with
  | nil => exact within
  | cons first rest ih =>
    have size : deliveredSize (first :: rest) = 256 + first.payload.encoded.length + deliveredSize rest := rfl
    have brought : broughtIn (Call.add first.payload) = 256 + first.payload.encoded.length := rfl
    have trimmed := perform_trimmed t { call := .add first.payload, clock := first.clock }
    have next : WithinBytes (t.addAll [first]) := within.step (by rw [Addressable, brought]; omega) trimmed
    have bound : totalSize (t.addAll [first]).items ≤ totalSize t.items + broughtIn (.add first.payload) := by
      cases trimmed with
      | fewer _ rest => exact (totalSize_sublist rest).trans (Nat.le_add_right _ _)
      | applied now all size kept =>
        have less := totalSize_sublist (applyLimits_sublist (t.addAll [first]).limits now all)
        exact (congrArg totalSize kept).le.trans (less.trans size)
    apply ih next
    omega

theorem addAll_limits (deliveries : List Delivery) : (t.addAll deliveries).limits = t.limits := by
  induction deliveries generalizing t with
  | nil => rfl
  | cons first rest ih =>
    have one : (t.addAll [first]).limits = t.limits := addItem_limits first.clock first.payload
    exact (ih (t := t.addAll [first])).trans one

theorem Survives.reloaded (survives : Survives s) (now : Int) (r : Relaunch s) :
    ((emptied s).addAll (atOnce s.limits now r.file)).items.map ActivityItem.payload =
      s.items.map ActivityItem.payload :=
  survives.fresh r _ (atOnce_payloads s.limits now r.file) (atOnce_prompt (fun _ none => absurd none List.not_mem_nil) _)

theorem Survives.few (survives : Survives s) : s.items.length ≤ kMaxRecords := by
  obtain ⟨r⟩ := relaunch_exists s
  have same := congrArg List.length (survives.reloaded 0 r)
  have length := addAll_length (t := emptied s) (atOnce s.limits 0 r.file)
  have read : r.file.length ≤ kMaxRecords := openSnapshot_few r.ideal
  have none : (emptied s).items.length = 0 := rfl
  have sizes : (atOnce s.limits 0 r.file).length = r.file.length := List.length_map _
  rw [List.length_map, List.length_map] at same
  omega

theorem addAll_sourced {deliveries : List Delivery} (held : p ∈ (t.addAll deliveries).items.map ActivityItem.payload) :
    p ∈ t.items.map ActivityItem.payload ∨ p ∈ deliveries.map Delivery.payload := by
  induction deliveries generalizing t with
  | nil => exact .inl held
  | cons first rest ih =>
    rcases ih (t := t.addAll [first]) held with before | later
    · rcases perform_sourced t { call := .add first.payload, clock := first.clock } p before with old | call
      · exact .inl old
      · cases call
        exact .inr List.mem_cons_self
    · exact .inr (List.mem_cons_of_mem _ later)

theorem Survives.decoded (survives : Survives s) (h : History s) : ∀ item ∈ s.items, Encodable item.payload := by
  intro item member
  obtain ⟨r⟩ := relaunch_exists s
  have back : item.payload ∈ ((emptied s).addAll (atOnce s.limits 0 r.file)).items.map ActivityItem.payload := by
    rw [survives.reloaded 0 r]
    exact List.mem_map_of_mem member
  have inFile : item.payload ∈ r.file := by
    have sourced := (addAll_sourced back).resolve_left List.not_mem_nil
    rwa [atOnce_payloads] at sourced
  rw [Relaunch.file, openSnapshot_sealed r.ideal, readSnapshot] at inFile
  cases read : ClipboardPersistence.readBack (collectSnapshotPayloads s r.order) with
  | none =>
    rw [read] at inFile
    exact absurd inFile List.not_mem_nil
  | some records =>
    rw [read] at inFile
    obtain ⟨record, -, opened⟩ := List.mem_filterMap.mp inFile
    rw [tryDecodeRecord_eq] at opened
    split_ifs at opened
    exact received_persists opened (h.encoded item member)

theorem Survives.small (survives : Survives s) (h : History s) : s.limits.memoryLimitBytes = 0 ∨
    s.items.length ≤ 1 ∨ totalSize s.items ≤ s.limits.memoryLimitBytes.toNat := by
  obtain ⟨r⟩ := relaunch_exists s
  have same := survives.reloaded 0 r
  have none : totalSize (emptied s).items = 0 := rfl
  have size : deliveredSize (atOnce s.limits 0 r.file) = totalSize s.items := by
    rw [deliveredSize, atOnce, List.map_map, totalSize_payloads]
    exact ((h.file (survives.decoded h) survives.few r).map _).sum_nat
  have fits : totalSize (emptied s).items + deliveredSize (atOnce s.limits 0 r.file) < 2 ^ 64 := by
    rw [none, size, Nat.zero_add]
    exact h.addressable survives.few
  have empty : WithinBytes (emptied s) := fun _ => .inl (none.trans_le (Nat.zero_le _))
  have within := addAll_withinBytes empty fits
  have limits : ((emptied s).addAll (atOnce s.limits 0 r.file)).limits = s.limits := addAll_limits _
  have total := congrArg (fun payloads => (payloads.map (fun p => 256 + p.encoded.length)).sum) same
  simp only [← totalSize_payloads] at total
  have length := congrArg List.length same
  rw [List.length_map, List.length_map] at length
  rw [WithinBytes, limits, total, length] at within
  by_cases unlimited : s.limits.memoryLimitBytes = 0
  · exact .inl unlimited
  · exact .inr (within unlimited).symm

theorem sublist_pair_asymm {α : Type} {x y : α} {l : List α} (nodup : l.Nodup) (first : [x, y].Sublist l) :
    ¬ [y, x].Sublist l := by
  intro second
  induction l with
  | nil => cases first
  | cons head rest ih =>
    obtain ⟨outside, inner⟩ := List.nodup_cons.mp nodup
    rcases List.cons_sublist_cons'.mp first with below | ⟨rfl, last⟩
    · rcases List.cons_sublist_cons'.mp second with both | ⟨rfl, -⟩
      · exact ih inner below both
      · exact outside (below.subset (List.mem_cons_of_mem _ List.mem_cons_self))
    · rcases List.cons_sublist_cons'.mp second with both | ⟨rfl, same⟩
      · exact outside (both.subset (List.mem_cons_of_mem _ List.mem_cons_self))
      · exact outside (List.singleton_sublist.mp same)

theorem insertItem_tie (member : a ∈ items) (tie : a.payload.meta_.timestamp = item.payload.meta_.timestamp) :
    [item, a].Sublist (insertItem item items) := by
  have behind : a ∈ items.dropWhile (older · item) := by
    have inside : a ∈ items.takeWhile (older · item) ++ items.dropWhile (older · item) := by
      rwa [List.takeWhile_append_dropWhile]
    rcases List.mem_append.mp inside with front | back
    · have isOlder := List.mem_takeWhile_imp front
      rw [older, tie, decide_eq_true_eq] at isOlder
      exact absurd isOlder (lt_irrefl _)
    · exact back
  apply List.sublist_append_of_sublist_right
  exact (List.singleton_sublist.mpr behind).cons_cons item

theorem atOnce_recorded {now : Int} {payloads : List ClipboardPayload} (recorded : ∀ p ∈ payloads, Recorded t p) :
    t.addAll (atOnce limits now payloads) = t := by
  apply addAll_recorded
  intro d among
  obtain ⟨p, inside, rfl⟩ := List.mem_map.mp among
  exact recorded p inside

theorem History.recorded_of_others (h : History s) (all : (a :: t.items).Perm s.items) (good : WellFormed u)
    (kept : ∀ item ∈ t.items, item ∈ u.items) (among : p ∈ s.items.map ActivityItem.payload) (ne : p ≠ a.payload) :
    Recorded u p := by
  obtain ⟨item, inStore, rfl⟩ := List.mem_map.mp among
  rcases List.mem_cons.mp (all.mem_iff.mpr inStore) with rfl | other
  · exact absurd rfl ne
  · exact recorded_of_mem good (kept item other) (h.stamped item inStore)

theorem History.put_back (h : History s) (within : WithinLimits s)
    (decoded : ∀ item ∈ s.items, Encodable item.payload) (few : s.items.length ≤ kMaxRecords)
    (r : Relaunch s) {now : Int} (young : ∀ item ∈ s.items, Young s.limits now item.header.timestamp)
    (member : a ∈ s.items) (others : t.items = s.items.eraseP (sameGuid a.payload)) (limits : t.limits = s.limits)
    (good : WellFormed t) : (t.addAll (atOnce s.limits now r.file)).items =
      insertItem { header := { id := t.nextItemID, timestamp := freshly s.limits now }, payload := a.payload }
        t.items := by
  have stamped := h.stamped a member
  have found : existing s.items a.payload = some a := by
    obtain ⟨item, found, -⟩ := (recorded_of_mem h.good member stamped).resolve_left (h.good.stored a member)
    exact found.trans (congrArg some (h.good.eq_of_existing found member rfl).symm)
  have all : (a :: t.items).Perm s.items := others ▸ eraseP_perm found
  have absent : existing t.items a.payload = none := by
    unfold existing
    rw [stamped, if_neg Bool.false_ne_true]
    apply List.find?_eq_none.mpr
    intro item inStore
    rw [others] at inStore
    simpa [sameGuid] using (mem_others h.good found inStore).2
  have file := h.file decoded few r
  have nodup : r.file.Nodup := file.nodup_iff.mpr (payloads_nodup h.good h.stamped)
  obtain ⟨front, back, split⟩ := List.append_of_mem (file.mem_iff.mpr (List.mem_map_of_mem member))
  rw [split] at file nodup
  obtain ⟨outside, -⟩ := List.nodup_cons.mp (List.perm_middle.nodup_iff.mp nodup)
  have known : ∀ u, WellFormed u → (∀ item ∈ t.items, item ∈ u.items) → ∀ p ∈ front ++ back, Recorded u p := by
    intro u goodToo kept p among
    have inFile : p ∈ front ++ a.payload :: back := List.perm_middle.mem_iff.mpr (List.mem_cons_of_mem _ among)
    apply h.recorded_of_others all goodToo kept (file.mem_iff.mp inFile)
    rintro rfl
    exact outside among
  have before : t.addAll (atOnce s.limits now front) = t :=
    atOnce_recorded (fun p inFront => known t good (fun _ same => same) p (List.mem_append_left _ inFront))
  have middle : (t.addAll (atOnce s.limits now [a.payload])).items =
      insertItem { header := { id := t.nextItemID, timestamp := freshly s.limits now }, payload := a.payload }
        t.items := by
    apply within.inserted limits (h.good.stored a member) absent
    · apply List.Perm.subperm
      apply ((insertItem_perm _ _).map ActivityItem.payload).trans
      exact all.map ActivityItem.payload
    · intro item inStore
      rw [limits]
      exact young item (all.subset (List.mem_cons_of_mem _ inStore))
    · rw [limits]
      exact young_freshly _ _
  have after : (t.addAll (atOnce s.limits now [a.payload])).addAll (atOnce s.limits now back) =
      t.addAll (atOnce s.limits now [a.payload]) := by
    have goodToo : WellFormed (t.addAll (atOnce s.limits now [a.payload])) := good.performed _
    apply atOnce_recorded
    intro p inBack
    apply known _ goodToo _ p (List.mem_append_right _ inBack)
    intro item inStore
    rw [middle]
    exact (insertItem_sublist _ _).subset inStore
  have parts : atOnce s.limits now r.file =
      atOnce s.limits now front ++ (atOnce s.limits now [a.payload] ++ atOnce s.limits now back) := by
    rw [split, atOnce, List.map_append]
    rfl
  rw [parts, addAll_append, before, addAll_append, after, middle]

theorem Survives.ascending (survives : Survives s) (h : History s) {now : Int}
    (young : ∀ item ∈ s.items, Young s.limits now item.header.timestamp) :
    s.items.Pairwise (fun a b => a.payload.meta_.timestamp < b.payload.meta_.timestamp) := by
  apply List.pairwise_iff_forall_sublist.mpr
  intro x y sub
  by_contra notLess
  have tie := le_antisymm (List.pairwise_iff_forall_sublist.mp h.good.sorted sub) (not_lt.mp notLess)
  have first : x ∈ s.items := sub.subset List.mem_cons_self
  have second : y ∈ s.items := sub.subset (List.mem_cons_of_mem _ List.mem_cons_self)
  have nodup := payloads_nodup h.good h.stamped
  have inOrder : [x.payload, y.payload].Sublist (s.items.map ActivityItem.payload) := sub.map ActivityItem.payload
  obtain ⟨r⟩ := relaunch_exists s
  -- the store without `y`, as the user leaves it
  let t := (s.removeByEventGuid y.payload.meta_.eventGuid).store
  have good : WellFormed t := h.good.step (perform_changed s
    { call := .removeByEventGuid y.payload.meta_.eventGuid, clock := { added := now, limited := now } })
  obtain ⟨others, limits⟩ := removed_event second (h.stamped y second)
  have restOf : t.items.Sublist s.items := by
    rw [show t.items = _ from others]
    exact List.eraseP_sublist
  have within := h.withinLimits survives.few (survives.small h)
  have put := h.put_back within (survives.decoded h) survives.few r young second others limits good
  have stays : x ∈ t.items := by
    rw [show t.items = _ from others]
    apply (List.mem_eraseP_of_neg _).mpr first
    intro same
    rw [sameGuid, decide_eq_true_eq] at same
    rw [h.good.eq_of_sameEvent first second (h.stamped x first) same] at inOrder
    exact absurd (nodup.sublist inOrder) (by simp)
  have same := (survives.onTop r t _ good limits
    (fun item inStore => List.mem_map_of_mem (restOf.subset inStore)) (atOnce_payloads t.limits now r.file)
    (atOnce_prompt (fun item inStore => limits ▸ young item (restOf.subset inStore)) _)).1
  rw [show t.limits = s.limits from limits, put] at same
  let new : ActivityItem :=
    { header := { id := t.nextItemID, timestamp := freshly s.limits now }, payload := y.payload }
  have inFront : [new, x].Sublist (insertItem new t.items) := insertItem_tie stays tie
  have reversed : [y.payload, x.payload].Sublist (s.items.map ActivityItem.payload) :=
    same ▸ inFront.map ActivityItem.payload
  exact sublist_pair_asymm nodup inOrder reversed

theorem snapshotted_eq (events : List Event) (now : Int) : snapshotted events now =
    performed {} (events ++ [{ call := .snapshot, clock := { added := now, limited := now } }]) := by
  rw [performed_snoc]
  rfl

theorem snapshotted_young {events : List Event} {now : Int} (member : item ∈ (snapshotted events now).items) :
    Young (snapshotted events now).limits now item.header.timestamp := by
  apply expired_iff.mp
  have limited : item ∈ (applyLimits (performed {} events).limits now (performed {} events).items).1 := member
  have among := (withinMemory_suffix _ _).subset limited
  have young := (List.mem_filter.mp (List.mem_of_mem_drop among)).2
  rw [Bool.not_eq_true'] at young
  exact young

theorem snapshotted_history {events : List Event} {now : Int}
    (stamped : ∀ item ∈ (snapshotted events now).items, guidIsZero item.payload = false)
    (encoded : ∀ item ∈ (snapshotted events now).items, encodeRecord item.payload ≠ [])
    (budget : encodedSize ((snapshotted events now).items.map ActivityItem.payload) ≤ kSnapshotBudgetBytes) :
    History (snapshotted events now) := by
  have run := snapshotted_eq events now
  exact ⟨run ▸ (WellFormed.fresh {}).performed _, run ▸ performed_counted _, stamped, encoded, budget⟩

/-- A history of stamped items that can be encoded and are within the budget survives a relaunch exactly if no two
    of them have the same event time, each record can be decoded again, and the file and the byte limit take them
    all. -/
theorem history_survives_relaunch_iff (events : List Event) (now : Int)
    (stamped : ∀ item ∈ (snapshotted events now).items, guidIsZero item.payload = false)
    (encoded : ∀ item ∈ (snapshotted events now).items, encodeRecord item.payload ≠ [])
    (budget : encodedSize ((snapshotted events now).items.map ActivityItem.payload) ≤ kSnapshotBudgetBytes) :
    Survives (snapshotted events now) ↔ Survivable (snapshotted events now) := by
  have h := snapshotted_history stamped encoded budget
  constructor
  · intro survives
    exact ⟨survives.decoded h, survives.ascending h (fun item member => snapshotted_young member), survives.few,
      survives.small h⟩
  · intro survivable
    exact survivable.survives h

end Survival

open Redelivery

def addedAt (b : UInt8) (timestamp : UInt64) : Event where
  call := .add (text b timestamp)
  clock := { added := 0, limited := 0 }

instance encodableDecidable : DecidablePred Encodable :=
  fun p => inferInstanceAs (Decidable (tryDecodeRecord (encodeRecord p) = some p))

theorem history_of_two_survives : Survives (snapshotted [addedAt 0x61 1, addedAt 0x62 2] 0) :=
  (history_survives_relaunch_iff _ _ (by decide +kernel) (by decide +kernel) (by decide +kernel)).mpr
    ⟨by decide +kernel, by decide +kernel, by decide +kernel, by decide +kernel⟩

/-- Two items of one millisecond do not come back in their order. -/
theorem history_of_one_millisecond_reversed : ¬ ∀ events now,
    (∀ item ∈ (snapshotted events now).items, guidIsZero item.payload = false) →
    (∀ item ∈ (snapshotted events now).items, Encodable item.payload) →
    encodedSize ((snapshotted events now).items.map ActivityItem.payload) ≤ kSnapshotBudgetBytes →
    Survives (snapshotted events now) := by
  intro survive
  have h : History (snapshotted [addedAt 0x61 1, addedAt 0x62 1] 0) :=
    snapshotted_history (by decide +kernel) (by decide +kernel) (by decide +kernel)
  have survives := survive [addedAt 0x61 1, addedAt 0x62 1] 0 h.stamped (by decide +kernel) h.budget
  have ascending := survives.ascending h (fun item member => snapshotted_young member)
  exact absurd ascending (by decide +kernel)

end ClippProof.Clipboard
