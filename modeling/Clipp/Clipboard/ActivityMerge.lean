import Clipp.Clipboard.ActivityRepresentation
import Clipp.Clipboard.Wire

open Foundation

namespace ClippModel.Clipboard.ClipboardActivityStore

structure Delivery where
  payload : ClipboardPayload
  clock : ActivityClock

def addAll (s : ClipboardActivityStore) (deliveries : List Delivery) : ClipboardActivityStore :=
  s.performed (deliveries.map (fun d => { call := .add d.payload, clock := d.clock }))

end ClippModel.Clipboard.ClipboardActivityStore

namespace ClippProof.Clipboard

open ClippModel.Persistence ClippModel.Clipboard ClippModel.Clipboard.ClipboardActivityStore

variable {s t : ClipboardActivityStore} {p q : ClipboardPayload} {item a b : ActivityItem} {clock : ActivityClock}
  {deliveries first second : List Delivery} {d : Delivery}

def unlimited : ActivityLimits where
  memoryLimitBytes := 0
  maxAgeSeconds := 0
  maxItems := 0

theorem applyLimits_unlimited (now : Int) (items : List ActivityItem) :
    applyLimits unlimited now items = (items, []) :=
  applyLimits_of_roomy (fun _ _ => rfl) (.inl rfl) (.inl rfl)

theorem mem_entered (good : WellFormed s) (stamped : guidIsZero p = false) :
    a ∈ entered s clock p →
      a.payload = p ∨ a ∈ s.items ∧ a.payload.meta_.eventGuid ≠ p.meta_.eventGuid := by
  intro member
  unfold entered at member
  split at member
  · rename_i item found
    rcases mem_insertItem.mp member with rfl | other
    · exact .inl rfl
    · exact .inr (mem_others good found other)
  · rename_i absent
    rcases mem_insertItem.mp member with rfl | other
    · exact .inl rfl
    · exact .inr ⟨other, existing_none absent stamped a other⟩

theorem entered_new (s : ClipboardActivityStore) (clock : ActivityClock) (p : ClipboardPayload) :
    ∃ a ∈ entered s clock p, a.payload = p := by
  unfold entered
  split
  · exact ⟨_, (insertItem_perm _ _).mem_iff.mpr List.mem_cons_self, rfl⟩
  · exact ⟨_, (insertItem_perm _ _).mem_iff.mpr List.mem_cons_self, rfl⟩

theorem entered_keeps (member : a ∈ s.items) (other : a.payload.meta_.eventGuid ≠ p.meta_.eventGuid) :
    a ∈ entered s clock p := by
  unfold entered
  split
  · have kept : a ∈ s.items.eraseP (sameGuid p) :=
      (List.mem_eraseP_of_neg (by simpa [sameGuid] using other)).mpr member
    exact (insertItem_perm _ _).mem_iff.mpr (List.mem_cons_of_mem _ kept)
  · exact (insertItem_perm _ _).mem_iff.mpr (List.mem_cons_of_mem _ member)

/-- What a store without limits keeps of the payloads it was given: of every event the newest. -/
structure Newest (s : ClipboardActivityStore) (given : List ClipboardPayload) : Prop where
  limits : s.limits = unlimited
  good : WellFormed s
  known : ∀ item ∈ s.items, item.payload ∈ given
  newest : ∀ item ∈ s.items, ∀ p ∈ given, p.meta_.formatId ≠ clippFormatNone →
    p.meta_.eventGuid = item.payload.meta_.eventGuid → p.meta_.timestamp ≤ item.payload.meta_.timestamp
  present : ∀ p ∈ given, p.meta_.formatId ≠ clippFormatNone →
    ∃ item ∈ s.items, item.payload.meta_.eventGuid = p.meta_.eventGuid

theorem Newest.fresh : Newest { limits := unlimited } [] where
  limits := rfl
  good := .fresh unlimited
  known _ member := nomatch member
  newest _ member := nomatch member
  present _ member := nomatch member

theorem Newest.passed {given : List ClipboardPayload} (n : Newest s given) (recorded : Recorded s p) :
    Newest s (given ++ [p]) := by
  refine ⟨n.limits, n.good, fun item member => List.mem_append_left _ (n.known item member), ?_, ?_⟩
  · intro item member q among stored same
    rcases List.mem_append.mp among with before | last
    · exact n.newest item member q before stored same
    · rw [List.mem_singleton.mp last] at stored same ⊢
      obtain ⟨old, found, notNewer⟩ := recorded.resolve_left stored
      rwa [n.good.eq_of_existing found member same.symm]
  · intro q among stored
    rcases List.mem_append.mp among with before | last
    · exact n.present q before stored
    · rw [List.mem_singleton.mp last] at stored ⊢
      obtain ⟨old, found, -⟩ := recorded.resolve_left stored
      exact ⟨old, (existing_some found).member, (existing_some found).same⟩

theorem older_of_unrecorded (good : WellFormed s) (stamped : guidIsZero p = false) (unrecorded : ¬ Recorded s p)
    (member : item ∈ s.items) (same : item.payload.meta_.eventGuid = p.meta_.eventGuid) :
    item.payload.meta_.timestamp ≤ p.meta_.timestamp := by
  cases found : existing s.items p with
  | none => exact absurd same (existing_none found stamped item member)
  | some old =>
    rw [good.eq_of_existing found member same]
    exact (not_le.mp (fun notNewer => unrecorded (.inr ⟨old, found, notNewer⟩))).le

theorem Newest.entered {given : List ClipboardPayload} (n : Newest s given) (good : WellFormed t)
    (limits : t.limits = s.limits) (items : t.items = entered s clock p) (stamped : guidIsZero p = false)
    (unrecorded : ¬ Recorded s p) : Newest t (given ++ [p]) := by
  refine ⟨limits.trans n.limits, good, ?_, ?_, ?_⟩
  · intro item member
    rw [items] at member
    rcases mem_entered n.good stamped member with new | ⟨old, -⟩
    · rw [new]
      exact List.mem_append_right _ List.mem_cons_self
    · exact List.mem_append_left _ (n.known item old)
  · intro item member q among stored same
    rw [items] at member
    rcases List.mem_append.mp among with before | last
    · rcases mem_entered n.good stamped member with new | ⟨old, -⟩
      · rw [new] at same ⊢
        obtain ⟨stale, inStore, guid⟩ := n.present q before stored
        have older := older_of_unrecorded n.good stamped unrecorded inStore (guid.trans same)
        exact (n.newest stale inStore q before stored guid.symm).trans older
      · exact n.newest item old q before stored same
    · rw [List.mem_singleton.mp last] at same ⊢
      rcases mem_entered n.good stamped member with new | ⟨-, other⟩
      · rw [new]
      · exact absurd same.symm other
  · intro q among stored
    rw [items]
    obtain ⟨new, member, payload⟩ := entered_new s clock p
    rcases List.mem_append.mp among with before | last
    · obtain ⟨stale, inStore, guid⟩ := n.present q before stored
      by_cases same : stale.payload.meta_.eventGuid = p.meta_.eventGuid
      · exact ⟨new, member, by rw [payload, ← same, guid]⟩
      · exact ⟨stale, entered_keeps inStore same, guid⟩
    · exact ⟨new, member, by rw [payload, List.mem_singleton.mp last]⟩

theorem Newest.add {given : List ClipboardPayload} (n : Newest s given) (stamped : guidIsZero d.payload = false) :
    Newest (s.addAll [d]) (given ++ [d.payload]) := by
  have good : WellFormed (s.addAll [d]) := n.good.performed _
  have result : s.addAll [d] = (s.addItem d.clock d.payload).store := rfl
  by_cases recorded : Recorded s d.payload
  · rw [addItem_recorded recorded] at result
    rw [result]
    exact n.passed recorded
  · obtain ⟨items, limits⟩ := addItem_entered d.clock recorded
    rw [n.limits, applyLimits_unlimited] at items
    exact n.entered good limits items stamped recorded

theorem Newest.addAll {given : List ClipboardPayload} (n : Newest s given) (deliveries : List Delivery)
    (stamped : ∀ d ∈ deliveries, guidIsZero d.payload = false) :
    Newest (s.addAll deliveries) (given ++ deliveries.map Delivery.payload) := by
  induction deliveries generalizing s given with
  | nil =>
    rw [List.map_nil, List.append_nil]
    exact n
  | cons first rest ih =>
    have one := n.add (stamped first List.mem_cons_self)
    have all := ih one (fun d member => stamped d (List.mem_cons_of_mem _ member))
    rwa [List.append_assoc] at all

def payloadOf (s : ClipboardActivityStore) (eventGuid : Sized 16) : Option ClipboardPayload :=
  (s.items.find? (fun item => item.payload.meta_.eventGuid = eventGuid)).map ActivityItem.payload

theorem payloadOf_some {eventGuid : Sized 16} (found : payloadOf s eventGuid = some p) :
    ∃ item ∈ s.items, item.payload = p ∧ p.meta_.eventGuid = eventGuid := by
  obtain ⟨item, first, rfl⟩ := Option.map_eq_some_iff.mp found
  exact ⟨item, List.mem_of_find?_eq_some first, rfl, by simpa using List.find?_some first⟩

theorem payloadOf_of_mem (good : WellFormed s) (member : item ∈ s.items) (stamped : guidIsZero item.payload = false) :
    payloadOf s item.payload.meta_.eventGuid = some item.payload := by
  cases found : s.items.find? (fun a => a.payload.meta_.eventGuid = item.payload.meta_.eventGuid) with
  | none => exact absurd (decide_eq_true rfl) (List.find?_eq_none.mp found item member)
  | some other =>
    have same : other.payload.meta_.eventGuid = item.payload.meta_.eventGuid := by simpa using List.find?_some found
    have here := good.eq_of_sameEvent member (List.mem_of_find?_eq_some found) stamped same.symm
    rw [payloadOf, found, Option.map_some, here]

/-- Equal times of one event mean equal payloads. -/
def OnePayloadEach (given : List ClipboardPayload) : Prop :=
  ∀ p ∈ given, ∀ q ∈ given, p.meta_.eventGuid = q.meta_.eventGuid → p.meta_.timestamp = q.meta_.timestamp → p = q

theorem Newest.le {left right : List ClipboardPayload} {eventGuid : Sized 16} (n : Newest s left) (m : Newest t right)
    (same : ∀ p, p ∈ left ↔ p ∈ right) (stamped : ∀ p ∈ left, guidIsZero p = false) (consistent : OnePayloadEach left)
    (found : payloadOf s eventGuid = some p) : payloadOf t eventGuid = some p := by
  obtain ⟨item, member, rfl, rfl⟩ := payloadOf_some found
  have given := n.known item member
  have stored := n.good.stored item member
  obtain ⟨other, inOther, guid⟩ := m.present item.payload ((same _).mp given) stored
  have otherGiven := (same _).mpr (m.known other inOther)
  have newer := n.newest item member other.payload otherGiven (m.good.stored other inOther) guid
  have older := m.newest other inOther item.payload ((same _).mp given) stored guid.symm
  have equal : other.payload = item.payload := consistent _ otherGiven _ given guid (le_antisymm newer older)
  rw [← equal]
  apply payloadOf_of_mem m.good inOther
  exact stamped _ otherGiven

theorem newest_unique {left right : List ClipboardPayload} (n : Newest s left) (m : Newest t right)
    (same : ∀ p, p ∈ left ↔ p ∈ right) (stamped : ∀ p ∈ left, guidIsZero p = false) (consistent : OnePayloadEach left) :
    payloadOf s = payloadOf t := by
  funext eventGuid
  have back : OnePayloadEach right := fun p one q two => consistent p ((same p).mpr one) q ((same q).mpr two)
  cases found : payloadOf s eventGuid with
  | some p => exact (n.le m same stamped consistent found).symm
  | none =>
    cases other : payloadOf t eventGuid with
    | none => rfl
    | some q =>
      have here := m.le n (fun p => (same p).symm) (fun p member => stamped p ((same p).mpr member)) back other
      rw [found] at here
      cases here

theorem recorded_of_mem (good : WellFormed s) (member : item ∈ s.items) (stamped : guidIsZero item.payload = false) :
    Recorded s item.payload := by
  cases found : existing s.items item.payload with
  | none => exact absurd rfl (existing_none found stamped item member)
  | some old => exact .inr ⟨old, found, by rw [good.eq_of_existing found member rfl]⟩

theorem itemsSince_stored {fromGuid : Bytes} {maxItems : UInt64} (served : p ∈ s.itemsSince fromGuid maxItems) :
    ∃ item ∈ s.items, item.payload = p := by
  unfold itemsSince at served
  split_ifs at served
  · cases served
  all_goals
    obtain ⟨item, taken, rfl⟩ := List.mem_map.mp served
    exact ⟨item, List.mem_of_mem_drop (List.mem_of_mem_take taken), rfl⟩

theorem addAll_recorded (deliveries : List Delivery) (recorded : ∀ d ∈ deliveries, Recorded s d.payload) :
    s.addAll deliveries = s := by
  induction deliveries with
  | nil => rfl
  | cons first rest ih =>
    have one : (s.addItem first.clock first.payload).store = s := addItem_recorded (recorded first List.mem_cons_self)
    show addAll (s.addItem first.clock first.payload).store rest = s
    rw [one]
    exact ih (fun d member => recorded d (List.mem_cons_of_mem _ member))

/-- Neither the order in which payloads come nor how often says what a store without limits ends with, and
    no store is changed by what it serves. -/
structure MergesAlike : Prop where
  anyOrder : ∀ first second : List Delivery,
    (∀ p, p ∈ first.map Delivery.payload ↔ p ∈ second.map Delivery.payload) →
    (∀ d ∈ first, guidIsZero d.payload = false) → OnePayloadEach (first.map Delivery.payload) →
    payloadOf (addAll { limits := unlimited } first) = payloadOf (addAll { limits := unlimited } second)
  replayed : ∀ (events : List Event) (maxItems : UInt64) (replay : List Delivery),
    (∀ item ∈ (performed {} events).items, guidIsZero item.payload = false) →
    replay.map Delivery.payload = (performed {} events).itemsSince (List.replicate 16 0) maxItems →
    (performed {} events).addAll replay = performed {} events

theorem activity_merges_alike : MergesAlike := by
  constructor
  · intro first second same stamped consistent
    have stampedAll : ∀ p ∈ first.map Delivery.payload, guidIsZero p = false := by
      intro p member
      obtain ⟨d, among, rfl⟩ := List.mem_map.mp member
      exact stamped d among
    have stampedToo : ∀ d ∈ second, guidIsZero d.payload = false :=
      fun d member => stampedAll _ ((same _).mpr (List.mem_map_of_mem member))
    exact newest_unique (Newest.fresh.addAll first stamped) (Newest.fresh.addAll second stampedToo) same stampedAll
      consistent
  · intro events maxItems replay stamped served
    have good : WellFormed (performed {} events) := (WellFormed.fresh {}).performed events
    apply addAll_recorded
    intro d member
    have one : d.payload ∈ (performed {} events).itemsSince (List.replicate 16 0) maxItems :=
      served ▸ List.mem_map_of_mem member
    obtain ⟨item, inStore, same⟩ := itemsSince_stored one
    rw [← same]
    exact recorded_of_mem good inStore (stamped item inStore)

namespace MergeSample

/-- A text from a device; the guid 0 is that of an item that no device has stamped. -/
def stampedText (guid : UInt8) (timestamp : UInt64) : ClipboardPayload :=
  { blankPayload clippFormatUtf8 with
    meta_ := { ClipboardMessage.zero with
      formatId := clippFormatUtf8
      timestamp := timestamp
      eventGuid := ⟨guid :: List.replicate 15 0, rfl⟩ } }

def told (guid : UInt8) (timestamp : UInt64) (now : Int) : Delivery where
  payload := stampedText guid timestamp
  clock := { added := now, limited := now }

def toldOnce : List Delivery := [told 1 1 10, told 2 2 20, told 1 3 30]

/-- The same texts, the newest of the first event too early and the others again. -/
def toldAnew : List Delivery := [told 1 3 5, told 2 2 6, told 1 1 7, told 2 2 8]

def recorded : List Event := [{ call := .add (stampedText 1 1), clock := { added := 10, limited := 10 } }]

end MergeSample

open MergeSample

theorem told_anew_merges_alike :
    payloadOf (addAll { limits := unlimited } toldOnce) = payloadOf (addAll { limits := unlimited } toldAnew) ∧
      (performed {} recorded).addAll [told 1 1 90] = performed {} recorded := by
  constructor
  · apply activity_merges_alike.anyOrder
    · intro p
      simp only [toldOnce, toldAnew, told, List.map_cons, List.map_nil, List.mem_cons, List.not_mem_nil, or_false]
      tauto
    · decide
    · unfold OnePayloadEach
      decide
  · exact activity_merges_alike.replayed recorded 5 [told 1 1 90] (by decide) (by decide)

end ClippProof.Clipboard
