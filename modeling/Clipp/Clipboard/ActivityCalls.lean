import Clipp.Clipboard.Activity
import Clipp.Foundation.FixedWidth
import Mathlib.Data.List.Pairwise
import Mathlib.Data.List.Sort
import Mathlib.Data.List.TakeWhile

open Foundation

namespace ClippModel.Clipboard.ClipboardActivityStore

open ClippModel.Persistence

structure Change where
  store : ClipboardActivityStore
  updates : List ClipboardActivityUpdate
  deriving DecidableEq

structure Removal where
  store : ClipboardActivityStore
  removed : Bool
  updates : List ClipboardActivityUpdate
  deriving DecidableEq

def removeFirst (s : ClipboardActivityStore) (meant : ActivityItem → Bool) : Removal :=
  match s.items.find? meant with
  | none => { store := s, removed := false, updates := [] }
  | some found =>
    { store := { s with items := s.items.eraseP meant }
      removed := true
      updates := [.removed found.header.id] }

def remove (s : ClipboardActivityStore) (itemID : Nat) : Removal :=
  s.removeFirst (fun item => item.header.id = itemID)

/-- Unstamped items are not addressable by wire identity. -/
def removeByEventGuid (s : ClipboardActivityStore) (eventGuid : Sized 16) : Removal :=
  if eventGuid.val.all (· = 0) then { store := s, removed := false, updates := [] }
  else s.removeFirst (fun item => item.payload.meta_.eventGuid = eventGuid)

def clear (s : ClipboardActivityStore) : Change :=
  if s.items.isEmpty then { store := s, updates := [] }
  else { store := { s with items := [] }, updates := [.cleared] }

def applyLimitsLocked (s : ClipboardActivityStore) (now : Int) : Change :=
  let limited := applyLimits s.limits now s.items
  { store := { s with items := limited.1 }, updates := limited.2 }

def setLimits (s : ClipboardActivityStore) (limits : ActivityLimits) (now : Int) : Change :=
  { s with limits := limits }.applyLimitsLocked now

/-- The calls that change the store; to take a snapshot applies the limits. -/
inductive Call where
  | add (payload : ClipboardPayload)
  | remove (itemID : Nat)
  | removeByEventGuid (eventGuid : Sized 16)
  | clear
  | setLimits (limits : ActivityLimits)
  | snapshot

structure Event where
  call : Call
  clock : ActivityClock

def perform (s : ClipboardActivityStore) (e : Event) : Change :=
  match e.call with
  | .add payload => { store := (s.addItem e.clock payload).store, updates := (s.addItem e.clock payload).updates }
  | .remove itemID => { store := (s.remove itemID).store, updates := (s.remove itemID).updates }
  | .removeByEventGuid eventGuid =>
    { store := (s.removeByEventGuid eventGuid).store, updates := (s.removeByEventGuid eventGuid).updates }
  | .clear => s.clear
  | .setLimits limits => s.setLimits limits e.clock.limited
  | .snapshot => s.applyLimitsLocked e.clock.limited

def performed (s : ClipboardActivityStore) (events : List Event) : ClipboardActivityStore :=
  events.foldl (fun s e => (s.perform e).store) s

end ClippModel.Clipboard.ClipboardActivityStore

namespace ClippProof.Clipboard

open ClippModel.Persistence ClippModel.Clipboard ClippModel.Clipboard.ClipboardActivityStore

variable {s t : ClipboardActivityStore} {e : Event} {events before since : List Event} {p : ClipboardPayload}
  {item a b : ActivityItem} {items : List ActivityItem} {limits : ActivityLimits} {now : Int}

def Chronological (a b : ActivityItem) : Prop := a.payload.meta_.timestamp ≤ b.payload.meta_.timestamp

instance chronologicalDecidable : DecidableRel Chronological :=
  fun a b => inferInstanceAs (Decidable (a.payload.meta_.timestamp ≤ b.payload.meta_.timestamp))

instance chronologicalTotal : Std.Total Chronological := ⟨fun a _ => le_total a.payload.meta_.timestamp _⟩

instance chronologicalTrans : IsTrans ActivityItem Chronological := ⟨fun _ _ _ first second => le_trans first second⟩

theorem insertItem_eq_orderedInsert (item : ActivityItem) (items : List ActivityItem) :
    insertItem item items = items.orderedInsert Chronological item := by
  have same : (fun b => decide (¬ Chronological item b)) = (older · item) := by
    funext b
    simp only [Chronological, older, not_le]
  rw [List.orderedInsert_eq_take_drop, same, insertItem]

theorem sorted_insertItem (sorted : items.Pairwise Chronological) (item : ActivityItem) :
    (insertItem item items).Pairwise Chronological := by
  rw [insertItem_eq_orderedInsert]
  exact sorted.orderedInsert item items

theorem existing_none (absent : existing s.items p = none) (stamped : guidIsZero p = false) :
    ∀ item ∈ s.items, item.payload.meta_.eventGuid ≠ p.meta_.eventGuid := by
  intro item member same
  simp only [existing, stamped, Bool.false_eq_true, if_false] at absent
  exact List.find?_eq_none.mp absent item member (decide_eq_true same)

structure Existing (s : ClipboardActivityStore) (p : ClipboardPayload) (item : ActivityItem) : Prop where
  stamped : guidIsZero p = false
  member : item ∈ s.items
  same : item.payload.meta_.eventGuid = p.meta_.eventGuid

theorem existing_some (found : existing s.items p = some item) : Existing s p item := by
  unfold existing at found
  split_ifs at found with zero
  exact ⟨Bool.eq_false_iff.mpr zero, List.mem_of_find?_eq_some found, by simpa [sameGuid] using List.find?_some found⟩

/-- What a call does to the items: some go, and an item put in is new, or the one of its event moved. -/
inductive Changed (s : ClipboardActivityStore) (e : Event) (t : ClipboardActivityStore) : Prop where
  | fewer (rest : t.items.Sublist s.items) (next : t.nextItemID = s.nextItemID)
      (known : ∀ p, e.call = .add p → Recorded s p)
  | added (p : ClipboardPayload) (header : ClipboardActivityItemHeader) (call : e.call = .add p)
      (stored : p.meta_.formatId ≠ clippFormatNone) (absent : existing s.items p = none)
      (id : header.id = s.nextItemID) (rest : t.items.Sublist (insertItem { header := header, payload := p } s.items))
      (next : t.nextItemID = s.nextItemID + 1)
  | moved (p : ClipboardPayload) (item : ActivityItem) (header : ClipboardActivityItemHeader) (call : e.call = .add p)
      (stored : p.meta_.formatId ≠ clippFormatNone) (found : existing s.items p = some item)
      (newer : item.payload.meta_.timestamp < p.meta_.timestamp) (id : header.id = item.header.id)
      (rest : t.items.Sublist (insertItem { header := header, payload := p } (s.items.eraseP (sameGuid p))))
      (next : t.nextItemID = s.nextItemID)

theorem removeFirst_sublist (s : ClipboardActivityStore) (meant : ActivityItem → Bool) :
    (s.removeFirst meant).store.items.Sublist s.items ∧
      (s.removeFirst meant).store.nextItemID = s.nextItemID ∧ (s.removeFirst meant).store.limits = s.limits := by
  unfold removeFirst
  split
  · exact ⟨List.Sublist.refl _, rfl, rfl⟩
  · exact ⟨List.eraseP_sublist, rfl, rfl⟩

def entered (s : ClipboardActivityStore) (clock : ActivityClock) (p : ClipboardPayload) : List ActivityItem :=
  match existing s.items p with
  | some item =>
    insertItem { header := { id := item.header.id, timestamp := clock.added }, payload := p }
      (s.items.eraseP (sameGuid p))
  | none => insertItem { header := { id := s.nextItemID, timestamp := clock.added }, payload := p } s.items

theorem addItem_entered (clock : ActivityClock) (fresh : ¬ Recorded s p) :
    (s.addItem clock p).store.items = (applyLimits s.limits clock.limited (entered s clock p)).1 ∧
      (s.addItem clock p).store.limits = s.limits := by
  have stored : p.meta_.formatId ≠ clippFormatNone := fun none => fresh (.inl none)
  cases found : existing s.items p with
  | none => simp only [addItem, entered, stored, if_false, found, place, and_self]
  | some item =>
    have newer : ¬ p.meta_.timestamp ≤ item.payload.meta_.timestamp :=
      fun notNewer => fresh (.inr ⟨item, found, notNewer⟩)
    simp only [addItem, entered, stored, if_false, found, newer, place, and_self]

theorem addItem_limits (clock : ActivityClock) (p : ClipboardPayload) :
    (s.addItem clock p).store.limits = s.limits := by
  by_cases recorded : Recorded s p
  · rw [addItem_recorded recorded]
  · exact (addItem_entered clock recorded).2

theorem addItem_changed (call : e.call = .add p) : Changed s e (s.addItem e.clock p).store := by
  have known : ∀ q, e.call = .add q → q = p := by
    intro q other
    rw [call] at other
    exact (Call.add.inj other).symm
  by_cases recorded : Recorded s p
  · rw [addItem_recorded recorded]
    exact .fewer (List.Sublist.refl _) rfl (fun q other => known q other ▸ recorded)
  · have stored : p.meta_.formatId ≠ clippFormatNone := fun none => recorded (.inl none)
    cases found : existing s.items p with
    | none =>
      simp only [addItem, stored, if_false, found, place]
      exact .added p _ call stored found rfl (applyLimits_sublist _ _ _) rfl
    | some item =>
      have newer : ¬ p.meta_.timestamp ≤ item.payload.meta_.timestamp :=
        fun notNewer => recorded (.inr ⟨item, found, notNewer⟩)
      simp only [addItem, stored, if_false, found, newer, place]
      exact .moved p item { id := item.header.id, timestamp := e.clock.added } call stored found (not_le.mp newer)
        rfl (applyLimits_sublist _ _ _) rfl

theorem perform_changed (s : ClipboardActivityStore) (e : Event) : Changed s e (s.perform e).store := by
  obtain ⟨call, clock⟩ := e
  cases call with
  | add p => exact addItem_changed rfl
  | remove itemID =>
    have gone := removeFirst_sublist s (fun item => item.header.id = itemID)
    exact .fewer gone.1 gone.2.1 (fun _ add => nomatch add)
  | removeByEventGuid eventGuid =>
    show Changed s _ (s.removeByEventGuid eventGuid).store
    unfold removeByEventGuid
    split_ifs
    · exact .fewer (List.Sublist.refl _) rfl (fun _ add => nomatch add)
    · have gone := removeFirst_sublist s (fun item => item.payload.meta_.eventGuid = eventGuid)
      exact .fewer gone.1 gone.2.1 (fun _ add => nomatch add)
  | clear =>
    show Changed s _ s.clear.store
    unfold clear
    split_ifs
    · exact .fewer (List.Sublist.refl _) rfl (fun _ add => nomatch add)
    · exact .fewer (List.nil_sublist _) rfl (fun _ add => nomatch add)
  | setLimits limits => exact .fewer (applyLimits_sublist _ _ _) rfl (fun _ add => nomatch add)
  | snapshot => exact .fewer (applyLimits_sublist _ _ _) rfl (fun _ add => nomatch add)

theorem perform_sourced (s : ClipboardActivityStore) (event : Event) :
    ∀ q ∈ (s.perform event).store.items.map ActivityItem.payload,
      q ∈ s.items.map ActivityItem.payload ∨ event.call = .add q := by
  intro q held
  obtain ⟨item, member, rfl⟩ := List.mem_map.mp held
  cases perform_changed s event with
  | fewer rest _ _ => exact .inl (List.mem_map_of_mem (rest.subset member))
  | added payload header call stored absent _ rest _ =>
    rcases mem_insertItem.mp (rest.subset member) with rfl | old
    · exact .inr call
    · exact .inl (List.mem_map_of_mem old)
  | moved payload item' header call stored found newer _ rest _ =>
    rcases mem_insertItem.mp (rest.subset member) with rfl | old
    · exact .inr call
    · exact .inl (List.mem_map_of_mem (List.mem_of_mem_eraseP old))

def Apart (a b : ActivityItem) : Prop :=
  ¬ (guidIsZero a.payload = false ∧ a.payload.meta_.eventGuid = b.payload.meta_.eventGuid)

theorem Apart.symm (apart : Apart a b) : Apart b a := by
  rintro ⟨stamped, same⟩
  exact apart ⟨by rwa [guidIsZero, ← same], same.symm⟩

instance apartSymm : Std.Symm Apart := ⟨fun _ _ => Apart.symm⟩

/-- The representation invariant of the store, limits apart. -/
structure WellFormed (s : ClipboardActivityStore) : Prop where
  sorted : s.items.Pairwise Chronological
  distinct : (s.items.map (fun item => item.header.id)).Nodup
  numbered : ∀ item ∈ s.items, 0 < item.header.id ∧ item.header.id < s.nextItemID
  oneEach : s.items.Pairwise Apart
  stored : ∀ item ∈ s.items, item.payload.meta_.formatId ≠ clippFormatNone
  positive : 0 < s.nextItemID

theorem WellFormed.fresh (limits : ActivityLimits) : WellFormed { limits := limits } where
  sorted := .nil
  distinct := List.nodup_nil
  numbered _ member := nomatch member
  oneEach := .nil
  stored _ member := nomatch member
  positive := Nat.one_pos

theorem WellFormed.eq_of_sameEvent (good : WellFormed s) (first : a ∈ s.items) (second : b ∈ s.items)
    (stamped : guidIsZero a.payload = false) (same : a.payload.meta_.eventGuid = b.payload.meta_.eventGuid) :
    a = b := by
  by_contra different
  exact good.oneEach.forall first second different ⟨stamped, same⟩

theorem WellFormed.eq_of_existing (good : WellFormed s) (found : existing s.items p = some item)
    (member : a ∈ s.items) (same : a.payload.meta_.eventGuid = p.meta_.eventGuid) : a = item := by
  have known := existing_some found
  have stamped : guidIsZero a.payload = false := by
    rw [guidIsZero, same]
    exact known.stamped
  exact good.eq_of_sameEvent member known.member stamped (same.trans known.same.symm)

theorem mem_others (good : WellFormed s) (found : existing s.items p = some item)
    (member : a ∈ s.items.eraseP (sameGuid p)) :
    a ∈ s.items ∧ a.payload.meta_.eventGuid ≠ p.meta_.eventGuid := by
  have inStore := List.mem_of_mem_eraseP member
  refine ⟨inStore, fun same => ?_⟩
  have twice : (item :: s.items.eraseP (sameGuid p)).Pairwise Apart :=
    (eraseP_perm found).symm.pairwise good.oneEach Apart.symm
  have here := good.eq_of_existing found inStore same
  subst here
  have stamped : guidIsZero a.payload = false := by
    rw [guidIsZero, same]
    exact (existing_some found).stamped
  exact (List.pairwise_cons.mp twice).1 a member ⟨stamped, rfl⟩

theorem wellFormed_insert {others : List ActivityItem} (sorted : others.Pairwise Chronological)
    (distinct : ((item :: others).map (fun item => item.header.id)).Nodup)
    (numbered : ∀ a ∈ item :: others, 0 < a.header.id ∧ a.header.id < t.nextItemID)
    (oneEach : (item :: others).Pairwise Apart)
    (stored : ∀ a ∈ item :: others, a.payload.meta_.formatId ≠ clippFormatNone) (positive : 0 < t.nextItemID)
    (rest : t.items.Sublist (insertItem item others)) : WellFormed t where
  sorted := (sorted_insertItem sorted item).sublist rest
  distinct := (((insertItem_perm item others).map _).nodup_iff.mpr distinct).sublist (rest.map _)
  numbered a member := numbered a ((insertItem_perm item others).mem_iff.mp (rest.subset member))
  oneEach := ((insertItem_perm item others).symm.pairwise oneEach
    Apart.symm).sublist rest
  stored a member := stored a ((insertItem_perm item others).mem_iff.mp (rest.subset member))
  positive := positive

theorem WellFormed.step (good : WellFormed s) (changed : Changed s e t) : WellFormed t := by
  cases changed with
  | fewer rest next _ =>
    exact {
      sorted := good.sorted.sublist rest
      distinct := good.distinct.sublist (rest.map _)
      numbered := fun a member => next ▸ good.numbered a (rest.subset member)
      oneEach := good.oneEach.sublist rest
      stored := fun a member => good.stored a (rest.subset member)
      positive := next ▸ good.positive }
  | added p header call stored absent id rest next =>
    have below : ∀ a ∈ s.items, 0 < a.header.id ∧ a.header.id < t.nextItemID := by
      intro a member
      have old := good.numbered a member
      omega
    apply wellFormed_insert good.sorted _ _ _ _ _ rest
    · rw [List.map_cons, List.nodup_cons]
      refine ⟨fun taken => ?_, good.distinct⟩
      obtain ⟨a, member, same⟩ := List.mem_map.mp taken
      have old := (good.numbered a member).2
      dsimp only at same
      omega
    · have positive := good.positive
      exact List.forall_mem_cons.mpr ⟨⟨by dsimp only; omega, by dsimp only; omega⟩, below⟩
    · refine List.pairwise_cons.mpr ⟨fun a member same => ?_, good.oneEach⟩
      exact existing_none absent same.1 a member same.2.symm
    · exact List.forall_mem_cons.mpr ⟨stored, good.stored⟩
    · omega
  | moved p item header call stored found newer id rest next =>
    have known := existing_some found
    have all := eraseP_perm found
    have parts : (item :: s.items.eraseP (sameGuid p)).Pairwise Apart :=
      all.symm.pairwise good.oneEach Apart.symm
    have ids : ((item :: s.items.eraseP (sameGuid p)).map (fun item => item.header.id)).Nodup :=
      (all.map _).nodup_iff.mpr good.distinct
    apply wellFormed_insert (good.sorted.sublist List.eraseP_sublist) _ _ _ _ _ rest
    · rw [List.map_cons, List.nodup_cons] at ids ⊢
      dsimp only
      rw [id]
      exact ids
    · have old := good.numbered item known.member
      refine List.forall_mem_cons.mpr ⟨?_, fun a member => ?_⟩
      · dsimp only
        rw [id, next]
        exact old
      · rw [next]
        exact good.numbered a (List.mem_of_mem_eraseP member)
    · rw [List.pairwise_cons] at parts ⊢
      refine ⟨fun a member same => parts.1 a member ?_, parts.2⟩
      exact ⟨by rw [guidIsZero, known.same]; exact same.1, known.same.trans same.2⟩
    · exact List.forall_mem_cons.mpr ⟨stored, fun a member => good.stored a (List.mem_of_mem_eraseP member)⟩
    · exact next ▸ good.positive

theorem WellFormed.performed (good : WellFormed s) (events : List Event) : WellFormed (s.performed events) := by
  induction events generalizing s with
  | nil => exact good
  | cons first rest ih => exact ih (good.step (perform_changed s first))

end ClippProof.Clipboard
