import Clipp.Clipboard.ActivityLimits
import Clipp.Foundation.Machine
import Mathlib.Data.List.Induction
import Mathlib.Order.Bounds.Basic

open Foundation

namespace ClippProof.Clipboard

open ClippModel.Persistence ClippModel.Clipboard ClippModel.Clipboard.ClipboardActivityStore

variable {s t : ClipboardActivityStore} {e : Event} {events : List Event} {p : ClipboardPayload} {item a b : ActivityItem}
  {eventGuid : Sized 16} {time : UInt64}

def Holds (s : ClipboardActivityStore) (eventGuid : Sized 16) : Prop :=
  ∃ item ∈ s.items, item.payload.meta_.eventGuid = eventGuid

/-- The call hands over a payload of the event with this time; one without a format is not taken. -/
def Adds (eventGuid : Sized 16) (time : UInt64) (e : Event) : Prop :=
  ∃ p, e.call = .add p ∧ p.meta_.formatId ≠ clippFormatNone ∧ p.meta_.eventGuid = eventGuid ∧ p.meta_.timestamp = time

theorem adds_iff (call : e.call = .add p) (stored : p.meta_.formatId ≠ clippFormatNone) :
    Adds eventGuid time e ↔ p.meta_.eventGuid = eventGuid ∧ p.meta_.timestamp = time := by
  constructor
  · rintro ⟨q, other, -, same⟩
    rw [call] at other
    rwa [Call.add.inj other]
  · intro same
    exact ⟨p, call, stored, same⟩

theorem item_origin (good : WellFormed s) (changed : Changed s e t) (member : item ∈ t.items)
    (stamped : guidIsZero item.payload = false) :
    (item ∈ s.items ∧ ∀ time, Adds item.payload.meta_.eventGuid time e → time ≤ item.payload.meta_.timestamp) ∨
      (∀ time, Adds item.payload.meta_.eventGuid time e ↔ item.payload.meta_.timestamp = time) ∧
        (item.header.id = s.nextItemID ∧ ¬ Holds s item.payload.meta_.eventGuid ∨
          ∃ old ∈ s.items, old.payload.meta_.eventGuid = item.payload.meta_.eventGuid ∧
            old.header.id = item.header.id ∧ old.payload.meta_.timestamp < item.payload.meta_.timestamp) := by
  cases changed with
  | fewer rest _ known =>
    refine .inl ⟨rest.subset member, ?_⟩
    rintro time ⟨p, call, stored, same, rfl⟩
    obtain ⟨old, found, notNewer⟩ := (known p call).resolve_left stored
    rwa [good.eq_of_existing found (rest.subset member) same.symm]
  | added p header call stored absent id rest _ =>
    rcases mem_insertItem.mp (rest.subset member) with rfl | old
    · refine .inr ⟨fun time => (adds_iff call stored).trans (and_iff_right rfl), .inl ⟨id, ?_⟩⟩
      rintro ⟨old, inStore, same⟩
      exact existing_none absent stamped old inStore same
    · refine .inl ⟨old, fun time adds => ?_⟩
      have same := ((adds_iff call stored).mp adds).1
      have zero : guidIsZero p = false := by rwa [guidIsZero, same]
      exact absurd same.symm (existing_none absent zero item old)
  | moved p old header call stored found newer id rest _ =>
    have known := existing_some found
    rcases mem_insertItem.mp (rest.subset member) with rfl | other
    · refine .inr ⟨fun time => (adds_iff call stored).trans (and_iff_right rfl), .inr ?_⟩
      exact ⟨old, known.member, known.same, id.symm, newer⟩
    · obtain ⟨inStore, different⟩ := mem_others good found other
      exact .inl ⟨inStore, fun time adds => absurd ((adds_iff call stored).mp adds).1.symm different⟩

theorem moved_keeps_id (good : WellFormed s) (changed : Changed s e t) (before : a ∈ s.items) (after : b ∈ t.items)
    (stamped : guidIsZero b.payload = false) (same : a.payload.meta_.eventGuid = b.payload.meta_.eventGuid) :
    a.header.id = b.header.id := by
  have stampedToo : guidIsZero a.payload = false := by rwa [guidIsZero, same]
  rcases item_origin good changed after stamped with ⟨kept, -⟩ | ⟨-, ⟨-, fresh⟩ | ⟨old, member, guid, id, -⟩⟩
  · rw [good.eq_of_sameEvent before kept stampedToo same]
  · exact absurd ⟨a, before, same⟩ fresh
  · rw [good.eq_of_sameEvent before member stampedToo (same.trans guid.symm), id]

theorem id_origin (changed : Changed s e t) (member : item ∈ t.items) :
    item.header.id = s.nextItemID ∨ ∃ old ∈ s.items, old.header.id = item.header.id := by
  cases changed with
  | fewer rest _ _ => exact .inr ⟨item, rest.subset member, rfl⟩
  | added p header call stored absent id rest _ =>
    rcases mem_insertItem.mp (rest.subset member) with rfl | old
    · exact .inl id
    · exact .inr ⟨item, old, rfl⟩
  | moved p old header call stored found newer id rest _ =>
    rcases mem_insertItem.mp (rest.subset member) with rfl | other
    · exact .inr ⟨old, (existing_some found).member, id.symm⟩
    · exact .inr ⟨item, List.mem_of_mem_eraseP other, rfl⟩

theorem next_le (changed : Changed s e t) : s.nextItemID ≤ t.nextItemID := by
  cases changed with
  | fewer _ next _ => exact next.ge
  | added p header call stored absent id _ next => omega
  | moved p old header call stored found newer id _ next => exact next.ge

theorem id_stays_unused {id : Nat} (given : id < s.nextItemID) (unused : ∀ item ∈ s.items, item.header.id ≠ id)
    (events : List Event) : ∀ item ∈ (s.performed events).items, item.header.id ≠ id := by
  induction events generalizing s with
  | nil => exact unused
  | cons first rest ih =>
    have changed := perform_changed s first
    apply ih (given.trans_le (next_le changed))
    intro item member same
    rcases id_origin changed member with fresh | ⟨old, inStore, kept⟩
    · omega
    · exact unused old inStore (kept.trans same)

theorem performed_append (s : ClipboardActivityStore) (before since : List Event) :
    s.performed (before ++ since) = (s.performed before).performed since := List.foldl_append

theorem performed_snoc (s : ClipboardActivityStore) (events : List Event) (e : Event) :
    s.performed (events ++ [e]) = ((s.performed events).perform e).store := performed_append s events [e]

theorem greatest_since (good : WellFormed s) (absent : ¬ Holds s eventGuid) (since : List Event)
    (present : ∀ first rest, since = first ++ rest → first ≠ [] → Holds (s.performed first) eventGuid)
    (member : item ∈ (s.performed since).items) (same : item.payload.meta_.eventGuid = eventGuid)
    (stamped : guidIsZero item.payload = false) :
    IsGreatest {time | ∃ e ∈ since, Adds eventGuid time e} item.payload.meta_.timestamp := by
  subst same
  induction since using List.reverseRecOn generalizing item with
  | nil => exact absurd ⟨item, member, rfl⟩ absent
  | append_singleton init e ih =>
    rw [performed_snoc] at member
    have goodBefore := good.performed init
    have changed := perform_changed (s.performed init) e
    -- an earlier item of the event is the greatest of what was added until then
    have earlier : ∀ old ∈ (s.performed init).items, old.payload.meta_.eventGuid = item.payload.meta_.eventGuid →
        IsGreatest {time | ∃ e ∈ init, Adds item.payload.meta_.eventGuid time e} old.payload.meta_.timestamp := by
      intro old inStore guid
      have stampedToo : guidIsZero old.payload = false := by rwa [guidIsZero, guid]
      rw [← guid] at absent present ⊢
      apply ih inStore stampedToo absent
      intro first rest split nonempty
      exact present first (rest ++ [e]) (by rw [split, List.append_assoc]) nonempty
    rcases item_origin goodBefore changed member stamped with ⟨kept, older⟩ | ⟨adds, origin⟩
    · obtain ⟨⟨witness, inside, added⟩, greatest⟩ := earlier item kept rfl
      refine ⟨⟨witness, List.mem_append_left _ inside, added⟩, ?_⟩
      rintro time ⟨adder, among, adding⟩
      rcases List.mem_append.mp among with before | last
      · exact greatest ⟨adder, before, adding⟩
      · rw [List.mem_singleton.mp last] at adding
        exact older time adding
    · refine ⟨⟨e, List.mem_append_right _ List.mem_cons_self, (adds _).mpr rfl⟩, ?_⟩
      rintro time ⟨adder, among, adding⟩
      rcases List.mem_append.mp among with before | last
      · rcases origin with ⟨-, fresh⟩ | ⟨old, inStore, guid, -, newer⟩
        · have nonempty : init ≠ [] := List.ne_nil_of_mem before
          exact absurd (present init [e] rfl nonempty) fresh
        · exact ((earlier old inStore guid).2 ⟨adder, before, adding⟩).trans newer.le
      · rw [List.mem_singleton.mp last] at adding
        exact ((adds time).mp adding).ge

def history (s : ClipboardActivityStore) (e : Event) : Option ClipboardActivityStore := some (s.perform e).store

/-- The items of a store that served any calls. The bound on the bytes is one for runs that meet the condition. -/
structure Representation (fits : ClipboardActivityStore → Event → Prop) : Prop where
  sorted : ∀ events, (performed {} events).items.Pairwise Chronological
  uniqueIDs : ∀ events, ((performed {} events).items.map (fun item => item.header.id)).Nodup
  neverReused : ∀ before between after,
    ∀ item ∈ (performed {} before).items,
      (∀ a ∈ (performed {} (before ++ between)).items, a.header.id ≠ item.header.id) →
      ∀ a ∈ (performed {} (before ++ between ++ after)).items, a.header.id ≠ item.header.id
  oneEach : ∀ events, ∀ a ∈ (performed {} events).items, ∀ b ∈ (performed {} events).items,
    guidIsZero a.payload = false → a.payload.meta_.eventGuid = b.payload.meta_.eventGuid → a = b
  greatest : ∀ before since, ∀ item ∈ (performed {} (before ++ since)).items, guidIsZero item.payload = false →
    ¬ Holds (performed {} before) item.payload.meta_.eventGuid →
    (∀ first rest, since = first ++ rest → first ≠ [] →
      Holds (performed {} (before ++ first)) item.payload.meta_.eventGuid) →
    IsGreatest {time | ∃ e ∈ since, Adds item.payload.meta_.eventGuid time e} item.payload.meta_.timestamp
  movedKeepsID : ∀ events e, ∀ a ∈ (performed {} events).items, ∀ b ∈ (performed {} (events ++ [e])).items,
    guidIsZero b.payload = false → a.payload.meta_.eventGuid = b.payload.meta_.eventGuid → a.header.id = b.header.id
  withinItems : ∀ events, (performed {} events).limits.maxItems ≠ 0 →
    (performed {} events).items.length ≤ (performed {} events).limits.maxItems.toNat
  withinBytes : ∀ events s, Path history fits {} events s → s.limits.memoryLimitBytes ≠ 0 →
    totalSize s.items ≤ s.limits.memoryLimitBytes.toNat ∨ s.items.length ≤ 1

theorem performed_counted (events : List Event) : Counted (performed {} events) := by
  induction events using List.reverseRecOn with
  | nil => exact fun _ => Nat.zero_le _
  | append_singleton init e ih =>
    rw [performed_snoc]
    exact ih.step (perform_trimmed _ e)

/-- As long as the bytes of the stored items can be summed up in 64 bits, all of it holds. -/
theorem activity_store_representation : Representation Addressable := by
  have good : ∀ events, WellFormed (performed {} events) := (WellFormed.fresh {}).performed
  refine {
    sorted := fun events => (good events).sorted
    uniqueIDs := fun events => (good events).distinct
    neverReused := fun before between after item member unused => ?_
    oneEach := fun events a first b second stamped same => (good events).eq_of_sameEvent first second stamped same
    greatest := fun before since item member stamped absent present => ?_
    movedKeepsID := fun events e a first b second stamped same => ?_
    withinItems := performed_counted
    withinBytes := fun events s path => ?_ }
  · have given : item.header.id < (performed {} before).nextItemID := ((good before).numbered item member).2
    have later : item.header.id < (performed {} (before ++ between)).nextItemID := by
      rw [performed_append]
      clear unused
      induction between using List.reverseRecOn with
      | nil => exact given
      | append_singleton init e ih =>
        rw [performed_snoc]
        exact ih.trans_le (next_le (perform_changed _ e))
    rw [performed_append]
    exact id_stays_unused later unused after
  · rw [performed_append] at member
    exact greatest_since (good before) absent since (fun first rest split nonempty => by
      rw [← performed_append]
      exact present first rest split nonempty) member rfl stamped
  · rw [performed_snoc] at second
    exact moved_keeps_id (good events) (perform_changed _ e) first second stamped same
  · have start : WithinBytes {} := fun _ => .inr (Nat.zero_le 1)
    exact path.invariant WithinBytes (fun s e next within fits taken => by
      cases taken
      exact within.step fits (perform_trimmed s e)) start

namespace Saturated

def wide : ActivityLimits where
  memoryLimitBytes := maxWord
  maxAgeSeconds := 0
  maxItems := 0

/-- Unstamped content of almost 4 GiB. -/
def large : ClipboardPayload where
  meta_ := { ClipboardMessage.zero with formatId := clippFormatUtf8 }
  encoded := List.replicate (2 ^ 32 - 256) 0

def at_ (call : Call) : Event := { call := call, clock := { added := 0, limited := 0 } }

def copying (n : Nat) : List Event := at_ (.setLimits wide) :: List.replicate n (at_ (.add large))

structure Copies (n : Nat) (s : ClipboardActivityStore) : Prop where
  limits : s.limits = wide
  count : s.items.length = n
  same : ∀ item ∈ s.items, item.payload = large

theorem estimate_large (same : item.payload = large) : estimateItemBytes item = 2 ^ 32 := by
  have length : large.encoded.length = 2 ^ 32 - 256 := List.length_replicate
  rw [estimateItemBytes, same, length]
  decide

theorem Copies.total {n : Nat} (copies : Copies n s) : totalSize s.items = n * 2 ^ 32 := by
  have each : s.items.map estimateItemBytes = List.replicate n (2 ^ 32) := by
    rw [List.eq_replicate_iff, List.length_map]
    refine ⟨copies.count, fun size member => ?_⟩
    obtain ⟨item, inStore, rfl⟩ := List.mem_map.mp member
    exact estimate_large (copies.same item inStore)
  rw [totalSize, each, List.sum_replicate_nat]

/-- The sum of the sizes stops at the limit, so that nothing is evicted. -/
theorem Copies.add {n : Nat} (copies : Copies n s) : Copies (n + 1) (s.perform (at_ (.add large))).store := by
  have absent : existing s.items large = none := rfl
  have stored : large.meta_.formatId ≠ clippFormatNone := by decide
  let item : ActivityItem := { header := { id := s.nextItemID, timestamp := 0 }, payload := large }
  have members : ∀ a ∈ insertItem item s.items, a.payload = large := by
    intro a member
    rcases mem_insertItem.mp member with rfl | old
    · rfl
    · exact copies.same a old
  have kept : applyLimits s.limits 0 (insertItem item s.items) = (insertItem item s.items, []) := by
    rw [copies.limits]
    apply applyLimits_of_roomy
    · exact fun _ _ => rfl
    · exact .inl rfl
    · refine .inr (.inr ?_)
      apply totalBytes_le
      intro a member
      rw [estimate_large (members a member)]
      decide
  have result : (s.perform (at_ (.add large))).store.items = insertItem item s.items := by
    show (s.addItem _ large).store.items = _
    simp only [addItem, stored, if_false, absent, place, at_]
    exact congrArg Prod.fst kept
  refine ⟨?_, ?_, ?_⟩
  · show (s.addItem _ large).store.limits = _
    simp only [addItem, stored, if_false, absent, place, at_]
    exact copies.limits
  · rw [result, (insertItem_perm _ _).length_eq, List.length_cons, copies.count]
  · rw [result]
    exact members

theorem copies_performed (n : Nat) : Copies n (performed {} (copying n)) := by
  have more : ∀ n m s, Copies m s → Copies (m + n) (s.performed (List.replicate n (at_ (.add large)))) := by
    intro n
    induction n with
    | zero => exact fun m s copies => copies
    | succ n ih =>
      intro m s copies
      rw [Nat.add_succ, ← Nat.succ_add]
      exact ih (m + 1) _ copies.add
  have start : Copies 0 (performed {} [at_ (.setLimits wide)]) := ⟨rfl, rfl, fun _ member => nomatch member⟩
  have copies := more n 0 _ start
  rwa [Nat.zero_add] at copies

theorem path_performed (s : ClipboardActivityStore) (events : List Event) :
    Path history (fun _ _ => True) s events (s.performed events) := by
  induction events generalizing s with
  | nil => exact .nil s
  | cons first rest ih => exact .cons trivial rfl (ih _)

end Saturated

open Saturated in
/-- 2^32 copies of 2^32 bytes each stay under a limit of 2^64 - 1 bytes. -/
theorem saturated_total_passes_limit : ¬ Representation (fun _ _ => True) := by
  intro representation
  have copies := copies_performed (2 ^ 32)
  have limited : (performed {} (copying (2 ^ 32))).limits.memoryLimitBytes ≠ 0 := by
    rw [copies.limits]
    decide
  rcases representation.withinBytes _ _ (path_performed {} (copying (2 ^ 32))) limited with small | single
  · rw [copies.total, copies.limits] at small
    exact absurd small (by decide)
  · rw [copies.count] at single
    exact absurd single (by decide)

end ClippProof.Clipboard
