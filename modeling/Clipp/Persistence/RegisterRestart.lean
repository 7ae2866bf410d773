import Clipp.Persistence.RegisterPersistence
import Clipp.Persistence.SnapshotRoundTrip
import Clipp.Registers.AntiEntropy

open Foundation

namespace ClippProof.Persistence

open ClippModel.Registers ClippModel.Registers.RegisterStore ClippModel.Persistence
  ClippModel.Persistence.SealedSnapshot ClippModel.Persistence.RegisterPersistence ClippModel.Wire
  ClippProof.Registers ClippProof.Wire

section Laws

variable {A : Aead} {nonce : Nonce} {key : SealKey} {s t : RegisterStore} {now phys : UInt64}
  {r : RegisterRecord} {rs : List RegisterRecord} {raw : List Bytes} {name : Bytes} {m : RecordMap}

theorem decodeRecords_encodeRecords (caps : ∀ r ∈ rs, WithinCaps r) (named : ∀ r ∈ rs, r.name ≠ []) :
    decodeRecords (encodeRecords rs) = rs := by
  induction rs with
  | nil => rfl
  | cons head rest ih =>
    have tail := ih (fun r member => caps r (List.mem_cons_of_mem _ member))
      (fun r member => named r (List.mem_cons_of_mem _ member))
    have first := tryDecodeRecord_encodeRecord (caps head List.mem_cons_self) 0
    have kept : head.name.isEmpty = false := by
      simpa using named head List.mem_cons_self
    simp only [encodeRecords, decodeRecords, List.map_cons, List.filterMap_cons, first, kept] at tail ⊢
    simp only [Bool.false_eq_true, if_false, tail]

theorem decodeRecords_spec (member : r ∈ decodeRecords raw) : WithinCaps r ∧ r.name ≠ [] := by
  obtain ⟨body, _, decoded⟩ := List.mem_filterMap.mp member
  cases result : RegisterWire.tryDecodeRecord body with
  | none => simp [result] at decoded
  | some pair =>
    obtain ⟨record, transport⟩ := pair
    simp only [result] at decoded
    split_ifs at decoded with nameless
    cases decoded
    exact ⟨tryDecodeRecord_withinCaps result, by simpa using nameless⟩

theorem decodeRecords_length (raw : List Bytes) : (decodeRecords raw).length ≤ raw.length :=
  List.length_filterMap_le _ _

theorem sealedRecords_encodeRecords (rs : List RegisterRecord) :
    sealedRecords (encodeRecords rs) = encodeRecords rs := by
  rw [sealedRecords, List.filter_eq_self]
  intro body member
  obtain ⟨r, _, rfl⟩ := List.mem_map.mp member
  simpa using encodeRecord_nonempty r 0

theorem encoded_small (caps : ∀ r ∈ rs, WithinCaps r) : ∀ body ∈ encodeRecords rs, body.length < 2 ^ 32 := by
  intro body member
  obtain ⟨r, inList, rfl⟩ := List.mem_map.mp member
  obtain ⟨nameCap, valueCap⟩ := caps r inList
  simp only [encodeRecord_length, RegisterWire.kMaxNameLen, RegisterWire.kMaxValueLen] at nameCap valueCap ⊢
  omega

theorem tryOpenSnapshot_bounds {blob : Bytes} {out opened : List RegisterRecord}
    (success : tryOpenSnapshot A blob key out = (true, opened)) :
    opened.length ≤ kMaxRecords ∧ ∀ r ∈ opened, WithinCaps r ∧ r.name ≠ [] := by
  rcases tryOpen_cases A kMagic kVersion blob key [] with failed | ⟨_, _, _, raw, _, _, _, framed, result⟩
  · simp [tryOpenSnapshot, failed] at success
  · simp only [tryOpenSnapshot, result, Prod.mk.injEq, true_and] at success
    subst success
    exact ⟨(decodeRecords_length raw).trans (readRecords_bounds framed).1, fun r => decodeRecords_spec⟩

theorem tryOpenSnapshot_sealSnapshot
    (ideal : A.Ideal kTagSize [sealingOf nonce kMagic kVersion (encodeRecords rs) key])
    (count : rs.length ≤ kMaxRecords) (caps : ∀ r ∈ rs, WithinCaps r) (named : ∀ r ∈ rs, r.name ≠ [])
    (out : List RegisterRecord) :
    tryOpenSnapshot A (sealSnapshot A nonce rs key) key out = (true, rs) := by
  have kept := sealedRecords_encodeRecords rs
  have opened : tryOpen A kMagic kVersion (seal_ A nonce kMagic kVersion (encodeRecords rs) key) key [] =
      (true, sealedRecords (encodeRecords rs)) := (tryOpen_seal_iff ideal).mpr
    ⟨by rw [kept, encodeRecords, List.length_map]; exact count, encoded_small caps⟩
  rw [kept] at opened
  simp [tryOpenSnapshot, sealSnapshot, opened, decodeRecords_encodeRecords caps named]

theorem unexpired_absorb {resident : Option RegisterRecord} {ttlMs : UInt64}
    (fresh : isExpired r now ttlMs = false) : isExpired (absorb resident r) now ttlMs = false := by
  cases resident with
  | none => exact fresh
  | some q => exact fresh_mergeRecords (.inr fresh)

theorem replicatedMap_applyRemote (named : r.name ≠ []) (fresh : isExpired r now t.ttlMs = false) :
    replicatedMap (t.applyRemoteLocked now r).2 now = joinInto (replicatedMap t now) r := by
  have residentName : ∀ q, unexpired t now r.name = some q → q.name = r.name := fun q => unexpired_name
  apply KeyedMap.ext_find
  intro name
  rw [replicatedMap_find, joinInto, KeyedMap.find_put, replicatedMap_find, replicatedMap_find,
    visible_of_named named, absorb_name residentName]
  by_cases nameless : name = []
  · have other : r.name ≠ name := fun same => named (same.trans nameless)
    simp [visible, nameless, named]
  · rw [visible_of_named nameless, visible_of_named nameless, unexpired, applyRemote_ttlMs,
      applyRemote_find t now name named fresh]
    split_ifs with same
    · simp [unexpired_absorb fresh]
    · rfl

theorem applyRemote_store_ttlMs : (t.applyRemote now r).store.ttlMs = t.ttlMs := applyRemote_ttlMs t now r

theorem replicatedMap_applyAll (named : ∀ r ∈ rs, r.name ≠ [])
    (fresh : ∀ r ∈ rs, isExpired r now t.ttlMs = false) :
    replicatedMap (applyAll t now rs) now = joinAll (replicatedMap t now) rs := by
  induction rs generalizing t with
  | nil => rfl
  | cons head rest ih =>
    change replicatedMap (applyAll (t.applyRemote now head).store now rest) now =
      joinAll (joinInto (replicatedMap t now) head) rest
    rw [← replicatedMap_applyRemote (named head List.mem_cons_self) (fresh head List.mem_cons_self)]
    refine ih (fun r member => named r (List.mem_cons_of_mem _ member)) ?_
    intro r member
    rw [applyRemote_store_ttlMs]
    exact fresh r (List.mem_cons_of_mem _ member)

theorem joinAll_entries (m : RecordMap) : joinAll .empty m.entries = m := by
  apply content_inj
  rw [content_joinAll, content_empty, bot_sup_eq]
  apply le_antisymm
  · apply joinList_le
    intro x member
    obtain ⟨r, resident, rfl⟩ := List.mem_map.mp member
    exact contribution_le (KeyedMap.find_self resident)
  · intro name
    cases found : m.find name with
    | none => simp [content, pointOf, found]
    | some r =>
      obtain ⟨resident, key⟩ := KeyedMap.find_eq_some.mp found
      have above := le_joinList (List.mem_map_of_mem (f := contribution) resident) name
      simpa [content, pointOf, found, contribution, key] using above

theorem replicatedMap_create (localHost : HostId) (ttlMs : UInt64) (maxCount maxValueBytes : Nat) :
    replicatedMap (create localHost ttlMs maxCount maxValueBytes) now = .empty := rfl

theorem applyAll_clock (t : RegisterStore) (now : UInt64) (named : ∀ r ∈ rs, r.name ≠ []) :
    t.clock.last ≤ (applyAll t now rs).clock.last ∧
    (∀ r ∈ rs, Stamped (applyAll t now rs).clock r) ∧
    ((applyAll t now rs).clock.last = t.clock.last ∨
      ∃ r ∈ rs, (applyAll t now rs).clock.last = r.written ∨ (applyAll t now rs).clock.last = r.touched) := by
  induction rs generalizing t with
  | nil => exact ⟨le_rfl, by simp, .inl rfl⟩
  | cons head rest ih =>
    have step : (t.applyRemote now head).store.clock = witnessAll t.clock head :=
      applyRemote_clock t now (named head List.mem_cons_self)
    obtain ⟨mono, seen, reached⟩ := ih (t := (t.applyRemote now head).store)
      (fun r member => named r (List.mem_cons_of_mem _ member))
    rw [step] at mono reached
    refine ⟨(witnessAll_mono _ _).trans mono, ?_, ?_⟩
    · intro r member
      rcases List.mem_cons.mp member with rfl | later
      · exact (stamped_witnessAll _ _).mono mono
      · exact seen r later
    · rcases reached with kept | ⟨r, member, stamp⟩
      · have choice : (witnessAll t.clock head).last = t.clock.last ∨
            (witnessAll t.clock head).last = head.written ∨ (witnessAll t.clock head).last = head.touched := by
          simp only [witnessAll, HlcClock.witness_last]
          rcases max_choice (max t.clock.last head.written) head.touched with inner | outer
          · rw [inner]
            exact (max_choice _ _).imp_right .inl
          · exact .inr (.inr outer)
        rcases choice with old | new
        · exact .inl (kept.trans old)
        · exact .inr ⟨head, List.mem_cons_self, new.imp kept.trans kept.trans⟩
      · exact .inr ⟨r, List.mem_cons_of_mem _ member, stamp⟩

/-- The stamp is the largest of the records, has the last counter value, and its wall reading has
    not been passed by the physical clock. -/
def LargestSpent (rs : List RegisterRecord) (phys : UInt64) (h : Hlc) : Prop :=
  (phys ≤ h.wallMs ∧ h.counter = maxWord) ∧ ∀ q ∈ rs, q.written ≤ h ∧ q.touched ≤ h

def SpentStamp (rs : List RegisterRecord) (phys : UInt64) : Prop :=
  ∃ r ∈ rs, LargestSpent rs phys r.written ∨ LargestSpent rs phys r.touched

instance (rs : List RegisterRecord) (phys : UInt64) (h : Hlc) : Decidable (LargestSpent rs phys h) :=
  inferInstanceAs (Decidable (_ ∧ ∀ q ∈ rs, _))

instance (rs : List RegisterRecord) (phys : UInt64) : Decidable (SpentStamp rs phys) :=
  inferInstanceAs (Decidable (∃ r ∈ rs, _))

theorem applyAll_last_le (now : UInt64) (named : ∀ r ∈ rs, r.name ≠ []) (unused : t.clock.last = {}) {h : Hlc}
    (above : ∀ q ∈ rs, q.written ≤ h ∧ q.touched ≤ h) : (applyAll t now rs).clock.last ≤ h := by
  rcases (applyAll_clock t now named).2.2 with kept | ⟨q, inList, last | last⟩
  · rw [kept, unused]
    exact Hlc.zero_le h
  · exact last.le.trans (above q inList).1
  · exact last.le.trans (above q inList).2

theorem applyAll_last_eq (now : UInt64) (named : ∀ r ∈ rs, r.name ≠ []) (unused : t.clock.last = {})
    (spent : SpentStamp rs phys) : ∃ r ∈ rs, LargestSpent rs phys (applyAll t now rs).clock.last ∧
      ((applyAll t now rs).clock.last = r.written ∨ (applyAll t now rs).clock.last = r.touched) := by
  have seen := (applyAll_clock t now named).2.1
  obtain ⟨r, member, largest | largest⟩ := spent
  · have same := le_antisymm (applyAll_last_le now named unused largest.2) (seen r member).1
    exact ⟨r, member, same ▸ largest, .inl same⟩
  · have same := le_antisymm (applyAll_last_le now named unused largest.2) (seen r member).2
    exact ⟨r, member, same ▸ largest, .inr same⟩

theorem exhausted_iff_spent (now : UInt64) (named : ∀ r ∈ rs, r.name ≠ []) (unused : t.clock.last = {}) :
    (applyAll t now rs).clock.Exhausted phys ↔ SpentStamp rs phys := by
  obtain ⟨_, seen, reached⟩ := applyAll_clock t now named
  constructor
  · intro full
    have largest : LargestSpent rs phys (applyAll t now rs).clock.last := ⟨full, seen⟩
    rcases reached with kept | ⟨r, member, last | last⟩
    · have counter := full.2
      rw [kept, unused] at counter
      exact absurd counter (by decide)
    · exact ⟨r, member, .inl (last ▸ largest)⟩
    · exact ⟨r, member, .inr (last ▸ largest)⟩
  · intro spent
    obtain ⟨_, _, largest, _⟩ := applyAll_last_eq now named unused spent
    exact largest.1

theorem applyAll_residents {P : RegisterRecord → Prop} (closed : MergeClosed P)
    (resident : ∀ name r, t.records.find name = some r → P r) (arriving : ∀ r ∈ rs, P r)
    (found : (applyAll t now rs).records.find name = some r) : P r := by
  induction rs generalizing t with
  | nil => exact resident name r found
  | cons head rest ih =>
    refine ih ?_ (fun q member => arriving q (List.mem_cons_of_mem _ member)) found
    intro other q held
    exact applyRemote_residents closed resident (arriving head List.mem_cons_self) held

theorem withinCaps_merge : MergeClosed WithinCaps := by
  intro a b _ left right
  unfold mergeRecords
  split_ifs
  · exact right
  · exact left

theorem names_merge (names : List Bytes) : MergeClosed (fun r => r.name ∈ names) := by
  intro a b same left _
  rw [mergeRecords_name same]
  exact left

theorem bounds_of_restored {snapshot : List RegisterRecord} {localHost : HostId} {ttlMs : UInt64}
    {maxCount maxValueBytes : Nat} (count : rs.length ≤ kMaxRecords)
    (caps : ∀ r ∈ rs, WithinCaps r ∧ r.name ≠ []) (distinct : (snapshot.map RegisterRecord.name).Nodup)
    (restored : ((applyAll (create localHost ttlMs maxCount maxValueBytes) now rs).snapshotForSync now).result =
      snapshot) :
    snapshot.length ≤ kMaxRecords ∧ ∀ r ∈ snapshot, WithinCaps r := by
  have held : ∀ r ∈ snapshot, ∃ name,
      (applyAll (create localHost ttlMs maxCount maxValueBytes) now rs).records.find name = some r := by
    intro r member
    rw [← restored] at member
    exact ⟨r.name, (visible_eq_some.mp (mem_snapshot.mp member)).2.1⟩
  constructor
  · have subset : snapshot.map RegisterRecord.name ⊆ rs.map RegisterRecord.name := by
      intro name member
      obtain ⟨r, inList, rfl⟩ := List.mem_map.mp member
      obtain ⟨_, found⟩ := held r inList
      exact applyAll_residents (names_merge _) (fun _ _ none_held => by cases none_held)
        (fun q arrives => List.mem_map_of_mem arrives) found
    have size := (List.subperm_of_subset distinct subset).length_le
    rw [List.length_map, List.length_map] at size
    exact size.trans count
  · intro r member
    obtain ⟨_, found⟩ := held r member
    exact applyAll_residents withinCaps_merge (fun _ _ none_held => by cases none_held)
      (fun q arrives => (caps q arrives).1) found

def reopened (A : Aead) (nonce : Nonce) (key : SealKey) (s : RegisterStore) (now : UInt64) :
    Bool × List RegisterRecord :=
  tryOpenSnapshot A (sealSnapshot A nonce (s.snapshotForSync now).result key) key []

def restarted (A : Aead) (nonce : Nonce) (key : SealKey) (s : RegisterStore) (now : UInt64)
    (localHost : HostId) : RegisterStore :=
  applyAll (create localHost s.ttlMs s.maxCount s.maxValueBytes) now (reopened A nonce key s now).2

structure RestartRoundTrip (A : Aead) (nonce : Nonce) (key : SealKey) (s : RegisterStore)
    (now phys : UInt64) : Prop where
  opens : (reopened A nonce key s now).1 = true
  restored : ∀ localHost, ((restarted A nonce key s now localHost).snapshotForSync now).result =
    (s.snapshotForSync now).result
  nextStamp : ∀ localHost, ∀ r ∈ (s.snapshotForSync now).result,
    r.written < ((restarted A nonce key s now localHost).clock.now phys).1 ∧
    r.touched < ((restarted A nonce key s now localHost).clock.now phys).1
  joined : ∀ t, t.ttlMs = s.ttlMs →
    ((applyAll t now (reopened A nonce key s now).2).snapshotForSync now).result =
      (joinAll (replicatedMap t now) (s.snapshotForSync now).result).entries

theorem snapshot_named (s : RegisterStore) (now : UInt64) : ∀ r ∈ (s.snapshotForSync now).result, r.name ≠ [] :=
  fun _ member => (visible_eq_some.mp (mem_snapshot.mp member)).1

theorem snapshot_fresh : ∀ r ∈ (s.snapshotForSync now).result, isExpired r now s.ttlMs = false :=
  fun _ member => (visible_eq_some.mp (mem_snapshot.mp member)).2.2

theorem roundTrip_of_bounds
    (ideal : A.Ideal kTagSize
      [sealingOf nonce kMagic kVersion (encodeRecords (s.snapshotForSync now).result) key])
    (count : (s.snapshotForSync now).result.length ≤ kMaxRecords)
    (caps : ∀ r ∈ (s.snapshotForSync now).result, WithinCaps r)
    (unspent : ¬ SpentStamp (s.snapshotForSync now).result phys) :
    RestartRoundTrip A nonce key s now phys := by
  have named := snapshot_named s now
  have opened : reopened A nonce key s now = (true, (s.snapshotForSync now).result) :=
    tryOpenSnapshot_sealSnapshot ideal count caps named []
  have joined : ∀ t, t.ttlMs = s.ttlMs →
      ((applyAll t now (reopened A nonce key s now).2).snapshotForSync now).result =
        (joinAll (replicatedMap t now) (s.snapshotForSync now).result).entries := by
    intro t limits
    have fresh : ∀ r ∈ (s.snapshotForSync now).result, isExpired r now t.ttlMs = false := by
      rw [limits]
      exact snapshot_fresh
    rw [opened, snapshot_entries, replicatedMap_applyAll named fresh]
  refine ⟨by rw [opened], ?_, ?_, joined⟩
  · intro localHost
    rw [restarted, joined (create localHost s.ttlMs s.maxCount s.maxValueBytes) rfl, replicatedMap_create,
      snapshot_entries, joinAll_entries]
  · intro localHost r member
    rw [restarted, opened]
    have seen := (applyAll_clock (create localHost s.ttlMs s.maxCount s.maxValueBytes) now named).2.1 r member
    have fresh : ¬ (applyAll (create localHost s.ttlMs s.maxCount s.maxValueBytes) now
        (s.snapshotForSync now).result).clock.Exhausted phys := mt (exhausted_iff_spent now named rfl).mp unspent
    have above := HlcClock.now_above fresh
    exact ⟨seen.1.trans_lt above, seen.2.trans_lt above⟩

theorem bounds_of_roundTrip (trip : RestartRoundTrip A nonce key s now phys) :
    (s.snapshotForSync now).result.length ≤ kMaxRecords ∧
      ∀ r ∈ (s.snapshotForSync now).result, WithinCaps r := by
  have success : tryOpenSnapshot A (sealSnapshot A nonce (s.snapshotForSync now).result key) key [] =
      (true, (reopened A nonce key s now).2) := Prod.ext trip.opens rfl
  obtain ⟨count, caps⟩ := tryOpenSnapshot_bounds success
  exact bounds_of_restored count caps (replicatedMap s now).keys_nodup (trip.restored HostId.zero)

/-- A restart brings the registers back exactly when the snapshot keeps to the caps of the file
    format and its largest stamp has a successor at the next physical reading. -/
theorem restart_round_trip_iff (A : Aead) (nonce : Nonce) (key : SealKey) (s : RegisterStore)
    (now phys : UInt64)
    (ideal : A.Ideal kTagSize
      [sealingOf nonce kMagic kVersion (encodeRecords (s.snapshotForSync now).result) key]) :
    RestartRoundTrip A nonce key s now phys ↔
      (s.snapshotForSync now).result.length ≤ kMaxRecords ∧
      (∀ r ∈ (s.snapshotForSync now).result, WithinCaps r) ∧
      ¬ SpentStamp (s.snapshotForSync now).result phys := by
  constructor
  · intro trip
    obtain ⟨count, caps⟩ := bounds_of_roundTrip trip
    refine ⟨count, caps, ?_⟩
    intro spent
    have named := snapshot_named s now
    have opened : reopened A nonce key s now = (true, (s.snapshotForSync now).result) :=
      tryOpenSnapshot_sealSnapshot ideal count caps named []
    obtain ⟨r, member, largest, stamp⟩ := applyAll_last_eq now
      (t := create HostId.zero s.ttlMs s.maxCount s.maxValueBytes) named rfl spent
    -- the restored clock is exhausted, so its next stamp falls back
    have wrapped := HlcClock.now_exhausted largest.1
    have next := trip.nextStamp HostId.zero r member
    rw [restarted, opened] at next
    rcases stamp with last | last
    · exact lt_asymm next.1 (last ▸ wrapped)
    · exact lt_asymm next.2 (last ▸ wrapped)
  · rintro ⟨count, caps, unspent⟩
    exact roundTrip_of_bounds ideal count caps unspent

end Laws

section Samples

variable {now : UInt64} {i j : Nat} {t : RegisterStore} {r : RegisterRecord} {rs : List RegisterRecord}

theorem applyAll_shows (named : ∀ r ∈ rs, r.name ≠ []) (fresh : ∀ r ∈ rs, isExpired r now t.ttlMs = false)
    (member : r ∈ rs) : ∃ q ∈ ((applyAll t now rs).snapshotForSync now).result, q.name = r.name := by
  have below : contribution r ≤ content (replicatedMap (applyAll t now rs) now) := by
    rw [replicatedMap_applyAll named fresh, content_joinAll]
    exact (le_joinList (List.mem_map_of_mem member)).trans le_sup_right
  have here := below r.name
  cases found : (replicatedMap (applyAll t now rs) now).find r.name with
  | none => simp [contribution, content, pointOf, found] at here
  | some q =>
    obtain ⟨shown, name⟩ := KeyedMap.find_eq_some.mp found
    exact ⟨q, shown, name⟩

theorem applyAll_snapshot_length (named : ∀ r ∈ rs, r.name ≠ [])
    (fresh : ∀ r ∈ rs, isExpired r now t.ttlMs = false) (distinct : (rs.map RegisterRecord.name).Nodup) :
    rs.length ≤ ((applyAll t now rs).snapshotForSync now).result.length := by
  have subset : rs.map RegisterRecord.name ⊆
      ((applyAll t now rs).snapshotForSync now).result.map RegisterRecord.name := by
    intro name member
    obtain ⟨r, inList, rfl⟩ := List.mem_map.mp member
    obtain ⟨q, shown, key⟩ := applyAll_shows named fresh inList
    exact key ▸ List.mem_map_of_mem shown
  have size := (List.subperm_of_subset distinct subset).length_le
  simpa using size

namespace RestartSample

def key : SealKey := repeatedByte kSealKeyBytes 7
def nonce : Nonce := repeatedByte kNonceSize 9
def cipher (s : RegisterStore) (now : UInt64) : Aead :=
  .table kTagSize (sealingOf nonce kMagic RegisterPersistence.kVersion
    (encodeRecords (s.snapshotForSync now).result) key)

def letter (d : Nat) : UInt8 := UInt8.ofNat (0x61 + d % 16)
def name (i : Nat) : Bytes := [letter (i / 4096), letter (i / 256), letter (i / 16), letter i]
def record (i : Nat) : RegisterRecord :=
  writtenRecord (name i) [0x76] 0 HostId.zero { wallMs := 1000, counter := UInt64.ofNat i }
def filled (n : Nat) : RegisterStore :=
  applyAll (create HostId.zero RegisterStore.kDefaultTtlMs 65536 8) 1000 ((List.range n).map record)

end RestartSample

open RestartSample

theorem letter_inj (same : letter i = letter j) : i % 16 = j % 16 := by
  have both := congrArg UInt8.toNat same
  simp only [letter, UInt8.toNat_ofNat'] at both
  omega

theorem name_inj (left : i < 65536) (right : j < 65536) (same : name i = name j) : i = j := by
  simp only [name, List.cons.injEq, and_true] at same
  obtain ⟨first, second, third, fourth⟩ := same
  have d₀ := letter_inj first
  have d₁ := letter_inj second
  have d₂ := letter_inj third
  have d₃ := letter_inj fourth
  omega

theorem records_fresh (n : Nat) :
    ∀ r ∈ (List.range n).map record, isExpired r 1000 RegisterStore.kDefaultTtlMs = false := by
  intro r member
  obtain ⟨i, _, rfl⟩ := List.mem_map.mp member
  have touched : (record i).touched.wallMs = 1000 := rfl
  rw [Bool.eq_false_iff, Ne, isExpired_iff, touched]
  decide

theorem records_named (n : Nat) : ∀ r ∈ (List.range n).map record, r.name ≠ [] := by
  intro r member
  obtain ⟨i, _, rfl⟩ := List.mem_map.mp member
  simp [record, writtenRecord, name]

theorem records_distinct {n : Nat} (small : n ≤ 65536) :
    (((List.range n).map record).map RegisterRecord.name).Nodup := by
  rw [List.map_map]
  refine List.Nodup.map_on ?_ List.nodup_range
  intro i inRange j inRange' same
  exact name_inj ((List.mem_range.mp inRange).trans_le small) ((List.mem_range.mp inRange').trans_le small) same

theorem filled_length {n : Nat} (small : n ≤ 65536) :
    n ≤ ((filled n).snapshotForSync 1000).result.length := by
  have size := applyAll_snapshot_length (t := create HostId.zero RegisterStore.kDefaultTtlMs 65536 8)
    (records_named n) (records_fresh n) (records_distinct small)
  simpa [filled] using size

/-- 65536 registers are sealed, but a restart does not bring them back. -/
theorem crowded_store_does_not_restart :
    ¬ RestartRoundTrip (cipher (filled 65536) 1000) nonce key (filled 65536) 1000 1000 := by
  intro trip
  have size := (filled_length le_rfl).trans (bounds_of_roundTrip trip).1
  exact absurd size (by decide)

theorem restart_round_trip_iff_two :
    RestartRoundTrip (cipher (filled 2) 1000) nonce key (filled 2) 1000 1000 :=
  (restart_round_trip_iff (cipher (filled 2) 1000) nonce key (filled 2) 1000 1000
    (Aead.table_ideal _ _)).mpr ⟨by decide +kernel, by decide +kernel, by decide +kernel⟩

end Samples

end ClippProof.Persistence
