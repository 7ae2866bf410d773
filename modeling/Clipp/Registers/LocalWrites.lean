import Clipp.Registers.Calls
import Clipp.Registers.Remote
import Mathlib.Data.List.Perm.Subperm

open Foundation

namespace ClippProof.Registers

open ClippModel.Registers ClippModel.Registers.RegisterStore

variable {s after other : RegisterStore} {t : Readings} {now : UInt64} {name value : Bytes} {valueFlags : UInt8}
  {origin : HostId} {r q : RegisterRecord}

def countsAt (now ttlMs : UInt64) (r : RegisterRecord) : Bool :=
  !r.name.isEmpty && (!r.isTombstone && !isExpired r now ttlMs)

theorem liveCount_eq (s : RegisterStore) (now : UInt64) :
    s.liveCount now = s.records.entries.countP (countsAt now s.ttlMs) := rfl

/-- The name holds a value that has not expired. -/
def LiveAt (s : RegisterStore) (now : UInt64) (name : Bytes) : Prop :=
  ∃ r, unexpired s now name = some r ∧ r.isTombstone = false

/-- The stores hold the same under every name but the mirror's. -/
structure MirrorApart (s other : RegisterStore) : Prop where
  records : ∀ name, name ≠ [] → other.records.find name = s.records.find name
  ttlMs : other.ttlMs = s.ttlMs
  maxCount : other.maxCount = s.maxCount
  maxValueBytes : other.maxValueBytes = s.maxValueBytes

/-- What a local write promises: refused, it changes nothing; accepted, only the record it names. -/
structure LocalWrite (s : RegisterStore) (t : Readings) (name value : Bytes) (valueFlags : UInt8)
    (call : Call WriteResult) : Prop where
  refused : call.result ≠ .ok → call.notified = false ∧
    ∀ now, t.expiry ≤ now → ∀ other, unexpired call.store now other = unexpired s now other
  others : call.result = .ok → ∀ now, t.expiry ≤ now → ∀ other, other ≠ name →
    unexpired call.store now other = unexpired s now other
  written : call.result = .ok → ∃ r, call.store.records.find name = some r ∧ r.value = value ∧
    r.flags = valueFlags &&& ~~~RegisterFlags.tombstone ∧ r.isTombstone = false ∧
    ∀ now, now.toNat < t.mint.toNat + s.ttlMs.toNat → unexpired call.store now name = some r
  overwritten : LiveAt s t.expiry name → call.result ≠ .capExceeded
  counted : ∀ now, t.expiry ≤ now → t.recheck ≤ now →
    call.store.liveCount now ≤ max s.maxCount (s.liveCount t.expiry)

theorem Dropped.unexpired_later {expiry : UInt64} (drop : Dropped expiry s after) (le : expiry ≤ now) (name : Bytes) :
    unexpired after now name = unexpired s now name := by
  rcases drop.kept name with same | ⟨gone, none⟩
  · exact unexpired_congr drop.ttlMs same
  · have absent : unexpired after now name = Option.none := by rw [unexpired, gone, Option.filter_none]
    rw [absent, eq_comm, Option.eq_none_iff_forall_ne_some]
    intro r live
    obtain ⟨found, alive⟩ := unexpired_eq_some.mp live
    rw [unexpired_eq_some.mpr ⟨found, unexpired_earlier le alive⟩] at none
    cases none

theorem writtenRecord_value (name value : Bytes) (valueFlags : UInt8) (origin : HostId) (ts : Hlc) :
    (writtenRecord name value valueFlags origin ts).isTombstone = false := by
  have cleared : valueFlags &&& ~~~RegisterFlags.tombstone &&& RegisterFlags.tombstone = 0 := by
    have disjoint : ~~~RegisterFlags.tombstone &&& RegisterFlags.tombstone = 0 := by decide
    rw [UInt8.and_assoc, disjoint, UInt8.and_zero]
  simp [RegisterRecord.isTombstone, writtenRecord, cleared]

theorem tombstoneRecord_dead (r : RegisterRecord) (origin : HostId) (ts : Hlc) :
    (tombstoneRecord r origin ts).isTombstone = true := by
  have nonzero : RegisterFlags.tombstone ≠ 0 := by decide
  simp [RegisterRecord.isTombstone, tombstoneRecord, nonzero]

theorem minted_alive {c : HlcClock} {ttlMs : UInt64} (stamp : r.touched = (c.now t.mint).1)
    (within : now.toNat < t.mint.toNat + ttlMs.toNat) : isExpired r now ttlMs = false := by
  have above : t.mint ≤ r.touched.wallMs := by
    rw [stamp]
    unfold HlcClock.now
    split_ifs with lifted
    · exact le_rfl
    · exact not_lt.mp lifted
  have aboveNat : t.mint.toNat ≤ r.touched.wallMs.toNat := above
  rw [Bool.eq_false_iff, ne_eq, isExpired_iff]
  omega

theorem currentlyLiveValue_iff :
    (s.pruneExpiredLocked now).currentlyLiveValue name = true ↔ LiveAt s now name := by
  rw [currentlyLiveValue, prune_find, LiveAt]
  cases unexpired s now name with
  | none => simp
  | some r => simp

theorem countP_place {p : RegisterRecord → Bool} {l : List RegisterRecord}
    (sorted : l.Pairwise (fun a b => a.name < b.name)) (r : RegisterRecord) :
    (KeyedMap.place RegisterRecord.name r l).countP p ≤ l.countP p + 1 ∧
      ((∃ q ∈ l, q.name = r.name ∧ p q = true) → (KeyedMap.place RegisterRecord.name r l).countP p ≤ l.countP p) := by
  induction l with
  | nil =>
    refine ⟨?_, by simp⟩
    rw [KeyedMap.place, List.countP_singleton]
    split_ifs <;> simp
  | cons head rest ih =>
    obtain ⟨room, kept⟩ := ih sorted.of_cons
    have above : ∀ q ∈ rest, head.name < q.name := fun _ => List.rel_of_pairwise_cons sorted
    rw [KeyedMap.place]
    split_ifs with before same
    · constructor
      · rw [List.countP_cons]
        split_ifs <;> omega
      · rintro ⟨q, member, key, _⟩
        rcases List.mem_cons.mp member with rfl | later
        · exact absurd key before.ne'
        · exact absurd key (before.trans (above q later)).ne'
    · constructor
      · simp only [List.countP_cons]
        split_ifs <;> omega
      · rintro ⟨q, member, key, counted⟩
        rcases List.mem_cons.mp member with rfl | later
        · simp only [List.countP_cons, counted, if_true]
          split_ifs <;> omega
        · exact absurd (key.trans same) (above q later).ne'
    · constructor
      · simp only [List.countP_cons]
        omega
      · rintro ⟨q, member, key, counted⟩
        rcases List.mem_cons.mp member with rfl | later
        · exact absurd key.symm same
        · have below := kept ⟨q, later, key, counted⟩
          simp only [List.countP_cons]
          omega

theorem install_liveCount_le (c : HlcClock) : (install s c r).liveCount now ≤ s.liveCount now + 1 :=
  (countP_place s.records.ascending r).1

theorem install_liveCount_of_live (c : HlcClock) (found : s.records.find r.name = some q)
    (counted : countsAt now s.ttlMs q = true) : (install s c r).liveCount now ≤ s.liveCount now := by
  have member := KeyedMap.find_eq_some.mp found
  exact (countP_place s.records.ascending r).2 ⟨q, member.1, member.2, counted⟩

theorem liveCount_mono {earlier later : UInt64} (le : earlier ≤ later) : s.liveCount later ≤ s.liveCount earlier := by
  rw [liveCount_eq, liveCount_eq]
  refine List.countP_mono_left fun r _ counted => ?_
  simp only [countsAt, Bool.and_eq_true, Bool.not_eq_true'] at counted ⊢
  exact ⟨counted.1, counted.2.1, unexpired_earlier le counted.2.2⟩

theorem prune_liveCount_le (s : RegisterStore) (expiry now : UInt64) :
    (s.pruneExpiredLocked expiry).liveCount now ≤ s.liveCount expiry := by
  rw [liveCount_eq, liveCount_eq]
  change (s.records.entries.filter _).countP _ ≤ _
  rw [List.countP_filter]
  refine List.countP_mono_left fun r _ counted => ?_
  simp only [countsAt, pruneExpiredLocked, Bool.and_eq_true, Bool.not_eq_true'] at counted ⊢
  exact ⟨counted.1.1, counted.1.2.1, counted.2⟩

theorem Dropped.liveCount_le {expiry : UInt64} (drop : Dropped expiry s after) (judged : expiry ≤ now) :
    after.liveCount now ≤ s.liveCount expiry := by
  have residents : after.records.entries ⊆ s.records.entries := fun r member =>
    (KeyedMap.find_eq_some.mp (drop.find_of_some (KeyedMap.find_self member))).1
  have fewer : after.liveCount now ≤ s.liveCount now := by
    rw [liveCount_eq, liveCount_eq, drop.ttlMs]
    exact (List.Nodup.subperm after.records.keys_nodup.of_map residents).countP_le _
  exact fewer.trans (liveCount_mono judged)

/-- The gates of an upsert, in the order the code tries them. -/
def verdict (s : RegisterStore) (t : Readings) (name value : Bytes) : WriteResult :=
  if !isValidRegisterName name then .invalidName
  else if value.length > s.maxValueBytes then .valueTooLarge
  else if !(s.pruneExpiredLocked t.expiry).currentlyLiveValue name ∧
      (s.pruneExpiredLocked t.expiry).liveCount t.recheck ≥ s.maxCount then .capExceeded
  else .ok

def settle (s : RegisterStore) (t : Readings) (name value : Bytes) (valueFlags : UInt8) (origin : HostId) :
    WriteResult → RegisterStore
  | .ok => install (s.pruneExpiredLocked t.expiry) (s.clock.now t.mint).2
      (writtenRecord name value valueFlags origin (s.clock.now t.mint).1)
  | .capExceeded => s.pruneExpiredLocked t.expiry
  | _ => s

theorem upsertLocked_eq (s : RegisterStore) (t : Readings) (name value : Bytes) (valueFlags : UInt8)
    (origin : HostId) : s.upsertLocked t name value valueFlags origin =
      (verdict s t name value, settle s t name value valueFlags origin (verdict s t name value)) := by
  unfold upsertLocked verdict
  by_cases invalid : (!isValidRegisterName name) = true
  · simp only [invalid, if_true, settle]
  by_cases large : value.length > s.maxValueBytes
  · simp only [invalid, large, Bool.false_eq_true, if_false, if_true, settle]
  by_cases full : (!(s.pruneExpiredLocked t.expiry).currentlyLiveValue name) = true ∧
      (s.pruneExpiredLocked t.expiry).liveCountLocked t.recheck ≥ s.maxCount
  · have full' : (!(s.pruneExpiredLocked t.expiry).currentlyLiveValue name) = true ∧
        (s.pruneExpiredLocked t.expiry).liveCount t.recheck ≥ s.maxCount := full
    have limit : (s.pruneExpiredLocked t.expiry).maxCount = s.maxCount := rfl
    simp only [invalid, large, limit, full, full', and_self, Bool.false_eq_true, if_false, if_true, settle]
  · have full' : ¬ ((!(s.pruneExpiredLocked t.expiry).currentlyLiveValue name) = true ∧
        (s.pruneExpiredLocked t.expiry).liveCount t.recheck ≥ s.maxCount) := full
    have limit : (s.pruneExpiredLocked t.expiry).maxCount = s.maxCount := rfl
    simp only [invalid, large, limit, full, full', Bool.false_eq_true, if_false, settle]
    rfl

theorem verdict_admits (accepted : verdict s t name value = .ok) : Admitted s t name value := by
  unfold verdict at accepted
  split_ifs at accepted with invalid large full
  refine ⟨by simpa using invalid, not_lt.mp large, ?_⟩
  simp only [not_and_or, Bool.not_eq_true', Bool.not_eq_false, not_le, ge_iff_le] at full
  exact full

theorem settle_dropped (refused : verdict s t name value ≠ .ok) :
    Dropped t.expiry s (settle s t name value valueFlags origin (verdict s t name value)) := by
  cases gate : verdict s t name value with
  | ok => exact absurd gate refused
  | capExceeded => exact dropped_prune s t.expiry
  | invalidName => exact Dropped.refl _ _
  | valueTooLarge => exact Dropped.refl _ _

theorem upsert_counted (accepted : verdict s t name value = .ok) (judged : t.expiry ≤ now)
    (recounted : t.recheck ≤ now) :
    (settle s t name value valueFlags origin .ok).liveCount now ≤ max s.maxCount (s.liveCount t.expiry) := by
  obtain ⟨valid, _, room⟩ := verdict_admits accepted
  rcases room with held | room
  · obtain ⟨q, live, living⟩ := currentlyLiveValue_iff.mp held
    have found := (dropped_prune s t.expiry).find_of_unexpired live
    have named : q.name ≠ [] := by
      rw [unexpired_name live]
      exact validName_ne_nil valid
    have counts : countsAt t.expiry s.ttlMs q = true := by
      simp [countsAt, named, living, (unexpired_eq_some.mp live).2]
    calc (settle s t name value valueFlags origin .ok).liveCount now
        ≤ (settle s t name value valueFlags origin .ok).liveCount t.expiry := liveCount_mono judged
      _ ≤ (s.pruneExpiredLocked t.expiry).liveCount t.expiry := install_liveCount_of_live _ found counts
      _ ≤ s.liveCount t.expiry := prune_liveCount_le s t.expiry t.expiry
      _ ≤ max s.maxCount (s.liveCount t.expiry) := le_max_right _ _
  · calc (settle s t name value valueFlags origin .ok).liveCount now
        ≤ (s.pruneExpiredLocked t.expiry).liveCount now + 1 := install_liveCount_le _
      _ ≤ (s.pruneExpiredLocked t.expiry).liveCount t.recheck + 1 := Nat.succ_le_succ (liveCount_mono recounted)
      _ ≤ s.maxCount := room
      _ ≤ max s.maxCount (s.liveCount t.expiry) := le_max_left _ _

theorem settle_written (ts : UInt64) (before : ts.toNat < t.mint.toNat + s.ttlMs.toNat) :
    unexpired (settle s t name value valueFlags origin .ok) ts name =
      some (writtenRecord name value valueFlags origin (s.clock.now t.mint).1) :=
  unexpired_eq_some.mpr ⟨install_find_self (r := writtenRecord name value valueFlags origin (s.clock.now t.mint).1) _,
    minted_alive rfl before⟩

theorem settle_others (judged : t.expiry ≤ now) {target : Bytes} (differs : target ≠ name) :
    unexpired (settle s t name value valueFlags origin .ok) now target = unexpired s now target := by
  have kept : (settle s t name value valueFlags origin .ok).records.find target =
      (s.pruneExpiredLocked t.expiry).records.find target := by
    change (install _ _ _).records.find target = _
    rw [install_find]
    exact if_neg differs.symm
  have pruned := (dropped_prune s t.expiry).unexpired_later judged target
  have ttl : (settle s t name value valueFlags origin .ok).ttlMs = s.ttlMs := rfl
  rw [unexpired_congr (s := s.pruneExpiredLocked t.expiry) ttl kept, pruned]

theorem upsertWithFlags_eq (s : RegisterStore) (t : Readings) (name value : Bytes) (valueFlags : UInt8)
    (origin : HostId) : s.upsertWithFlags t name value valueFlags origin =
      { result := verdict s t name value
        store := settle s t name value valueFlags origin (verdict s t name value)
        notified := verdict s t name value = .ok } := by
  unfold upsertWithFlags
  rw [upsertLocked_eq]

theorem verdict_iff : verdict s t name value = .ok ↔ Admitted s t name value := by
  refine ⟨verdict_admits, ?_⟩
  rintro ⟨valid, small, room⟩
  unfold verdict
  have full : ¬ ((!(s.pruneExpiredLocked t.expiry).currentlyLiveValue name) = true ∧
      (s.pruneExpiredLocked t.expiry).liveCount t.recheck ≥ s.maxCount) := by
    rintro ⟨absent, crowded⟩
    rcases room with held | room
    · rw [held] at absent
      cases absent
    · exact absurd room (not_lt.mpr crowded)
  rw [if_neg (by simp [valid]), if_neg (not_lt.mpr small), if_neg full]

theorem upsert_accepted_iff :
    (s.upsertWithFlags t name value valueFlags origin).result = .ok ↔ Admitted s t name value := by
  rw [upsertWithFlags_eq]
  exact verdict_iff

theorem delete_deleted_iff :
    (s.delete t name).result = .deleted ↔ Living s t name := by
  change (s.deleteLocked t name s.localHost).1 = .deleted ↔ _
  rcases deleteLocked_cases s t name s.localHost with ⟨missed, _⟩ | ⟨r, live, value, equal⟩
  · rw [missed]
    refine iff_of_false (by decide) ?_
    rintro ⟨r, live, value⟩
    obtain ⟨found, alive⟩ := unexpired_eq_some.mp live
    simp [deleteLocked, found, alive, value] at missed
  · rw [equal]
    exact iff_of_true rfl ⟨r, live, value⟩

theorem local_write (s : RegisterStore) (t : Readings) (name value : Bytes) (valueFlags : UInt8) (origin : HostId) :
    LocalWrite s t name value valueFlags (s.upsertWithFlags t name value valueFlags origin) := by
  rw [upsertWithFlags_eq]
  constructor
  · intro refused
    exact ⟨decide_eq_false refused, fun now judged => (settle_dropped refused).unexpired_later judged⟩
  · intro accepted now judged target differs
    change verdict s t name value = .ok at accepted
    simp only [accepted]
    exact settle_others judged differs
  · intro accepted
    change verdict s t name value = .ok at accepted
    simp only [accepted]
    refine ⟨writtenRecord name value valueFlags origin (s.clock.now t.mint).1, ?_, rfl, rfl,
      writtenRecord_value _ _ _ _ _, settle_written⟩
    exact install_find_self (r := writtenRecord name value valueFlags origin (s.clock.now t.mint).1) _
  · intro living full
    have held := currentlyLiveValue_iff.mpr living
    change verdict s t name value = .capExceeded at full
    unfold verdict at full
    split_ifs at full with invalid large room
    rw [held] at room
    cases room.1
  · intro now judged recounted
    by_cases accepted : verdict s t name value = .ok
    · simp only [accepted]
      exact upsert_counted accepted judged recounted
    · have drop : Dropped t.expiry s (settle s t name value valueFlags origin (verdict s t name value)) :=
        settle_dropped accepted
      calc (settle s t name value valueFlags origin (verdict s t name value)).liveCount now
          ≤ s.liveCount t.expiry := drop.liveCount_le judged
        _ ≤ max s.maxCount (s.liveCount t.expiry) := le_max_right _ _

theorem MirrorApart.pruned {expiry : UInt64} (apart : MirrorApart s other) :
    MirrorApart (s.pruneExpiredLocked expiry) (other.pruneExpiredLocked expiry) where
  records := by
    intro name named
    rw [prune_find, prune_find]
    exact unexpired_congr apart.ttlMs (apart.records name named)
  ttlMs := apart.ttlMs
  maxCount := apart.maxCount
  maxValueBytes := apart.maxValueBytes

theorem MirrorApart.install (apart : MirrorApart s other) (c : HlcClock) (r : RegisterRecord) :
    MirrorApart (install s c r) (install other c r) where
  records := by
    intro name named
    rw [install_find, install_find, apart.records name named]
  ttlMs := apart.ttlMs
  maxCount := apart.maxCount
  maxValueBytes := apart.maxValueBytes

theorem liveCount_replicated (s : RegisterStore) (now : UInt64) :
    s.liveCount now = (s.records.filter (fun r => !r.name.isEmpty)).entries.countP
      (fun r => !r.isTombstone && !isExpired r now s.ttlMs) := by
  change _ = (s.records.entries.filter _).countP _
  rw [List.countP_filter, liveCount_eq]
  refine List.countP_congr fun r _ => ?_
  simp only [countsAt, Bool.and_eq_true, and_comm]

theorem MirrorApart.liveCount (apart : MirrorApart s other) (now : UInt64) :
    other.liveCount now = s.liveCount now := by
  have replicated : other.records.filter (fun r => !r.name.isEmpty) =
      s.records.filter (fun r => !r.name.isEmpty) := by
    apply KeyedMap.ext_find
    intro name
    rw [KeyedMap.find_filter, KeyedMap.find_filter]
    by_cases nameless : name = []
    · have none_kept : ∀ m : RecordMap, (m.find name).filter (fun r => !r.name.isEmpty) = none := by
        intro m
        cases found : m.find name with
        | none => rfl
        | some r => simp [KeyedMap.find_key found, nameless]
      rw [none_kept, none_kept]
    · rw [apart.records name nameless]
  rw [liveCount_replicated, liveCount_replicated, replicated, apart.ttlMs]

theorem MirrorApart.verdict (apart : MirrorApart s other) (t : Readings) (name value : Bytes) :
    verdict other t name value = verdict s t name value := by
  unfold ClippProof.Registers.verdict
  by_cases valid : isValidRegisterName name = true
  · have held : (other.pruneExpiredLocked t.expiry).currentlyLiveValue name =
        (s.pruneExpiredLocked t.expiry).currentlyLiveValue name := by
      unfold currentlyLiveValue
      rw [apart.pruned.records name (validName_ne_nil valid)]
    rw [held, apart.pruned.liveCount, apart.maxCount, apart.maxValueBytes]
  · simp [valid]

/-- Whatever the mirror holds, the write has the same result and leaves the same registers. -/
theorem upsert_mirror_apart (apart : MirrorApart s other) (t : Readings)
    (name value : Bytes) (valueFlags : UInt8) (origin : HostId) :
    (other.upsertWithFlags t name value valueFlags origin).result =
        (s.upsertWithFlags t name value valueFlags origin).result ∧
      (other.upsertWithFlags t name value valueFlags origin).notified =
        (s.upsertWithFlags t name value valueFlags origin).notified ∧
      (other.clock = s.clock → MirrorApart (s.upsertWithFlags t name value valueFlags origin).store
        (other.upsertWithFlags t name value valueFlags origin).store) := by
  have gate := apart.verdict t name value
  simp only [upsertWithFlags_eq, gate, true_and]
  cases verdict s t name value with
  | ok =>
    intro clock
    simp only [settle, clock]
    exact apart.pruned.install _ _
  | capExceeded => exact fun _ => apart.pruned
  | invalidName => exact fun _ => apart
  | valueTooLarge => exact fun _ => apart

/-- Every local write is atomic and respects the cap, whatever the mirror holds; an accepted value lives for as long
    as the limits allow. -/
theorem local_writes_respect_cap (s : RegisterStore) (t : Readings) (name value : Bytes) :
    (∀ valueFlags origin,
      LocalWrite s t name value valueFlags (s.upsertWithFlags t name value valueFlags origin)) ∧
    (∀ isPrivate origin, LocalWrite s t name value (if isPrivate then RegisterFlags.private_ else 0)
      (s.upsertFrom t name value isPrivate origin)) ∧
    (∀ isPrivate, LocalWrite s t name value (if isPrivate then RegisterFlags.private_ else 0)
      (s.upsert t name value isPrivate)) ∧
    ∀ other, MirrorApart s other → ∀ valueFlags origin,
      (other.upsertWithFlags t name value valueFlags origin).result =
          (s.upsertWithFlags t name value valueFlags origin).result ∧
        (other.upsertWithFlags t name value valueFlags origin).notified =
          (s.upsertWithFlags t name value valueFlags origin).notified ∧
        (other.clock = s.clock → MirrorApart (s.upsertWithFlags t name value valueFlags origin).store
          (other.upsertWithFlags t name value valueFlags origin).store) :=
  ⟨local_write s t name value, fun _ origin => local_write s t name value _ origin,
    fun _ => local_write s t name value _ s.localHost,
    fun _ apart valueFlags origin => upsert_mirror_apart apart t name value valueFlags origin⟩

namespace NoLifetime

def store : RegisterStore := configured HostId.zero 0 8 8 {}
def write : Call WriteResult := store.upsertWithFlags (.all 100) [0x6B] [0x70] 0 HostId.zero
def full : RegisterStore := (configured HostId.zero 1000 1 8 {}).mirrorDefault (.all 100) [0x70]
def unmirrored : RegisterStore := { full with records := .empty }

end NoLifetime

open NoLifetime in
theorem mirror_takes_no_slot :
    LocalWrite full (.all 100) [0x6B] [0x70] 0 (full.upsertWithFlags (.all 100) [0x6B] [0x70] 0 HostId.zero) ∧
      (unmirrored.upsertWithFlags (.all 100) [0x6B] [0x70] 0 HostId.zero).result =
        (full.upsertWithFlags (.all 100) [0x6B] [0x70] 0 HostId.zero).result := by
  have apart : MirrorApart full unmirrored := by
    refine ⟨fun name named => ?_, rfl, rfl, rfl⟩
    have kept : full.records.find name = KeyedMap.empty.find name := KeyedMap.find_put_ne (Ne.symm named)
    exact kept.symm
  have respects := local_writes_respect_cap full (.all 100) [0x6B] [0x70]
  exact ⟨respects.1 0 HostId.zero, (respects.2.2.2 unmirrored apart 0 HostId.zero).1⟩

open NoLifetime in
/-- Without a lifetime an accepted value is expired in the moment it is written. -/
theorem accepted_write_not_live : write.result = .ok ∧ unexpired write.store 100 [0x6B] = none := by
  decide +kernel

end ClippProof.Registers
