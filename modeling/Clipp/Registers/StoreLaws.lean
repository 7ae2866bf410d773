import Clipp.Registers.Store

open Foundation

namespace ClippProof.Registers

open ClippModel.Registers ClippModel.Registers.RegisterStore

variable {s after : RegisterStore} {t : Readings} {now : UInt64} {name value : Bytes} {r : RegisterRecord}

def unexpired (s : RegisterStore) (now : UInt64) (name : Bytes) : Option RegisterRecord :=
  (s.records.find name).filter (fun r => !isExpired r now s.ttlMs)

theorem unexpired_eq_some :
    unexpired s now name = some r ↔ s.records.find name = some r ∧ isExpired r now s.ttlMs = false := by
  simp [unexpired]

theorem unexpired_name (found : unexpired s now name = some r) : r.name = name :=
  KeyedMap.find_key (unexpired_eq_some.mp found).1

@[simp] theorem prune_find : (s.pruneExpiredLocked now).records.find name = unexpired s now name :=
  KeyedMap.find_filter _ _ _

/-- The store may have lost residents, but only ones expired at the reading. -/
structure Dropped (expiry : UInt64) (s after : RegisterStore) : Prop where
  rest : after = { s with records := after.records }
  kept : ∀ name, after.records.find name = s.records.find name ∨
    (after.records.find name = none ∧ unexpired s expiry name = none)

theorem Dropped.refl (expiry : UInt64) (s : RegisterStore) : Dropped expiry s s :=
  ⟨rfl, fun _ => .inl rfl⟩

theorem dropped_prune (s : RegisterStore) (now : UInt64) : Dropped now s (s.pruneExpiredLocked now) := by
  refine ⟨rfl, fun name => ?_⟩
  cases live : unexpired s now name with
  | none => exact .inr ⟨prune_find.trans live, rfl⟩
  | some r => exact .inl (prune_find.trans (live.trans (unexpired_eq_some.mp live).1.symm))

theorem dropped_erase (found : s.records.find name = some r) (expired : isExpired r now s.ttlMs = true) :
    Dropped now s { s with records := s.records.erase name } := by
  refine ⟨rfl, fun other => ?_⟩
  change (s.records.erase name).find other = _ ∨ (s.records.erase name).find other = none ∧ _
  rw [KeyedMap.find_erase]
  by_cases same : other = name
  · subst same
    right
    simp [unexpired, found, expired]
  · left
    simp [same]

theorem Dropped.clock {expiry : UInt64} (drop : Dropped expiry s after) : after.clock = s.clock := by
  rw [drop.rest]

theorem Dropped.ttlMs {expiry : UInt64} (drop : Dropped expiry s after) : after.ttlMs = s.ttlMs := by
  rw [drop.rest]

theorem Dropped.find_of_some {expiry : UInt64} (drop : Dropped expiry s after)
    (found : after.records.find name = some r) : s.records.find name = some r := by
  rcases drop.kept name with same | ⟨gone, _⟩
  · exact same.symm.trans found
  · rw [gone] at found
    cases found

theorem Dropped.find_of_unexpired {expiry : UInt64} (drop : Dropped expiry s after)
    (live : unexpired s expiry name = some r) : after.records.find name = some r := by
  rcases drop.kept name with same | ⟨_, none⟩
  · exact same.trans (unexpired_eq_some.mp live).1
  · rw [live] at none
    cases none

/-- The shared ending of the operations that store a record: clock and one record replaced. -/
def install (s : RegisterStore) (clock : HlcClock) (r : RegisterRecord) : RegisterStore :=
  { s with clock := clock, records := s.records.put r }

theorem install_find (clock : HlcClock) :
    (install s clock r).records.find name = if r.name = name then some r else s.records.find name :=
  KeyedMap.find_put _ _ _

@[simp] theorem install_find_self (clock : HlcClock) :
    (install s clock r).records.find r.name = some r := by rw [install_find, if_pos rfl]

/-- An upsert passes its three gates: the name, the size of the value, and room for a new name. -/
def Admitted (s : RegisterStore) (t : Readings) (name value : Bytes) : Prop :=
  isValidRegisterName name = true ∧ value.length ≤ s.maxValueBytes ∧
    ((s.pruneExpiredLocked t.expiry).currentlyLiveValue name = true ∨
      (s.pruneExpiredLocked t.expiry).liveCountLocked t.recheck < s.maxCount)

def Living (s : RegisterStore) (t : Readings) (name : Bytes) : Prop :=
  ∃ r, unexpired s t.expiry name = some r ∧ r.isTombstone = false

theorem upsertLocked_cases (s : RegisterStore) (t : Readings) (name value : Bytes) (valueFlags : UInt8)
    (origin : HostId) :
    ((s.upsertLocked t name value valueFlags origin).1 ≠ .ok ∧
      Dropped t.expiry s (s.upsertLocked t name value valueFlags origin).2) ∨
    (Admitted s t name value ∧
      s.upsertLocked t name value valueFlags origin =
        (.ok, install (s.pruneExpiredLocked t.expiry) (s.clock.now t.mint).2
          (writtenRecord name value valueFlags origin (s.clock.now t.mint).1))) := by
  unfold upsertLocked
  by_cases valid : isValidRegisterName name = true
  · by_cases large : value.length > s.maxValueBytes
    · left
      simp [valid, large, Dropped.refl]
    · by_cases full : (!(s.pruneExpiredLocked t.expiry).currentlyLiveValue name) = true ∧
          (s.pruneExpiredLocked t.expiry).liveCountLocked t.recheck ≥ s.maxCount
      · left
        have refused : (s.pruneExpiredLocked t.expiry).maxCount = s.maxCount := rfl
        simp only [valid, large, refused, full, Bool.not_true, Bool.false_eq_true, if_false,
          and_self, if_true]
        exact ⟨by simp, dropped_prune s t.expiry⟩
      · right
        have limit : (s.pruneExpiredLocked t.expiry).maxCount = s.maxCount := rfl
        refine ⟨⟨valid, not_lt.mp large, ?_⟩, ?_⟩
        · simp only [not_and_or, Bool.not_eq_true', Bool.not_eq_false, not_le, ge_iff_le] at full
          exact full
        · simp only [valid, large, limit, full, Bool.not_true, Bool.false_eq_true, if_false]
          rfl
  · left
    simp [valid, Dropped.refl]

theorem read_cases (s : RegisterStore) (t : Readings) (name : Bytes) :
    ((s.read t name).result = none ∧ (s.read t name).notified = false ∧
      Dropped t.expiry s (s.read t name).store) ∨
    (∃ r, unexpired s t.expiry name = some r ∧ r.isTombstone = false ∧
      s.read t name =
        { result := some { r with touched := (s.clock.now t.mint).1 }
          store := install s (s.clock.now t.mint).2 { r with touched := (s.clock.now t.mint).1 }
          notified := true }) := by
  unfold RegisterStore.read
  cases found : s.records.find name with
  | none => exact .inl ⟨rfl, rfl, Dropped.refl _ _⟩
  | some r =>
    by_cases expired : isExpired r t.expiry s.ttlMs = true
    · left
      simp only [expired, if_true]
      exact ⟨trivial, trivial, dropped_erase found expired⟩
    · by_cases dead : r.isTombstone = true
      · left
        simp only [expired, dead, Bool.false_eq_true, if_false, if_true]
        exact ⟨trivial, trivial, Dropped.refl _ _⟩
      · right
        refine ⟨r, unexpired_eq_some.mpr ⟨found, by simpa using expired⟩, by simpa using dead, ?_⟩
        simp only [expired, dead, Bool.false_eq_true, if_false]
        rfl

theorem deleteLocked_cases (s : RegisterStore) (t : Readings) (name : Bytes) (origin : HostId) :
    ((s.deleteLocked t name origin).1 = .notFound ∧
      Dropped t.expiry s (s.deleteLocked t name origin).2) ∨
    (∃ r, unexpired s t.expiry name = some r ∧ r.isTombstone = false ∧
      s.deleteLocked t name origin =
        (.deleted, install s (s.clock.now t.mint).2
          (tombstoneRecord r origin (s.clock.now t.mint).1))) := by
  unfold deleteLocked
  cases found : s.records.find name with
  | none => exact .inl ⟨rfl, Dropped.refl _ _⟩
  | some r =>
    by_cases expired : isExpired r t.expiry s.ttlMs = true
    · left
      simp only [expired, if_true]
      exact ⟨trivial, dropped_erase found expired⟩
    · by_cases dead : r.isTombstone = true
      · left
        simp only [expired, dead, Bool.false_eq_true, if_false, if_true]
        exact ⟨trivial, Dropped.refl _ _⟩
      · right
        refine ⟨r, unexpired_eq_some.mpr ⟨found, by simpa using expired⟩, by simpa using dead, ?_⟩
        simp only [expired, dead, Bool.false_eq_true, if_false]
        rfl

theorem getForBroadcast_dropped (s : RegisterStore) (now : UInt64) (name : Bytes) :
    Dropped now s (s.getForBroadcast now name).store := by
  unfold getForBroadcast
  cases found : s.records.find name with
  | none => exact Dropped.refl _ _
  | some r =>
    by_cases expired : isExpired r now s.ttlMs = true
    · simp only [expired, if_true]
      exact dropped_erase found expired
    · simp only [expired, Bool.false_eq_true, if_false]
      exact Dropped.refl _ _

theorem getForBroadcast_result (s : RegisterStore) (now : UInt64) (name : Bytes) :
    (s.getForBroadcast now name).result = unexpired s now name := by
  unfold getForBroadcast unexpired
  cases found : s.records.find name with
  | none => rfl
  | some r =>
    by_cases expired : isExpired r now s.ttlMs = true <;> simp [expired, Option.filter]

theorem mem_replicated_prune :
    r ∈ (s.pruneExpiredLocked now).replicated ↔ unexpired s now r.name = some r ∧ r.name ≠ [] := by
  rw [replicated, List.mem_filter, ← prune_find]
  constructor
  · rintro ⟨member, named⟩
    exact ⟨KeyedMap.find_self member, by simpa using named⟩
  · rintro ⟨found, named⟩
    exact ⟨(KeyedMap.find_eq_some.mp found).1, by simpa using named⟩

theorem mem_snapshotForSync :
    r ∈ (s.snapshotForSync now).result ↔ unexpired s now r.name = some r ∧ r.name ≠ [] :=
  mem_replicated_prune

def absorb : Option RegisterRecord → RegisterRecord → RegisterRecord
  | none, incoming => incoming
  | some resident, incoming => mergeRecords resident incoming

theorem absorb_name {resident : Option RegisterRecord} {incoming : RegisterRecord}
    (same : ∀ q, resident = some q → q.name = incoming.name) :
    (absorb resident incoming).name = incoming.name := by
  cases resident with
  | none => rfl
  | some q => exact (mergeRecords_name (same q rfl)).trans (same q rfl)

theorem le_absorb {resident : Option RegisterRecord} {incoming : RegisterRecord}
    (same : ∀ q, resident = some q → q.name = incoming.name) : incoming ≤ absorb resident incoming := by
  cases resident with
  | none => exact le_rfl
  | some q => exact le_mergeRecords_right (same q rfl)

def witnessAll (c : HlcClock) (r : RegisterRecord) : HlcClock := (c.witness r.written).witness r.touched

theorem applyRemote_nameless (s : RegisterStore) (now : UInt64) {incoming : RegisterRecord}
    (nameless : incoming.name = []) : s.applyRemoteLocked now incoming = (false, s) := by
  simp [applyRemoteLocked, nameless]

theorem applyRemote_clock (s : RegisterStore) (now : UInt64) {incoming : RegisterRecord}
    (named : incoming.name ≠ []) :
    (s.applyRemoteLocked now incoming).2.clock = witnessAll s.clock incoming := by
  unfold applyRemoteLocked
  simp only [List.isEmpty_iff, named, if_false]
  split_ifs with expired
  · rfl
  · cases s.records.find incoming.name with
    | none => rfl
    | some resident =>
      dsimp only
      split_ifs <;> rfl

theorem applyRemote_rest (s : RegisterStore) (now : UInt64) (incoming : RegisterRecord) :
    (s.applyRemoteLocked now incoming).2 =
      { s with
        clock := (s.applyRemoteLocked now incoming).2.clock
        records := (s.applyRemoteLocked now incoming).2.records } := by
  unfold applyRemoteLocked
  split_ifs
  · rfl
  · rfl
  · cases s.records.find incoming.name with
    | none => rfl
    | some resident =>
      dsimp only
      split_ifs <;> rfl

@[simp] theorem applyRemote_ttlMs (s : RegisterStore) (now : UInt64) (incoming : RegisterRecord) :
    (s.applyRemoteLocked now incoming).2.ttlMs = s.ttlMs := by rw [applyRemote_rest]

theorem applyRemote_expired (s : RegisterStore) (now : UInt64) {incoming : RegisterRecord}
    (expired : isExpired incoming now s.ttlMs = true) :
    (s.applyRemoteLocked now incoming).2.records = s.records := by
  unfold applyRemoteLocked
  split_ifs <;> rfl

theorem applyRemote_quiet (s : RegisterStore) (now : UInt64) {incoming : RegisterRecord}
    (quiet : (s.applyRemoteLocked now incoming).1 = false) :
    (s.applyRemoteLocked now incoming).2.records = s.records := by
  unfold applyRemoteLocked at quiet ⊢
  split_ifs at quiet ⊢
  · rfl
  · rfl
  · cases found : s.records.find incoming.name with
    | none =>
      rw [found] at quiet
      cases quiet
    | some resident =>
      simp only [found] at quiet ⊢
      split_ifs at quiet ⊢
      rfl

theorem applyRemote_find (s : RegisterStore) (now : UInt64) {incoming : RegisterRecord} (name : Bytes)
    (named : incoming.name ≠ []) (fresh : isExpired incoming now s.ttlMs = false) :
    (s.applyRemoteLocked now incoming).2.records.find name =
      if incoming.name = name then some (absorb (unexpired s now incoming.name) incoming)
      else s.records.find name := by
  unfold applyRemoteLocked unexpired
  simp only [List.isEmpty_iff, named, fresh, Bool.false_eq_true, if_false]
  cases found : s.records.find incoming.name with
  | none =>
    dsimp only
    rw [KeyedMap.find_put]
    rfl
  | some resident =>
    have sameName : resident.name = incoming.name := KeyedMap.find_key found
    by_cases expired : isExpired resident now s.ttlMs = true
    · simp only [expired, if_true, Option.filter, Bool.not_true, Bool.false_eq_true, if_false]
      rw [KeyedMap.find_put]
      rfl
    · have live : (!isExpired resident now s.ttlMs) = true := by simpa using expired
      simp only [expired, Bool.false_eq_true, if_false, Option.filter, Bool.not_false, if_true, absorb]
      have mergedName : (mergeRecords resident incoming).name = incoming.name :=
        (mergeRecords_name sameName).trans sameName
      by_cases dominated : mergeRecords resident incoming = resident
      · simp only [dominated, if_true]
        split_ifs with same
        · rw [← same, found]
        · rfl
      · simp only [dominated, if_false]
        rw [KeyedMap.find_put]
        simp only [mergedName]

theorem applyRemote_others (s : RegisterStore) (now : UInt64) (incoming : RegisterRecord) {name : Bytes}
    (other : name ≠ incoming.name) :
    (s.applyRemoteLocked now incoming).2.records.find name = s.records.find name := by
  by_cases named : incoming.name = []
  · rw [applyRemote_nameless s now named]
  by_cases expired : isExpired incoming now s.ttlMs = true
  · rw [applyRemote_expired s now expired]
  · rw [applyRemote_find s now name named (by simpa using expired), if_neg other.symm]

def MergeClosed (P : RegisterRecord → Prop) : Prop :=
  ∀ a b, a.name = b.name → P a → P b → P (mergeRecords a b)

theorem applyRemote_residents {P : RegisterRecord → Prop} {incoming : RegisterRecord} (closed : MergeClosed P)
    (resident : ∀ name r, s.records.find name = some r → P r) (arriving : P incoming)
    (found : (s.applyRemoteLocked now incoming).2.records.find name = some r) : P r := by
  by_cases named : incoming.name = []
  · rw [applyRemote_nameless s now named] at found
    exact resident name r found
  by_cases expired : isExpired incoming now s.ttlMs = true
  · rw [applyRemote_expired s now expired] at found
    exact resident name r found
  rw [applyRemote_find s now name named (by simpa using expired)] at found
  split_ifs at found
  · cases found
    cases live : unexpired s now incoming.name with
    | none => exact arriving
    | some q =>
      exact closed q incoming (unexpired_name live) (resident _ q (unexpired_eq_some.mp live).1) arriving
  · exact resident name r found

end ClippProof.Registers
