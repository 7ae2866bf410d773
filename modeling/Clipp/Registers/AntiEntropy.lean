import Clipp.Registers.Content

open Foundation

namespace ClippProof.Registers

open ClippModel.Registers ClippModel.Registers.RegisterStore

variable {a b s : RegisterStore} {now : UInt64} {name : Bytes} {r q : RegisterRecord}
  {remote : List RegisterDigestEntry}

/-- The order a digest is answered in: written first, then touched. -/
def stamps (r : RegisterRecord) : Hlc ×ₗ Hlc := toLex (r.written, r.touched)

def entryStamps (e : RegisterDigestEntry) : Hlc ×ₗ Hlc := toLex (e.written, e.touched)

def visible (s : RegisterStore) (now : UInt64) (name : Bytes) : Option RegisterRecord :=
  if name = [] then none else unexpired s now name

theorem visible_of_named (named : name ≠ []) : visible s now name = unexpired s now name := if_neg named

theorem visible_eq_some :
    visible s now name = some r ↔ name ≠ [] ∧ s.records.find name = some r ∧ isExpired r now s.ttlMs = false := by
  unfold visible
  split_ifs with nameless
  · simp [nameless]
  · simp [nameless, unexpired_eq_some]

theorem visible_name (found : visible s now name = some r) : r.name = name :=
  KeyedMap.find_key (visible_eq_some.mp found).2.1

def replicatedMap (s : RegisterStore) (now : UInt64) : RecordMap :=
  (s.pruneExpiredLocked now).records.filter (fun r => !r.name.isEmpty)

theorem replicatedMap_find : (replicatedMap s now).find name = visible s now name := by
  rw [replicatedMap, KeyedMap.find_filter, prune_find, visible]
  split_ifs with nameless
  · cases found : unexpired s now name with
    | none => rfl
    | some r => simp [unexpired_name found, nameless]
  · cases found : unexpired s now name with
    | none => rfl
    | some r => simp [unexpired_name found, nameless]

theorem snapshot_entries : (s.snapshotForSync now).result = (replicatedMap s now).entries := rfl

theorem mem_snapshot : r ∈ (s.snapshotForSync now).result ↔ visible s now r.name = some r := by
  rw [← replicatedMap_find, KeyedMap.find_eq_some, snapshot_entries]
  simp

theorem snapshot_eq_iff {now' : UInt64} :
    (a.snapshotForSync now).result = (b.snapshotForSync now').result ↔
      ∀ name, visible a now name = visible b now' name := by
  constructor
  · intro same name
    have maps : replicatedMap a now = replicatedMap b now' := by
      rw [snapshot_entries, snapshot_entries] at same
      cases left : replicatedMap a now
      cases right : replicatedMap b now'
      simpa [left, right] using same
    rw [← replicatedMap_find, ← replicatedMap_find, maps]
  · intro same
    have maps : replicatedMap a now = replicatedMap b now' := by
      apply KeyedMap.ext_find
      intro name
      rw [replicatedMap_find, replicatedMap_find, same]
    rw [snapshot_entries, snapshot_entries, maps]

theorem remoteEntry_digest :
    remoteEntry (s.digest now).result name = (visible s now name).map digestEntry := by
  rw [← replicatedMap_find]
  change List.find? _ ((replicatedMap s now).entries.map digestEntry) = _
  rw [List.find?_map]
  congr 2
  funext r
  exact decide_eq_decide.mpr Iff.rfl

theorem shouldPush_iff :
    shouldPush remote r = true ↔ ∀ e, remoteEntry remote r.name = some e → entryStamps e < stamps r := by
  rw [shouldPush]
  cases remoteEntry remote r.name with
  | none => simp
  | some e => simp [stamps, entryStamps, Prod.Lex.toLex_lt_toLex, eq_comm (a := e.written) (b := r.written)]

theorem shouldPush_digest : shouldPush (b.digest now).result r = true ↔
    ∀ q, visible b now r.name = some q → stamps q < stamps r := by
  rw [shouldPush_iff, remoteEntry_digest]
  cases visible b now r.name with
  | none => simp
  | some q => simp [stamps, entryStamps, digestEntry]

theorem mem_pushed : r ∈ (a.recordsToPush now remote).result ↔
    visible a now r.name = some r ∧ shouldPush remote r = true := by
  rw [← mem_snapshot]
  exact List.mem_filter

theorem mem_recordsToPush : r ∈ (a.recordsToPush now (b.digest now).result).result ↔
    visible a now r.name = some r ∧ ∀ q, visible b now r.name = some q → stamps q < stamps r := by
  rw [mem_pushed, shouldPush_digest]

def Quiescent (a b : RegisterStore) (now : UInt64) : Prop :=
  (a.recordsToPush now (b.digest now).result).result = [] ∧
    (b.recordsToPush now (a.digest now).result).result = []

def Agree (a b : RegisterStore) (now : UInt64) : Prop :=
  (a.snapshotForSync now).result = (b.snapshotForSync now).result

instance (a b : RegisterStore) (now : UInt64) : Decidable (Quiescent a b now) :=
  inferInstanceAs (Decidable (_ ∧ _))

instance (a b : RegisterStore) (now : UInt64) : Decidable (Agree a b now) :=
  inferInstanceAs (Decidable (_ = _))

def SameStamps (a b : RegisterStore) (now : UInt64) : Prop :=
  ∀ name, (visible a now name).map stamps = (visible b now name).map stamps

/-- All stamps agree, yet two records with the same stamps have different contents. -/
def HiddenTie (a b : RegisterStore) (now : UInt64) : Prop :=
  SameStamps a b now ∧ ∃ name r q, visible a now name = some r ∧ visible b now name = some q ∧
    ¬ (r.originHostId = q.originHostId ∧ r.flags = q.flags ∧ r.value = q.value)

theorem nothing_to_push_iff : (a.recordsToPush now (b.digest now).result).result = [] ↔
    ∀ name r, visible a now name = some r → ∃ q, visible b now name = some q ∧ stamps r ≤ stamps q := by
  rw [List.eq_nil_iff_forall_not_mem]
  constructor
  · intro none_pushed name r found
    have key := visible_name found
    have kept := mt mem_recordsToPush.mpr (none_pushed r)
    rw [key] at kept
    simpa [found, and_comm] using kept
  · intro covered r pushed
    obtain ⟨found, newer⟩ := mem_recordsToPush.mp pushed
    obtain ⟨q, other, le⟩ := covered _ r found
    exact absurd (newer q other) (not_lt.mpr le)

theorem quiescent_iff : Quiescent a b now ↔ SameStamps a b now := by
  rw [Quiescent, nothing_to_push_iff, nothing_to_push_iff]
  constructor
  · rintro ⟨left, right⟩ name
    cases here : visible a now name with
    | some r =>
      obtain ⟨q, there, le⟩ := left name r here
      obtain ⟨p, back, ge⟩ := right name q there
      rw [here] at back
      cases back
      simp [there, le_antisymm le ge]
    | none =>
      cases there : visible b now name with
      | none => rfl
      | some q =>
        obtain ⟨p, back, _⟩ := right name q there
        rw [here] at back
        cases back
  · intro same
    constructor
    · intro name r here
      have both := same name
      rw [here, Option.map_some, eq_comm, Option.map_eq_some_iff] at both
      obtain ⟨q, there, equal⟩ := both
      exact ⟨q, there, equal.ge⟩
    · intro name r here
      have both := same name
      rw [here, Option.map_some, Option.map_eq_some_iff] at both
      obtain ⟨q, there, equal⟩ := both
      exact ⟨q, there, equal.ge⟩

theorem eq_of_contents (name : r.name = q.name) (same : stamps r = stamps q)
    (origin : r.originHostId = q.originHostId) (flags : r.flags = q.flags) (value : r.value = q.value) :
    r = q := by
  have both : (r.written, r.touched) = (q.written, q.touched) := same
  exact RegisterRecord.ext name value (congrArg Prod.fst both) (congrArg Prod.snd both) origin flags

/-- Empty pushes both ways mean equal snapshots except across a hidden tie: the digest carries
    neither origin nor flags nor value, which the merge order breaks ties by. -/
theorem anti_entropy_agrees_iff (a b : RegisterStore) (now : UInt64) :
    (Quiescent a b now → Agree a b now) ↔ ¬ HiddenTie a b now := by
  rw [quiescent_iff, Agree, snapshot_eq_iff]
  constructor
  · rintro agrees ⟨same, name, r, q, here, there, differ⟩
    have equal := agrees same name
    rw [here, there] at equal
    cases equal
    exact differ ⟨rfl, rfl, rfl⟩
  · intro noTie same name
    have both := same name
    cases here : visible a now name with
    | none =>
      rw [here, Option.map_none, eq_comm, Option.map_eq_none_iff] at both
      exact both.symm
    | some r =>
      rw [here, Option.map_some, eq_comm, Option.map_eq_some_iff] at both
      obtain ⟨q, there, equal⟩ := both
      by_contra differ
      refine noTie ⟨same, name, r, q, here, there, ?_⟩
      rintro ⟨origin, flags, value⟩
      have key : r.name = q.name := (visible_name here).trans (visible_name there).symm
      exact differ (by rw [there, eq_of_contents key equal.symm origin flags value])

namespace SameInstant

def host (n : UInt8) : HostId := ⟨List.replicate 16 n, List.length_replicate⟩
def written (n : UInt8) : RegisterRecord :=
  writtenRecord [0x6B] [n] 0 (host n) { wallMs := 100, counter := 0 }
def store (n : UInt8) : RegisterStore :=
  ((create (host n) RegisterStore.kDefaultTtlMs 8 8).applyRemote 100 (written n)).store

end SameInstant

open SameInstant in
theorem same_instant_writes_stay_apart : Quiescent (store 1) (store 2) 100 ∧ ¬ Agree (store 1) (store 2) 100 := by
  decide +kernel

end ClippProof.Registers
