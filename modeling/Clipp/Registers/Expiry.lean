import Clipp.Registers.Remote

open Foundation

namespace ClippModel.Registers

/-- The limits as the daemon sets them at its start; the product is one of 64-bit words. -/
def limitsAtStart (s : RegisterStore) (registerTtlSeconds : UInt64) (registerMaxCount : Nat) : RegisterStore :=
  s.setLimits (registerTtlSeconds * 1000) registerMaxCount RegisterStore.kDefaultMaxValueBytes

end ClippModel.Registers

namespace ClippProof.Registers

open ClippModel.Registers ClippModel.Registers.RegisterStore

variable {s : RegisterStore} {now : UInt64} {name : Bytes} {r : RegisterRecord} {old : RegisterRecord → Prop}

def LeavesYoung (s : RegisterStore) (old : RegisterRecord → Prop) (after : RegisterStore) : Prop :=
  ∀ r, r ∈ after.records.entries ↔ r ∈ s.records.entries ∧ ¬ old r

/-- On every surface of the store old records are absent and all others are served. -/
structure Surfaces (s : RegisterStore) (now : UInt64) (old : RegisterRecord → Prop) : Prop where
  unread : ∀ name r, s.records.find name = some r → old r → (s.read (.all now) name).result = none
  read : ∀ name r, s.records.find name = some r → ¬ old r → r.isTombstone = false →
    (s.read (.all now) name).result = some { r with touched := (s.clock.now now).1 }
  undeleted : ∀ name r origin, s.records.find name = some r → old r →
    (s.deleteFrom (.all now) name origin).result = .notFound
  deleted : ∀ name r origin, s.records.find name = some r → ¬ old r → r.isTombstone = false →
    (s.deleteFrom (.all now) name origin).result = .deleted
  list : ∀ r, r ∈ (s.list (.all now)).result ↔ r ∈ s.records.entries ∧ ¬ old r ∧ r.isTombstone = false
  listNames : ∀ name, name ∈ (s.listNames (.all now)).result ↔
    ∃ r ∈ s.records.entries, r.name = name ∧ ¬ old r ∧ r.isTombstone = false
  digest : ∀ entry, entry ∈ (s.digest now).result ↔
    ∃ r ∈ s.records.entries, digestEntry r = entry ∧ ¬ old r ∧ r.name ≠ []
  snapshotForSync : ∀ r, r ∈ (s.snapshotForSync now).result ↔ r ∈ s.records.entries ∧ ¬ old r ∧ r.name ≠ []
  recordsToPush : ∀ remoteDigest r, r ∈ (s.recordsToPush now remoteDigest).result ↔
    (r ∈ s.records.entries ∧ ¬ old r ∧ r.name ≠ []) ∧ shouldPush remoteDigest r = true
  getForBroadcast : ∀ name r, (s.getForBroadcast now name).result = some r ↔
    s.records.find name = some r ∧ ¬ old r
  residents : LeavesYoung s old (s.list (.all now)).store ∧ LeavesYoung s old (s.listNames (.all now)).store ∧
    LeavesYoung s old (s.digest now).store ∧ LeavesYoung s old (s.snapshotForSync now).store ∧
    ∀ remoteDigest, LeavesYoung s old (s.recordsToPush now remoteDigest).store

theorem mem_prune : r ∈ (s.pruneExpiredLocked now).records.entries ↔
    r ∈ s.records.entries ∧ isExpired r now s.ttlMs = false := by
  change r ∈ s.records.entries.filter _ ↔ _
  rw [List.mem_filter, Bool.not_eq_true']

theorem mem_replicated : r ∈ (s.pruneExpiredLocked now).replicated ↔
    r ∈ s.records.entries ∧ isExpired r now s.ttlMs = false ∧ r.name ≠ [] := by
  rw [replicated, List.mem_filter, mem_prune, and_assoc]
  simp

theorem mem_list : r ∈ (s.list (.all now)).result ↔
    r ∈ s.records.entries ∧ isExpired r now s.ttlMs = false ∧ r.isTombstone = false := by
  change r ∈ (s.pruneExpiredLocked now).records.entries.filter _ ↔ _
  rw [List.mem_filter, mem_prune]
  simp only [Readings.all, Bool.and_eq_true, Bool.not_eq_true']
  constructor
  · rintro ⟨⟨member, alive⟩, value, _⟩
    exact ⟨member, alive, value⟩
  · rintro ⟨member, alive, value⟩
    exact ⟨⟨member, alive⟩, value, alive⟩

theorem read_of_live (found : s.records.find name = some r) (alive : isExpired r now s.ttlMs = false)
    (value : r.isTombstone = false) :
    (s.read (.all now) name).result = some { r with touched := (s.clock.now now).1 } := by
  unfold RegisterStore.read
  simp [found, alive, value, Readings.all]

theorem delete_of_live {origin : HostId} (found : s.records.find name = some r)
    (alive : isExpired r now s.ttlMs = false) (value : r.isTombstone = false) :
    (s.deleteFrom (.all now) name origin).result = .deleted := by
  unfold deleteFrom deleteLocked
  simp [found, alive, value, Readings.all]

theorem read_of_expired (found : s.records.find name = some r) (expired : isExpired r now s.ttlMs = true) :
    (s.read (.all now) name).result = none := by
  unfold RegisterStore.read
  simp [found, expired, Readings.all]

theorem delete_of_expired {origin : HostId} (found : s.records.find name = some r)
    (expired : isExpired r now s.ttlMs = true) : (s.deleteFrom (.all now) name origin).result = .notFound := by
  unfold deleteFrom deleteLocked
  simp [found, expired, Readings.all]

/-- The surfaces judge by one predicate, so they agree with another one where it agrees on the residents. -/
theorem surfaces_iff : Surfaces s now old ↔
    ∀ r ∈ s.records.entries, isExpired r now s.ttlMs = true ↔ old r := by
  constructor
  · intro surfaces r member
    have left : r ∈ (s.pruneExpiredLocked now).records.entries ↔ r ∈ s.records.entries ∧ ¬ old r :=
      surfaces.residents.1 r
    rw [mem_prune] at left
    simp only [member, true_and] at left
    rw [← not_iff_not, ← left, Bool.not_eq_true]
  · intro agree
    have young : ∀ r ∈ s.records.entries, isExpired r now s.ttlMs = false ↔ ¬ old r := by
      intro r member
      rw [← agree r member, Bool.not_eq_true]
    have resident : ∀ {name r}, s.records.find name = some r → r ∈ s.records.entries :=
      fun found => (KeyedMap.find_eq_some.mp found).1
    have survivors : LeavesYoung s old (s.pruneExpiredLocked now) := by
      intro r
      rw [mem_prune]
      exact and_congr_right fun member => young r member
    have advertised : ∀ r, r ∈ (s.pruneExpiredLocked now).replicated ↔
        r ∈ s.records.entries ∧ ¬ old r ∧ r.name ≠ [] := by
      intro r
      rw [mem_replicated]
      exact and_congr_right fun member => and_congr_left fun _ => young r member
    constructor
    · intro name r found gone
      exact read_of_expired found ((agree r (resident found)).mpr gone)
    · intro name r found fresh value
      exact read_of_live found ((young r (resident found)).mpr fresh) value
    · intro name r origin found gone
      exact delete_of_expired found ((agree r (resident found)).mpr gone)
    · intro name r origin found fresh value
      exact delete_of_live found ((young r (resident found)).mpr fresh) value
    · intro r
      rw [mem_list]
      exact and_congr_right fun member => and_congr_left fun _ => young r member
    · intro name
      change name ∈ (s.list (.all now)).result.map RegisterRecord.name ↔ _
      rw [List.mem_map]
      constructor
      · rintro ⟨r, listed, key⟩
        obtain ⟨member, alive, value⟩ := mem_list.mp listed
        exact ⟨r, member, key, (young r member).mp alive, value⟩
      · rintro ⟨r, member, key, fresh, value⟩
        exact ⟨r, mem_list.mpr ⟨member, (young r member).mpr fresh, value⟩, key⟩
    · intro entry
      change entry ∈ (s.pruneExpiredLocked now).replicated.map digestEntry ↔ _
      rw [List.mem_map]
      constructor
      · rintro ⟨r, shown, key⟩
        obtain ⟨member, fresh, named⟩ := (advertised r).mp shown
        exact ⟨r, member, key, fresh, named⟩
      · rintro ⟨r, member, key, fresh, named⟩
        exact ⟨r, (advertised r).mpr ⟨member, fresh, named⟩, key⟩
    · exact advertised
    · intro remoteDigest r
      change r ∈ (s.pruneExpiredLocked now).replicated.filter (shouldPush remoteDigest) ↔ _
      rw [List.mem_filter, advertised]
    · intro name r
      rw [getForBroadcast_result, unexpired_eq_some]
      exact and_congr_right fun found => young r (resident found)
    · exact ⟨survivors, survivors, survivors, survivors, fun _ => survivors⟩

def Aged (registerTtlSeconds now : UInt64) (r : RegisterRecord) : Prop :=
  r.touched.wallMs ≤ now ∧ registerTtlSeconds.toNat * 1000 ≤ now.toNat - r.touched.wallMs.toNat

theorem aged_iff {registerTtlSeconds : UInt64} : Aged registerTtlSeconds now r ↔
    r.touched.wallMs.toNat + registerTtlSeconds.toNat * 1000 ≤ now.toNat := by
  rw [Aged, UInt64.le_iff_toNat_le]
  omega

theorem isExpired_iff_aged {registerTtlSeconds : UInt64} (fits : registerTtlSeconds.toNat * 1000 < 2 ^ 64) :
    isExpired r now (registerTtlSeconds * 1000) = true ↔ Aged registerTtlSeconds now r := by
  have exact_product : (registerTtlSeconds * 1000).toNat = registerTtlSeconds.toNat * 1000 := by
    rw [UInt64.toNat_mul]
    exact Nat.mod_eq_of_lt fits
  rw [isExpired_iff, aged_iff, exact_product]

theorem not_aged {registerTtlSeconds : UInt64} (wraps : 2 ^ 64 ≤ registerTtlSeconds.toNat * 1000) :
    ¬ Aged registerTtlSeconds now r := by
  rw [aged_iff]
  have bound := now.toNat_lt
  omega

/-- Every surface keeps to the configured lifetime exactly when its milliseconds fit a word, or when no resident
    has reached the lifetime that is left of them. -/
theorem surfaces_keep_lifetime_iff (s : RegisterStore) (now registerTtlSeconds : UInt64) (registerMaxCount : Nat) :
    Surfaces (limitsAtStart s registerTtlSeconds registerMaxCount) now (Aged registerTtlSeconds now) ↔
      registerTtlSeconds.toNat * 1000 < 2 ^ 64 ∨
        ∀ r ∈ s.records.entries, isExpired r now (registerTtlSeconds * 1000) = false := by
  rw [surfaces_iff]
  change (∀ r ∈ s.records.entries, isExpired r now (registerTtlSeconds * 1000) = true ↔ _) ↔ _
  rcases Nat.lt_or_ge (registerTtlSeconds.toNat * 1000) (2 ^ 64) with fits | wraps
  · exact iff_of_true (fun r _ => isExpired_iff_aged fits) (.inl fits)
  · constructor
    · intro agree
      right
      intro r member
      rw [Bool.eq_false_iff]
      exact fun expired => not_aged wraps ((agree r member).mp expired)
    · rintro (fits | alive) r member
      · omega
      · exact iff_of_false (by simp [alive r member]) (not_aged wraps)

namespace Wrapped

def seconds : UInt64 := 18446744073709552
def resident : RegisterRecord := writtenRecord [0x6B] [0x70] 0 HostId.zero { wallMs := 1000, counter := 0 }
def store : RegisterStore := perform (configured HostId.zero 1000 8 8 {}) (.applyRemote 1000 resident)

end Wrapped

open Wrapped in
/-- A lifetime of half a billion years ends within half a second. -/
theorem wrapped_lifetime_ends_at_once : ¬ Surfaces (limitsAtStart store seconds 8) 2000 (Aged seconds 2000) := by
  intro surfaces
  have shown := surfaces.read [0x6B] resident (by decide +kernel)
    (not_aged (by decide)) (by decide)
  have gone : ((limitsAtStart store seconds 8).read (.all 2000) [0x6B]).result = none := by decide +kernel
  rw [gone] at shown
  cases shown

end ClippProof.Registers
