import Clipp.Registers.StoreLaws

open Foundation

namespace ClippProof.Registers

open ClippModel.Registers ClippModel.Registers.RegisterStore

variable {s after : RegisterStore} {t : Readings} {now phys : UInt64} {name value : Bytes}
  {r q incoming : RegisterRecord} {c d : HlcClock}

def Stamped (c : HlcClock) (r : RegisterRecord) : Prop := r.written ≤ c.last ∧ r.touched ≤ c.last

def StampedStore (s : RegisterStore) : Prop :=
  ∀ name r, s.records.find name = some r → r.name ≠ [] ∧ Stamped s.clock r

/-- The record is resident, or absorbed by the resident of its name. -/
def Covers (s : RegisterStore) (r : RegisterRecord) : Prop :=
  ∃ q, s.records.find r.name = some q ∧ r ≤ q

theorem Stamped.mono (le : c.last ≤ d.last) (stamped : Stamped c r) : Stamped d r :=
  ⟨stamped.1.trans le, stamped.2.trans le⟩

theorem written_mergeRecords (a b : RegisterRecord) :
    (mergeRecords a b).written = a.written ∨ (mergeRecords a b).written = b.written := by
  unfold mergeRecords
  split_ifs <;> simp

theorem Stamped.merge (left : Stamped c q) (right : Stamped c r) : Stamped c (mergeRecords q r) := by
  refine ⟨?_, max_le left.2 right.2⟩
  rcases written_mergeRecords q r with same | same
  · exact same ▸ left.1
  · exact same ▸ right.1

theorem Stamped.absorb {resident : Option RegisterRecord}
    (left : ∀ q, resident = some q → Stamped c q) (right : Stamped c incoming) :
    Stamped c (absorb resident incoming) := by
  cases resident with
  | none => exact right
  | some q => exact (left q rfl).merge right

theorem stamped_minted (stamps : r.written = (c.now phys).1 ∧ r.touched = (c.now phys).1) :
    Stamped (c.now phys).2 r := ⟨stamps.1.le, stamps.2.le⟩

theorem witnessAll_mono (c : HlcClock) (r : RegisterRecord) : c.last ≤ (witnessAll c r).last :=
  (le_max_left _ _).trans (le_max_left _ _)

theorem stamped_witnessAll (c : HlcClock) (r : RegisterRecord) : Stamped (witnessAll c r) r :=
  ⟨(le_max_right _ _).trans (le_max_left _ _), le_max_right _ _⟩

theorem minted_above (fresh : ¬ c.Exhausted phys) (name : q.name = r.name) (seen : Stamped c q)
    (stamps : r.written = (c.now phys).1 ∧ r.touched = (c.now phys).1) :
    valueKey q < valueKey r ∧ q ≤ r := by
  have above := HlcClock.now_above fresh
  have less : q.written < r.written := stamps.1 ▸ seen.1.trans_lt above
  have touched : q.touched ≤ r.touched := stamps.2 ▸ (seen.2.trans above.le)
  exact ⟨valueKey_lt_of_written less, name, (valueKey_lt_of_written less).le, touched⟩

theorem StampedStore.find {name : Bytes} (inv : StampedStore s)
    (found : s.records.find name = some r) : Stamped s.clock r := (inv name r found).2

theorem Dropped.stamped {expiry : UInt64} (drop : Dropped expiry s after) (inv : StampedStore s) :
    StampedStore after := by
  intro name r found
  rw [drop.clock]
  exact inv name r (drop.find_of_some found)

theorem Dropped.covers {expiry : UInt64} (drop : Dropped expiry s after)
    (alive : isExpired r expiry s.ttlMs = false) (covered : Covers s r) : Covers after r := by
  obtain ⟨q, found, le⟩ := covered
  have qAlive : isExpired q expiry s.ttlMs = false := by
    rw [Bool.eq_false_iff]
    intro expired
    rw [isExpired_antitone le.2.2 expired] at alive
    cases alive
  exact ⟨q, drop.find_of_unexpired (unexpired_eq_some.mpr ⟨found, qAlive⟩), le⟩

theorem install_stamped (inv : StampedStore s) (named : r.name ≠ []) (clock : s.clock.last ≤ c.last)
    (stamped : Stamped c r) : StampedStore (install s c r) := by
  intro name q found
  rw [install_find] at found
  split_ifs at found with same
  · cases found
    exact ⟨named, stamped⟩
  · exact ⟨(inv name q found).1, (inv.find found).mono clock⟩

theorem install_covers (covered : Covers s q)
    (above : ∀ p, s.records.find r.name = some p → p ≤ r) : Covers (install s c r) q := by
  obtain ⟨p, found, le⟩ := covered
  by_cases same : r.name = q.name
  · refine ⟨r, same ▸ install_find_self c, le.trans (above p (same ▸ found))⟩
  · refine ⟨p, ?_, le⟩
    rw [install_find, if_neg same]
    exact found

/-- A stamp goes to waste when the counter that issues it has no successor. -/
def UpsertFits (s : RegisterStore) (t : Readings) (name value : Bytes) : Prop :=
  Admitted s t name value → ¬ s.clock.Exhausted t.mint

def LivingFits (s : RegisterStore) (t : Readings) (name : Bytes) : Prop :=
  Living s t name → ¬ s.clock.Exhausted t.mint

/-- What every operation guarantees of a store whose clock has seen its residents. -/
structure Ascends (expiry : UInt64) (s after : RegisterStore) : Prop where
  stamped : StampedStore after
  clock : s.clock.last ≤ after.clock.last
  ttlMs : after.ttlMs = s.ttlMs
  covers : ∀ r, isExpired r expiry s.ttlMs = false → Covers s r → Covers after r

theorem Ascends.later {expiry later : UInt64} (ascends : Ascends expiry s after) (le : expiry ≤ later) :
    Ascends later s after :=
  ⟨ascends.stamped, ascends.clock, ascends.ttlMs, fun r alive =>
    ascends.covers r (unexpired_earlier le alive)⟩

theorem Covers.in_snapshot (covered : Covers s r) (alive : isExpired r now s.ttlMs = false)
    (named : r.name ≠ []) : ∃ q ∈ (s.snapshotForSync now).result, r ≤ q := by
  obtain ⟨q, found, le⟩ := covered
  have sameName : q.name = r.name := KeyedMap.find_key found
  refine ⟨q, mem_snapshotForSync.mpr ⟨unexpired_eq_some.mpr ⟨?_, unexpired_above le alive⟩, ?_⟩, le⟩
  · rw [sameName]
    exact found
  · rw [sameName]
    exact named

theorem covers_of_snapshot (member : r ∈ (s.snapshotForSync now).result) : Covers s r :=
  ⟨r, (unexpired_eq_some.mp (mem_snapshotForSync.mp member).1).1, le_rfl⟩

theorem Dropped.covers_before {expiry : UInt64} (drop : Dropped expiry s after) (covered : Covers after r) :
    Covers s r := by
  obtain ⟨q, found, le⟩ := covered
  exact ⟨q, drop.find_of_some found, le⟩

theorem Dropped.ascends {expiry : UInt64} (drop : Dropped expiry s after) (inv : StampedStore s) :
    Ascends expiry s after where
  stamped := drop.stamped inv
  clock := by rw [drop.clock]
  ttlMs := drop.ttlMs
  covers _ alive covered := drop.covers alive covered

theorem install_ascends {expiry : UInt64} (drop : Dropped expiry s after) (inv : StampedStore s)
    (fresh : ¬ s.clock.Exhausted phys) (named : r.name ≠ []) (stamped : Stamped (s.clock.now phys).2 r)
    (above : ∀ p, s.records.find r.name = some p → p ≤ r) :
    Ascends expiry s (install after (s.clock.now phys).2 r) where
  stamped := install_stamped (drop.stamped inv) named
    (by rw [drop.clock]; exact (HlcClock.now_above fresh).le) stamped
  clock := (HlcClock.now_above fresh).le
  ttlMs := drop.ttlMs
  covers _ alive covered :=
    install_covers (drop.covers alive covered) (fun p found => above p (drop.find_of_some found))

theorem upsert_ascends {valueFlags : UInt8} {origin : HostId} (inv : StampedStore s)
    (fits : UpsertFits s t name value) :
    Ascends t.expiry s (s.upsertLocked t name value valueFlags origin).2 := by
  rcases upsertLocked_cases s t name value valueFlags origin with ⟨_, drop⟩ | ⟨admitted, equal⟩
  · exact drop.ascends inv
  · have fresh : ¬ s.clock.Exhausted t.mint := fits admitted
    rw [equal]
    refine install_ascends (dropped_prune s t.expiry) inv fresh (validName_ne_nil admitted.1)
      (stamped_minted ⟨rfl, rfl⟩) ?_
    intro p found
    exact (minted_above fresh (KeyedMap.find_key found) (inv.find found) ⟨rfl, rfl⟩).2

theorem delete_ascends {origin : HostId} (inv : StampedStore s) (fits : LivingFits s t name) :
    Ascends t.expiry s (s.deleteLocked t name origin).2 := by
  rcases deleteLocked_cases s t name origin with ⟨_, drop⟩ | ⟨r, live, value, equal⟩
  · exact drop.ascends inv
  · have fresh : ¬ s.clock.Exhausted t.mint := fits ⟨r, live, value⟩
    have found := (unexpired_eq_some.mp live).1
    rw [equal]
    refine install_ascends (Dropped.refl _ s) inv fresh (inv name r found).1
      (stamped_minted ⟨rfl, rfl⟩) ?_
    intro p resident
    exact (minted_above fresh (KeyedMap.find_key resident) (inv.find resident) ⟨rfl, rfl⟩).2

theorem read_ascends (inv : StampedStore s) (fits : LivingFits s t name) :
    Ascends t.expiry s (s.read t name).store := by
  rcases read_cases s t name with ⟨_, _, drop⟩ | ⟨r, live, value, equal⟩
  · exact drop.ascends inv
  · have fresh : ¬ s.clock.Exhausted t.mint := fits ⟨r, live, value⟩
    have found := (unexpired_eq_some.mp live).1
    have above := HlcClock.now_above fresh
    have stamps := inv.find found
    rw [equal]
    refine install_ascends (Dropped.refl _ s) inv fresh (inv name r found).1
      ⟨stamps.1.trans above.le, le_rfl⟩ ?_
    intro p resident
    have same : p = r := by
      rw [show r.name = name from KeyedMap.find_key found, found] at resident
      exact (Option.some.inj resident).symm
    rw [same]
    exact ⟨rfl, le_rfl, stamps.2.trans above.le⟩

theorem applyRemote_keeps_covered (alive : isExpired r now s.ttlMs = false) (covered : Covers s r) :
    Covers (s.applyRemoteLocked now incoming).2 r := by
  obtain ⟨q, found, le⟩ := covered
  by_cases named : incoming.name = []
  · rw [applyRemote_nameless s now named]
    exact ⟨q, found, le⟩
  by_cases expired : isExpired incoming now s.ttlMs = true
  · exact ⟨q, by rw [applyRemote_expired s now expired]; exact found, le⟩
  have find := fun name => applyRemote_find s now name named (by simpa using expired)
  by_cases same : incoming.name = r.name
  · refine ⟨absorb (unexpired s now incoming.name) incoming, ?_, ?_⟩
    · rw [find, if_pos same]
    · have qAlive : isExpired q now s.ttlMs = false := by
        rw [Bool.eq_false_iff]
        intro old
        rw [isExpired_antitone le.2.2 old] at alive
        cases alive
      have live : unexpired s now incoming.name = some q :=
        unexpired_eq_some.mpr ⟨by rw [same]; exact found, qAlive⟩
      rw [live]
      exact le.trans (le_mergeRecords_left (unexpired_name live))
  · exact ⟨q, by rw [find, if_neg same]; exact found, le⟩

theorem applyRemote_ascends (inv : StampedStore s) :
    Ascends now s (s.applyRemoteLocked now incoming).2 := by
  by_cases named : incoming.name = []
  · rw [applyRemote_nameless s now named]
    exact (Dropped.refl now s).ascends inv
  have clock := applyRemote_clock s now named
  have mono : s.clock.last ≤ (s.applyRemoteLocked now incoming).2.clock.last := by
    rw [clock]
    exact witnessAll_mono _ _
  refine ⟨?_, mono, applyRemote_ttlMs s now incoming, fun r alive covered =>
    applyRemote_keeps_covered alive covered⟩
  intro name r found
  by_cases expired : isExpired incoming now s.ttlMs = true
  · rw [applyRemote_expired s now expired] at found
    exact ⟨(inv name r found).1, (inv.find found).mono mono⟩
  rw [applyRemote_find s now name named (by simpa using expired)] at found
  split_ifs at found with same
  · cases found
    have residents : ∀ q, unexpired s now incoming.name = some q → q.name = incoming.name :=
      fun q live => unexpired_name live
    refine ⟨by rw [absorb_name residents]; exact named, ?_⟩
    rw [clock]
    refine Stamped.absorb (fun q live => ?_) (stamped_witnessAll _ _)
    exact (inv.find (unexpired_eq_some.mp live).1).mono (witnessAll_mono _ _)
  · exact ⟨(inv name r found).1, (inv.find found).mono mono⟩

theorem applyRemote_covers (named : incoming.name ≠ []) (fresh : isExpired incoming now s.ttlMs = false) :
    Covers (s.applyRemoteLocked now incoming).2 incoming := by
  refine ⟨absorb (unexpired s now incoming.name) incoming, ?_, ?_⟩
  · rw [applyRemote_find s now _ named fresh, if_pos rfl]
  · exact le_absorb (fun q live => unexpired_name live)

end ClippProof.Registers
