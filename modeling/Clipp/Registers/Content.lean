import Clipp.Foundation.Replication
import Clipp.Registers.Dominance

open Foundation

namespace ClippProof.Registers

open ClippModel.Registers ClippModel.Registers.RegisterStore

variable {s after : RegisterStore} {now : UInt64} {name : Bytes} {r incoming : RegisterRecord}
  {m n : RecordMap}

/-- The meaning of a record map: under each name, a point of the join semilattice or nothing. -/
abbrev Content := Bytes → WithBot Point

def pointOf : Option RegisterRecord → WithBot Point
  | none => ⊥
  | some r => (point r : WithBot Point)

def content (m : RecordMap) : Content := fun name => pointOf (m.find name)

def contribution (r : RegisterRecord) : Content :=
  fun name => if r.name = name then (point r : WithBot Point) else ⊥

def joinInto (m : RecordMap) (r : RegisterRecord) : RecordMap := m.put (absorb (m.find r.name) r)

def joinAll (m : RecordMap) (rs : List RegisterRecord) : RecordMap := rs.foldl joinInto m

@[simp] theorem content_empty : content KeyedMap.empty = ⊥ := rfl

theorem content_le_iff : content m ≤ content n ↔
    ∀ name r, m.find name = some r → ∃ q, n.find name = some q ∧ r ≤ q := by
  constructor
  · intro le name r found
    have here : content m name ≤ content n name := le name
    cases other : n.find name with
    | none =>
      simp [content, pointOf, found, other] at here
    | some q =>
      simp only [content, pointOf, found, other, WithBot.coe_le_coe] at here
      exact ⟨q, rfl, (KeyedMap.find_key found).trans (KeyedMap.find_key other).symm, here⟩
  · intro above name
    cases found : m.find name with
    | none => simp [content, pointOf, found]
    | some r =>
      obtain ⟨q, other, le⟩ := above name r found
      simp only [content, pointOf, found, other, WithBot.coe_le_coe]
      exact le.2

theorem content_inj (same : content m = content n) : m = n := by
  have below := content_le_iff.mp same.le
  have above := content_le_iff.mp same.ge
  apply KeyedMap.ext_find
  intro name
  cases found : m.find name with
  | some r =>
    obtain ⟨q, other, le⟩ := below name r found
    obtain ⟨p, back, ge⟩ := above name q other
    rw [found] at back
    cases back
    rw [other, le_antisymm le ge]
  | none =>
    cases other : n.find name with
    | none => rfl
    | some q =>
      obtain ⟨p, back, _⟩ := above name q other
      rw [found] at back
      cases back

theorem pointOf_absorb (resident : Option RegisterRecord) (r : RegisterRecord) :
    pointOf (some (absorb resident r)) = pointOf resident ⊔ (point r : WithBot Point) := by
  cases resident with
  | none => simp [pointOf, absorb]
  | some q => simp [pointOf, absorb]

theorem content_joinInto (m : RecordMap) (r : RegisterRecord) :
    content (joinInto m r) = content m ⊔ contribution r := by
  have key : (absorb (m.find r.name) r).name = r.name :=
    absorb_name fun q found => KeyedMap.find_key found
  funext name
  change pointOf ((m.put (absorb (m.find r.name) r)).find name) = pointOf (m.find name) ⊔ contribution r name
  rw [KeyedMap.find_put, contribution, key]
  split_ifs with same
  · rw [pointOf_absorb, same]
  · simp

theorem content_joinAll (m : RecordMap) (rs : List RegisterRecord) :
    content (joinAll m rs) = content m ⊔ joinList (rs.map contribution) := by
  induction rs generalizing m with
  | nil => simp [joinAll]
  | cons r rest ih =>
    change content (joinAll (joinInto m r) rest) = _
    rw [ih, content_joinInto, List.map_cons, joinList_cons, sup_assoc]

theorem put_eq_joinInto (above : ∀ q, m.find r.name = some q → q ≤ r) : m.put r = joinInto m r := by
  cases found : m.find r.name with
  | none => simp [joinInto, found, absorb]
  | some q =>
    have le := above q found
    have merged : mergeRecords q r = r :=
      (mergeRecords_comm le.1).trans (record_le_iff_merge.mp le).2
    simp [joinInto, found, absorb, merged]

theorem contribution_le (found : m.find name = some r) : contribution r ≤ content m := by
  intro other
  rw [contribution]
  split_ifs with same
  · rw [← same, content, KeyedMap.find_key found, found]
    exact le_rfl
  · exact bot_le

theorem contribution_mono {q : RegisterRecord} (le : q ≤ r) : contribution q ≤ contribution r := by
  intro name
  simp only [contribution, le.1]
  split_ifs
  · exact WithBot.coe_le_coe.mpr le.2
  · exact le_rfl

def Alive (s : RegisterStore) (now : UInt64) : Prop :=
  ∀ r ∈ s.records.entries, isExpired r now s.ttlMs = false

instance (s : RegisterStore) (now : UInt64) : Decidable (Alive s now) :=
  inferInstanceAs (Decidable (∀ r ∈ s.records.entries, _))

theorem Alive.unexpired (alive : Alive s now) (name : Bytes) :
    unexpired s now name = s.records.find name := by
  cases found : s.records.find name with
  | none => simp [ClippProof.Registers.unexpired, found]
  | some r => exact unexpired_eq_some.mpr ⟨found, alive r (KeyedMap.find_eq_some.mp found).1⟩

theorem Alive.dropped (alive : Alive s now) (drop : Dropped now s after) : after = s := by
  have records : after.records = s.records := by
    apply KeyedMap.ext_find
    intro name
    rcases drop.kept name with same | ⟨gone, none⟩
    · exact same
    · rw [gone, ← alive.unexpired, none]
  rw [drop.rest, records]

theorem Alive.snapshot (alive : Alive s now) (named : ∀ r ∈ s.records.entries, r.name ≠ []) :
    (s.snapshotForSync now).result = s.records.entries := by
  have kept : s.pruneExpiredLocked now = s := alive.dropped (dropped_prune s now)
  change (s.pruneExpiredLocked now).replicated = _
  rw [kept, replicated, List.filter_eq_self]
  intro r member
  simpa using named r member

theorem Alive.applyRemote (alive : Alive s now) (named : incoming.name ≠ [])
    (fresh : isExpired incoming now s.ttlMs = false) :
    (s.applyRemoteLocked now incoming).2.records = joinInto s.records incoming := by
  have key : (absorb (s.records.find incoming.name) incoming).name = incoming.name :=
    absorb_name fun q found => KeyedMap.find_key found
  apply KeyedMap.ext_find
  intro name
  rw [applyRemote_find s now name named fresh, alive.unexpired, joinInto, KeyedMap.find_put, key]

end ClippProof.Registers
