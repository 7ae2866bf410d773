import Clipp.Registers.StoreLaws
import Clipp.Wire.Frame
import Clipp.Wire.RegisterWire

open Foundation

namespace ClippModel.Wire

open ClippModel.Registers ClippModel.Wire.CryptoChannel ClippModel.Wire.RegisterWire

namespace Peer

def tagREGW : Bytes := [0x52, 0x45, 0x47, 0x57]
def tagREOS : Bytes := [0x52, 0x45, 0x4F, 0x53]

def pushRecords (carries : Transport) : List RegisterRecord → List Bytes → Bool × List Bytes
  | [], sent => (true, sent)
  | record :: rest, sent =>
    match sendFrame carries sent tagREGW (u32Sized (encodeRecord record 0)) [] with
    | (false, after) => (false, after)
    | (true, after) => pushRecords carries rest after

example (carries : Transport) (sent : List Bytes) : pushRecords carries [] sent = (true, sent) := by
  rw [pushRecords]

inductive RegisterWrite where
  | upsert (t : Readings) (name value : Bytes) (isPrivate : Bool)
  | upsertWithFlags (t : Readings) (name value : Bytes) (valueFlags : UInt8) (origin : HostId)

def RegisterWrite.name : RegisterWrite → Bytes
  | .upsert _ name _ _ => name
  | .upsertWithFlags _ name _ _ _ => name

def RegisterWrite.value : RegisterWrite → Bytes
  | .upsert _ _ value _ => value
  | .upsertWithFlags _ _ value _ _ => value

def write (s : RegisterStore) : RegisterWrite → Call WriteResult
  | .upsert t name value isPrivate => s.upsert t name value isPrivate
  | .upsertWithFlags t name value valueFlags origin => s.upsertWithFlags t name value valueFlags origin

def writeAll (s : RegisterStore) : List RegisterWrite → RegisterStore
  | [] => s
  | w :: rest => writeAll (write s w).store rest

def defaultStore (localHost : HostId) (floor : Hlc) : RegisterStore :=
  (RegisterStore.create localHost RegisterStore.kDefaultTtlMs RegisterStore.kDefaultMaxCount
    RegisterStore.kDefaultMaxValueBytes).seedClockFloor floor

def answerSync (carries : Transport) (toPush : List RegisterRecord) (sent : List Bytes) : List Bytes :=
  match pushRecords carries toPush sent with
  | (false, after) => after
  | (true, after) => (sendFrame carries after tagREOS [] []).2

end Peer

end ClippModel.Wire

namespace ClippProof.Wire

open ClippModel.Registers ClippModel.Wire ClippModel.Wire.CryptoChannel ClippModel.Wire.RegisterWire
  ClippModel.Wire.Peer ClippModel.Registers.RegisterStore ClippProof.Registers

variable {carries : Transport} {sent : List Bytes} {r : RegisterRecord} {rs : List RegisterRecord}

def recordFrame (r : RegisterRecord) : Bytes := tagREGW ++ encodeRecord r 0

def answerFrames (rs : List RegisterRecord) : List Bytes := rs.map recordFrame ++ [tagREOS]

/-- The name and value bytes a frame holds beside its tag and the 58 fixed bytes of a record. -/
def kLargestReplicated : Nat := kMaxPlaintext - 62

def Sendable (r : RegisterRecord) : Prop := r.name.length + r.value.length ≤ kLargestReplicated

def Replicates (r : RegisterRecord) : Prop :=
  4 + (encodeRecord r 0).length ≤ kMaxPlaintext ∧ tryDecodeRecord (encodeRecord r 0) = some (r, 0)

/-- The whole answer is sent over every transport that carries its frames. -/
def AnswersWholly (rs : List RegisterRecord) : Prop :=
  ∀ (carries : Transport) (sent : List Bytes), Carries carries sent (answerFrames rs) →
    answerSync carries rs sent = sent ++ answerFrames rs

theorem sendable_iff (r : RegisterRecord) : Sendable r ↔ 4 + (encodeRecord r 0).length ≤ kMaxPlaintext := by
  rw [encodeRecord_length, Sendable, kLargestReplicated, kMaxPlaintext, kMaxCiphertextMessageBytes,
    secretstreamABytes]
  omega

theorem replicates_iff (caps : WithinCaps r) : Replicates r ↔ Sendable r := by
  rw [sendable_iff]
  exact and_iff_left (tryDecodeRecord_encodeRecord caps 0)

theorem encoded_u32 (caps : WithinCaps r) : u32Sized (encodeRecord r 0) = encodeRecord r 0 := by
  apply u32Sized_eq
  have name : r.name.length ≤ 64 := caps.1
  have value : r.value.length ≤ 64 * 1024 * 1024 := caps.2
  rw [encodeRecord_length]
  omega

theorem pushRecords_carried (caps : ∀ r ∈ rs, WithinCaps r) (fits : ∀ r ∈ rs, Sendable r)
    (carried : Carries carries sent (rs.map recordFrame)) :
    pushRecords carries rs sent = (true, sent ++ rs.map recordFrame) := by
  induction rs generalizing sent with
  | nil => simp [pushRecords]
  | cons head rest ih =>
    obtain ⟨first, others⟩ := carried
    have size : 4 + (encodeRecord head 0).length + ([] : Bytes).length ≤ kMaxPlaintext :=
      (sendable_iff head).mp (fits head List.mem_cons_self)
    have step : sendFrame carries sent tagREGW (encodeRecord head 0) [] = (true, sent ++ [recordFrame head]) := by
      have plain : tagREGW ++ encodeRecord head 0 ++ [] = recordFrame head := List.append_nil _
      rw [sendFrame_carried size (by rw [plain]; exact first), plain]
    have tail := ih (fun r member => caps r (List.mem_cons_of_mem _ member))
      (fun r member => fits r (List.mem_cons_of_mem _ member)) others
    rw [pushRecords, encoded_u32 (caps head List.mem_cons_self), step]
    simp only [tail, List.map_cons, List.append_assoc, List.singleton_append]

theorem pushRecords_unsendable (caps : ∀ r ∈ rs, WithinCaps r) (member : r ∈ rs) (large : ¬ Sendable r) :
    (pushRecords carries rs sent).1 = false := by
  induction rs generalizing sent with
  | nil => cases member
  | cons head rest ih =>
    rw [pushRecords, encoded_u32 (caps head List.mem_cons_self)]
    rcases List.mem_cons.mp member with rfl | inRest
    · have tooLarge : kMaxPlaintext < 4 + (encodeRecord r 0).length + ([] : Bytes).length :=
        not_le.mp (mt (sendable_iff r).mpr large)
      rw [sendFrame_too_large tooLarge]
    · have tail : ∀ after, (pushRecords carries rest after).1 = false := fun _ =>
        ih (fun r member => caps r (List.mem_cons_of_mem _ member)) inRest
      split
      · rfl
      · exact tail _

theorem sendFrame_length (tag bodyA bodyB : Bytes) :
    (sendFrame carries sent tag bodyA bodyB).2.length ≤ sent.length + 1 := by
  unfold sendFrame
  by_cases large : 4 + bodyA.length + bodyB.length > kMaxPlaintext
  · simp [large]
  · by_cases carried : carries sent (tag ++ bodyA ++ bodyB) = true
    · simp only [large, carried, if_false, if_true, List.length_append, List.length_singleton, le_refl]
    · simp only [large, carried, if_false]
      exact Nat.le_succ _

theorem pushRecords_length (rs : List RegisterRecord) (sent : List Bytes) :
    (pushRecords carries rs sent).2.length ≤ sent.length + rs.length := by
  induction rs generalizing sent with
  | nil => exact le_rfl
  | cons head rest ih =>
    have first : (sendFrame carries sent tagREGW (u32Sized (encodeRecord head 0)) []).2.length ≤ sent.length + 1 :=
      sendFrame_length tagREGW (u32Sized (encodeRecord head 0)) []
    rw [pushRecords, List.length_cons]
    split
    · rename_i after refused
      rw [refused] at first
      simp only at first ⊢
      omega
    · rename_i after carried
      rw [carried] at first
      have later := ih after
      simp only at first
      omega

theorem answersWholly_iff (caps : ∀ r ∈ rs, WithinCaps r) : AnswersWholly rs ↔ ∀ r ∈ rs, Sendable r := by
  constructor
  · intro whole r member
    by_contra large
    have answered := whole (fun _ _ => true) [] (carries_always _ _)
    have stuck : (pushRecords (fun _ _ => true) rs []).1 = false := pushRecords_unsendable caps member large
    have short : (pushRecords (fun _ _ => true) rs []).2.length ≤ ([] : List Bytes).length + rs.length :=
      pushRecords_length rs []
    rw [answerSync] at answered
    split at answered
    · rename_i after equal
      rw [equal] at short
      rw [answered] at short
      simp [answerFrames] at short
    · rename_i after equal
      rw [equal] at stuck
      cases stuck
  · intro fits carries sent carried
    have records : Carries carries sent (rs.map recordFrame) := carried.left
    have closing : carries (sent ++ rs.map recordFrame) tagREOS = true := carried.last
    have small : 4 + ([] : Bytes).length + ([] : Bytes).length ≤ kMaxPlaintext := by decide
    have plain : tagREOS ++ [] ++ [] = tagREOS := rfl
    rw [answerSync, pushRecords_carried caps fits records]
    simp only [sendFrame_carried small (show carries _ (tagREOS ++ [] ++ []) = true from closing), plain,
      answerFrames, List.append_assoc]

/-- Every accepted write replicates, and every digest is answered wholly. -/
structure ReplicatesAll (s : RegisterStore) (ok : RegisterRecord → Prop) : Prop where
  writes : ∀ w, (write s w).result = .ok → ∃ r, (write s w).store.records.find w.name = some r ∧
    r.value = w.value ∧ (Replicates r ↔ ok r)
  answers : ∀ now digest, AnswersWholly (s.recordsToPush now digest).result ↔
    ∀ r ∈ (s.recordsToPush now digest).result, ok r

structure Bounded (s : RegisterStore) : Prop where
  limit : s.maxValueBytes = RegisterStore.kDefaultMaxValueBytes
  caps : ∀ r ∈ s.records.entries, WithinCaps r

theorem bounded_default (localHost : HostId) (floor : Hlc) : Bounded (defaultStore localHost floor) :=
  ⟨rfl, fun _ member => absurd member List.not_mem_nil⟩

theorem write_cases (s : RegisterStore) (w : RegisterWrite) :
    ((write s w).result ≠ .ok ∧ ∃ expiry, Dropped expiry s (write s w).store) ∨
    ∃ t valueFlags origin, Admitted s t w.name w.value ∧
      (write s w).store = install (s.pruneExpiredLocked t.expiry) (s.clock.now t.mint).2
        (writtenRecord w.name w.value valueFlags origin (s.clock.now t.mint).1) := by
  have flagged : ∃ t valueFlags origin,
      write s w = s.upsertWithFlags t w.name w.value valueFlags origin := by
    cases w with
    | upsert t name value isPrivate => exact ⟨t, _, s.localHost, rfl⟩
    | upsertWithFlags t name value valueFlags origin => exact ⟨t, valueFlags, origin, rfl⟩
  obtain ⟨t, valueFlags, origin, equal⟩ := flagged
  rw [equal]
  rcases upsertLocked_cases s t w.name w.value valueFlags origin with ⟨refused, drop⟩ | ⟨admitted, stored⟩
  · exact .inl ⟨refused, t.expiry, drop⟩
  · exact .inr ⟨t, valueFlags, origin, admitted, congrArg Prod.snd stored⟩

theorem written_withinCaps {t : Readings} {name value : Bytes} {s : RegisterStore} (bounded : Bounded s)
    (admitted : Admitted s t name value) (valueFlags : UInt8) (origin : HostId) (ts : Hlc) :
    WithinCaps (writtenRecord name value valueFlags origin ts) := by
  have size := admitted.2.1
  rw [bounded.limit] at size
  exact ⟨validName_length admitted.1, size⟩

theorem Bounded.write {s : RegisterStore} (bounded : Bounded s) (w : RegisterWrite) :
    Bounded (Peer.write s w).store := by
  rcases write_cases s w with ⟨_, expiry, drop⟩ | ⟨t, valueFlags, origin, admitted, stored⟩
  · refine ⟨by rw [drop.rest]; exact bounded.limit, fun r member => ?_⟩
    have found := drop.find_of_some (KeyedMap.find_self member)
    exact bounded.caps r (KeyedMap.find_eq_some.mp found).1
  · rw [stored]
    refine ⟨bounded.limit, fun r member => ?_⟩
    have found := KeyedMap.find_self member
    rw [install_find] at found
    split_ifs at found
    · cases found
      exact written_withinCaps bounded admitted _ _ _
    · have old := (unexpired_eq_some.mp (prune_find.symm.trans found)).1
      exact bounded.caps r (KeyedMap.find_eq_some.mp old).1

theorem Bounded.writeAll {s : RegisterStore} (bounded : Bounded s) (ws : List RegisterWrite) :
    Bounded (Peer.writeAll s ws) := by
  induction ws generalizing s with
  | nil => exact bounded
  | cons w rest ih => exact ih (bounded.write w)

theorem Bounded.pushed {s : RegisterStore} (bounded : Bounded s) (now : UInt64)
    (digest : List RegisterDigestEntry) : ∀ r ∈ (s.recordsToPush now digest).result, WithinCaps r := by
  intro r member
  have replicated := (List.mem_filter.mp member).1
  have found := (unexpired_eq_some.mp (mem_replicated_prune.mp replicated).1).1
  exact bounded.caps r (KeyedMap.find_eq_some.mp found).1

theorem Bounded.replicatesAll {s : RegisterStore} (bounded : Bounded s) : ReplicatesAll s Sendable := by
  constructor
  · intro w accepted
    rcases write_cases s w with ⟨refused, _⟩ | ⟨t, valueFlags, origin, admitted, stored⟩
    · exact absurd accepted refused
    · let written := writtenRecord w.name w.value valueFlags origin (s.clock.now t.mint).1
      refine ⟨written, ?_, rfl, replicates_iff (written_withinCaps bounded admitted _ _ _)⟩
      rw [stored]
      exact install_find_self (r := written) _
  · intro now digest
    exact answersWholly_iff (bounded.pushed now digest)

/-- Under the default limits a record replicates, and an answer goes out whole, exactly when names and
    values leave a frame room for the tag and the fixed fields. -/
theorem replication_iff_frame_fits (localHost : HostId) (floor : Hlc) (ws : List RegisterWrite) :
    ReplicatesAll (writeAll (defaultStore localHost floor) ws) Sendable :=
  ((bounded_default localHost floor).writeAll ws).replicatesAll

theorem first_write_accepted (localHost : HostId) (floor : Hlc) (t : Readings) {name value : Bytes}
    (isPrivate : Bool) (valid : isValidRegisterName name = true) (size : value.length ≤ kDefaultMaxValueBytes) :
    (write (defaultStore localHost floor) (.upsert t name value isPrivate)).result = .ok := by
  have room : (((defaultStore localHost floor).pruneExpiredLocked t.expiry).liveCountLocked t.recheck) <
      kDefaultMaxCount := by
    change 0 < kDefaultMaxCount
    decide
  have fits : ¬ value.length > (defaultStore localHost floor).maxValueBytes := not_lt.mpr size
  have open_ : ¬ ((!((defaultStore localHost floor).pruneExpiredLocked t.expiry).currentlyLiveValue name) = true ∧
      ((defaultStore localHost floor).pruneExpiredLocked t.expiry).liveCountLocked t.recheck ≥
        ((defaultStore localHost floor).pruneExpiredLocked t.expiry).maxCount) :=
    fun full => absurd full.2 (not_le.mpr room)
  simp only [write, RegisterStore.upsert, upsertFrom, upsertWithFlags, upsertLocked, valid, fits, open_,
    Bool.not_true, Bool.false_eq_true, if_false]

theorem small_write_replicates :
    ∃ r, (write (defaultStore HostId.zero {}) (.upsert (.all 100) [0x61] [0x78] false)).store.records.find [0x61] =
      some r ∧ Replicates r := by
  have valid : isValidRegisterName [0x61] = true := by decide
  have size : ([0x78] : Bytes).length ≤ kDefaultMaxValueBytes := by decide
  have accepted := first_write_accepted HostId.zero {} (.all 100) false valid size
  obtain ⟨r, found, same, replicates⟩ :=
    (replication_iff_frame_fits HostId.zero {} []).writes (.upsert (.all 100) [0x61] [0x78] false) accepted
  have named : r.name = [0x61] := KeyedMap.find_key found
  have small : Sendable r := by
    rw [Sendable, named, same]
    decide
  exact ⟨r, found, replicates.mpr small⟩

theorem large_value_refused {value : Bytes} (size : value.length = kDefaultMaxValueBytes) :
    ¬ ReplicatesAll (defaultStore HostId.zero {}) (fun _ => True) := by
  intro all
  have valid : isValidRegisterName [0x61] = true := by decide
  have accepted := first_write_accepted HostId.zero {} (.all 100) false valid size.le
  obtain ⟨r, found, same, replicates⟩ := all.writes (.upsert (.all 100) [0x61] value false) accepted
  have named : r.name = [0x61] := KeyedMap.find_key found
  have sent : Sendable r := (sendable_iff r).mpr (replicates.mpr trivial).1
  have sizes : r.name.length = 1 ∧ r.value.length = 64 * 1024 * 1024 := by
    rw [named, same]
    exact ⟨rfl, size⟩
  rw [Sendable, sizes.1, sizes.2] at sent
  exact absurd sent (by decide)

/-- A value of 64 MiB is accepted and cannot be sent. -/
theorem largest_value_does_not_replicate : ¬ ReplicatesAll (defaultStore HostId.zero {}) (fun _ => True) :=
  large_value_refused (List.length_replicate (n := kDefaultMaxValueBytes) (a := 0x61))

end ClippProof.Wire
