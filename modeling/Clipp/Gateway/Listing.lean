import Clipp.Cli.RegisterVerbs
import Clipp.Gateway.Intake
import Clipp.Persistence.RegisterRestart

open Foundation

namespace ClippProof.Gateway

open ClippModel.Registers ClippModel.Registers.RegisterStore ClippModel.Wire ClippModel.Wire.CryptoChannel
  ClippModel.Wire.RegisterWire ClippModel.Wire.Peer ClippModel.Gateway ClippModel.Cli ClippProof.Registers
  ClippProof.Wire

variable {s : RegisterStore} {t : Readings} {names : DisplayNames} {r : RegisterRecord}
  {entries : List RegisterListEntry}

def live (s : RegisterStore) (t : Readings) (r : RegisterRecord) : Bool :=
  !r.isTombstone && (!isExpired r t.expiry s.ttlMs && !isExpired r t.recheck s.ttlMs)

def liveRecords (s : RegisterStore) (t : Readings) : List RegisterRecord := s.records.entries.filter (live s t)

/-- Exactly one entry for each live register, and every listing verb of the command line reaches it. -/
structure ListingComplete (names : DisplayNames) (s : RegisterStore) (t : Readings)
    (entries : List RegisterListEntry) : Prop where
  once : ∀ r ∈ liveRecords s t, entries.filter (fun e => e.name = r.name) = [shipped (listEntry names r)]
  only : ∀ e ∈ entries, ∃ r ∈ liveRecords s t, e.name = r.name
  shown : ∀ r ∈ liveRecords s t, ∀ pattern, pattern = [] ∨ globMatch pattern r.name = true →
    r.name ∈ (lsShown pattern entries).map RegisterListEntry.name
  targeted : ∀ r ∈ liveRecords s t, r.name ≠ [] → ∀ pattern, globMatch pattern r.name = true →
    r.name ∈ globTargets pattern entries

/-- A listing request is answered with a complete listing whenever the transport carries the answer. -/
def ListsAll (names : DisplayNames) (s : RegisterStore) (t : Readings) : Prop :=
  ∀ (carries : Transport) (sent : List Bytes), carries sent (tagRLST ++ listResponse names s t) = true →
    ∃ answer entries, (answerList carries names s t sent).2 = sent ++ [answer] ∧
      receiveList [answer] = some entries ∧ ListingComplete names s t entries

theorem list_result (s : RegisterStore) (t : Readings) : (s.list t).result = liveRecords s t := by
  simp only [RegisterStore.list, pruneExpiredLocked, KeyedMap.filter, List.filter_filter, liveRecords]
  congr 1
  funext r
  rw [live, Bool.and_assoc, Bool.and_comm (!isExpired r t.recheck s.ttlMs)]

theorem liveRecords_keys (s : RegisterStore) (t : Readings) : ((liveRecords s t).map RegisterRecord.name).Nodup := by
  have sublist := (List.filter_sublist (p := live s t) (l := s.records.entries)).map RegisterRecord.name
  exact sublist.nodup (KeyedMap.keys_nodup s.records)

theorem liveRecords_names (fit : NamesFit s) : ∀ r ∈ liveRecords s t, r.name.length ≤ kMaxNameLen := by
  intro r member
  exact fit r.name r (KeyedMap.find_self (List.mem_filter.mp member).1)

theorem listEntries_names (fit : NamesFit s) :
    ∀ e ∈ (liveRecords s t).map (listEntry names), e.name.length ≤ kMaxNameLen := by
  intro e member
  obtain ⟨r, inList, rfl⟩ := List.mem_map.mp member
  exact liveRecords_names fit r inList

theorem decoded_response (fit : NamesFit s) : tryDecodeList (listResponse names s t) =
    some (((liveRecords s t).take kMaxDigestEntries).map (fun r => shipped (listEntry names r))) := by
  rw [listResponse, list_result, tryDecodeList_encodeList (listEntries_names fit), ← List.map_take, List.map_map]
  rfl

theorem encodeListEntry_length {e : RegisterListEntry} (name : e.name.length ≤ kMaxNameLen) :
    (encodeListEntry e).length ≤ 495 := by
  have preview := List.length_take_le kMaxPreviewLen e.preview
  have origin := List.length_take_le kMaxOriginNameLen e.originHostName
  simp only [kMaxNameLen, kMaxPreviewLen, kMaxOriginNameLen] at name preview origin
  simp only [encodeListEntry_eq, List.length_append, bigEndian_length, Hlc.pack_length, e.originHostId.size,
    HostId.kSize, List.length_singleton, kMaxPreviewLen, kMaxOriginNameLen]
  omega

theorem flatMap_length_le {f : RegisterListEntry → Bytes} {bound : Nat} (each : ∀ e ∈ entries, (f e).length ≤ bound) :
    (entries.flatMap f).length ≤ entries.length * bound := by
  induction entries with
  | nil => simp
  | cons head rest ih =>
    have first := each head List.mem_cons_self
    have others := ih fun e member => each e (List.mem_cons_of_mem _ member)
    rw [List.flatMap_cons, List.length_append, List.length_cons, Nat.succ_mul]
    omega

theorem listResponse_length (fit : NamesFit s) : (listResponse names s t).length ≤ 3 + 1024 * 495 := by
  rw [listResponse, list_result, encodeList_eq]
  have each : ∀ e ∈ ((liveRecords s t).map (listEntry names)).take kMaxDigestEntries,
      (encodeListEntry e).length ≤ 495 := fun e member =>
    encodeListEntry_length (listEntries_names fit e (List.mem_of_mem_take member))
  have count : (((liveRecords s t).map (listEntry names)).take kMaxDigestEntries).length ≤ 1024 :=
    List.length_take_le _ _
  have body := (flatMap_length_le each).trans (Nat.mul_le_mul_right 495 count)
  simp only [List.length_append, List.length_singleton, bigEndian_length]
  omega

theorem answer_carried {carries : Transport} {sent : List Bytes} (fit : NamesFit s)
    (carried : carries sent (tagRLST ++ listResponse names s t) = true) :
    (answerList carries names s t sent).2 = sent ++ [tagRLST ++ listResponse names s t] := by
  have size : (listResponse names s t).length ≤ 3 + 1024 * 495 := listResponse_length fit
  have small : u32Sized (listResponse names s t) = listResponse names s t := u32Sized_eq (by omega)
  have fits : 4 + (listResponse names s t).length + ([] : Bytes).length ≤ kMaxPlaintext := by
    have room : 4 + (3 + 1024 * 495) ≤ kMaxPlaintext := by decide
    rw [List.length_nil]
    omega
  have plain : tagRLST ++ listResponse names s t ++ [] = tagRLST ++ listResponse names s t := List.append_nil _
  rw [answerList, small, sendFrame_carried fits (by rw [plain]; exact carried), plain]

theorem receive_response (response : Bytes) : receiveList [tagRLST ++ response] = tryDecodeList response := by
  have long : ¬ (tagRLST ++ response).length < 4 := by
    rw [List.length_append]
    exact not_lt.mpr (Nat.le_add_right 4 _)
  have tag : (tagRLST ++ response).take 4 = tagRLST := List.take_left' rfl
  have body : (tagRLST ++ response).drop 4 = response := List.drop_left' rfl
  rw [receiveList, if_neg long, if_pos tag, body]

theorem listing_complete_of_fits (count : (liveRecords s t).length ≤ kMaxDigestEntries) :
    ListingComplete names s t
      (((liveRecords s t).take kMaxDigestEntries).map (fun r => shipped (listEntry names r))) := by
  rw [List.take_of_length_le count]
  have present : ∀ r ∈ liveRecords s t, shipped (listEntry names r) ∈
      (liveRecords s t).map (fun r => shipped (listEntry names r)) := fun r member => List.mem_map_of_mem member
  constructor
  · intro r member
    rw [List.filter_map]
    exact congrArg _ (KeyedMap.filter_key_eq (liveRecords_keys s t) member)
  · intro e member
    obtain ⟨r, inList, rfl⟩ := List.mem_map.mp member
    exact ⟨r, inList, rfl⟩
  · intro r member pattern chosen
    refine List.mem_map.mpr ⟨_, List.mem_filter.mpr ⟨present r member, ?_⟩, rfl⟩
    rcases chosen with rfl | matched
    · rfl
    · rw [Bool.or_eq_true]
      exact .inr matched
  · intro r member named pattern matched
    refine List.mem_map.mpr ⟨_, List.mem_filter.mpr ⟨present r member, ?_⟩, rfl⟩
    rw [Bool.and_eq_true, Bool.not_eq_true', List.isEmpty_eq_false_iff]
    exact ⟨named, matched⟩

theorem fits_of_listing_complete (complete : ListingComplete names s t
      (((liveRecords s t).take kMaxDigestEntries).map (fun r => shipped (listEntry names r)))) :
    (liveRecords s t).length ≤ kMaxDigestEntries := by
  have subset : (liveRecords s t).map RegisterRecord.name ⊆
      ((liveRecords s t).take kMaxDigestEntries).map RegisterRecord.name := by
    intro name member
    obtain ⟨r, inList, rfl⟩ := List.mem_map.mp member
    have here : shipped (listEntry names r) ∈
        (((liveRecords s t).take kMaxDigestEntries).map (fun r => shipped (listEntry names r))).filter
          (fun e => e.name = r.name) := by
      rw [complete.once r inList]
      exact List.mem_singleton_self _
    obtain ⟨q, kept, same⟩ := List.mem_map.mp (List.mem_filter.mp here).1
    exact List.mem_map.mpr ⟨q, kept, congrArg RegisterListEntry.name same⟩
  have size := (List.subperm_of_subset (liveRecords_keys s t) subset).length_le
  rw [List.length_map, List.length_map, List.length_take] at size
  omega

theorem listsAll_iff (fit : NamesFit s) : ListsAll names s t ↔ (liveRecords s t).length ≤ kMaxDigestEntries := by
  constructor
  · intro lists
    obtain ⟨answer, entries, sent, received, complete⟩ := lists (fun _ _ => true) [] rfl
    have carried : (answerList (fun _ _ => true) names s t []).2 = [] ++ [tagRLST ++ listResponse names s t] :=
      answer_carried fit rfl
    rw [carried, List.nil_append, List.nil_append, List.cons.injEq] at sent
    rw [← sent.1, receive_response, decoded_response fit, Option.some.injEq] at received
    subst received
    exact fits_of_listing_complete complete
  · intro count carries sent carried
    refine ⟨_, _, answer_carried fit carried, ?_, listing_complete_of_fits count⟩
    rw [receive_response, decoded_response fit]

/-- In every reachable store the listing is complete exactly when the live registers and the live mirror
    together are no more than the codec's cap. -/
theorem listing_complete_iff (localHost : HostId) (ttlMs : UInt64) (maxCount maxValueBytes : Nat) (floor : Hlc)
    (steps : List GatewayStep) (names : DisplayNames) (t : Readings) :
    ListsAll names (gatewayRun ((create localHost ttlMs maxCount maxValueBytes).seedClockFloor floor) steps) t ↔
      (liveRecords (gatewayRun ((create localHost ttlMs maxCount maxValueBytes).seedClockFloor floor) steps)
        t).length ≤ kMaxDigestEntries :=
  listsAll_iff (namesFit_run localHost ttlMs maxCount maxValueBytes floor steps)

section Samples

open ClippModel.Persistence ClippModel.Persistence.RegisterPersistence ClippProof.Persistence
  ClippProof.Persistence.RestartSample

variable {now : UInt64} {rs : List RegisterRecord}

def received (now : UInt64) (r : RegisterRecord) : GatewayStep := .regw (.all now) now (encodeRecord r 0)

theorem handleRegw_replicated (valid : isValidRegisterName r.name = true) (caps : WithinCaps r) :
    gatewayStep s (received now r) = (s.applyRemote now r).store := by
  simp only [received, gatewayStep, handleRegw, tryDecodeRecord_encodeRecord caps 0, valid]
  rfl

theorem gatewayRun_received (valid : ∀ r ∈ rs, isValidRegisterName r.name = true) (caps : ∀ r ∈ rs, WithinCaps r) :
    gatewayRun s (rs.map (received now)) = applyAll s now rs := by
  induction rs generalizing s with
  | nil => rfl
  | cons r rest ih =>
    rw [List.map_cons, gatewayRun, handleRegw_replicated (valid r List.mem_cons_self) (caps r List.mem_cons_self)]
    exact ih (fun q member => valid q (List.mem_cons_of_mem _ member))
      (fun q member => caps q (List.mem_cons_of_mem _ member))

def replicatedStore (n : Nat) : RegisterStore :=
  gatewayRun (defaultStore HostId.zero {}) (((List.range n).map record).map (received 1000))

theorem letter_lower (d : Nat) : 0x61 ≤ (letter d).toNat ∧ (letter d).toNat ≤ 0x7A := by
  simp only [letter, UInt8.toNat_ofNat']
  omega

theorem name_valid (i : Nat) : isValidRegisterName (RestartSample.name i) = true := by
  apply lowercase_valid
  · intro b member
    simp only [RestartSample.name, List.mem_cons, List.not_mem_nil, or_false] at member
    rcases member with rfl | rfl | rfl | rfl <;> exact letter_lower _
  · simp [RestartSample.name]
  · simp [RestartSample.name]

theorem replicatedStore_eq (n : Nat) :
    replicatedStore n = applyAll (defaultStore HostId.zero {}) 1000 ((List.range n).map record) := by
  apply gatewayRun_received
  · intro r member
    obtain ⟨i, _, rfl⟩ := List.mem_map.mp member
    exact name_valid i
  · intro r member
    obtain ⟨i, _, rfl⟩ := List.mem_map.mp member
    exact ⟨show 4 ≤ kMaxNameLen by decide, show 1 ≤ kMaxValueLen by decide⟩

theorem living_merge : MergeClosed (fun r => r.isTombstone = false) := by
  intro a b _ left right
  unfold mergeRecords
  split_ifs
  · exact right
  · exact left

theorem record_living (i : Nat) : (record i).isTombstone = false := by
  have flags : (record i).flags = 0 &&& ~~~RegisterFlags.tombstone := rfl
  rw [RegisterRecord.isTombstone, flags]
  decide

theorem replicatedStore_live {n : Nat} (small : n ≤ 65536) :
    n ≤ (liveRecords (replicatedStore n) (.all 1000)).length := by
  have size := applyAll_snapshot_length (t := defaultStore HostId.zero {}) (records_named n) (records_fresh n)
    (records_distinct small)
  rw [← replicatedStore_eq, List.length_map, List.length_range] at size
  have living : ∀ name r, (replicatedStore n).records.find name = some r → r.isTombstone = false := by
    intro name r found
    rw [replicatedStore_eq] at found
    refine applyAll_residents living_merge (fun _ _ absent => ?_) (fun q member => ?_) found
    · cases absent
    · obtain ⟨i, _, rfl⟩ := List.mem_map.mp member
      exact record_living i
  have subset : ((replicatedStore n).snapshotForSync 1000).result ⊆ liveRecords (replicatedStore n) (.all 1000) := by
    intro r member
    obtain ⟨found, fresh⟩ := unexpired_eq_some.mp (mem_snapshotForSync.mp member).1
    refine List.mem_filter.mpr ⟨(KeyedMap.find_eq_some.mp found).1, ?_⟩
    simp only [live, living _ _ found, Readings.all, fresh, Bool.not_false, Bool.and_self]
  have distinct : ((replicatedStore n).snapshotForSync 1000).result.Nodup :=
    (KeyedMap.keys_nodup _).of_map.sublist List.filter_sublist
  exact size.trans (List.subperm_of_subset distinct subset).length_le

def unnamed : DisplayNames where
  localHostId := none
  localHostName := []
  knownPeers := []

/-- One register more than the cap, all of them from another device, and the listing leaves one out. -/
theorem replicated_registers_overflow_listing : ¬ ListsAll unnamed (replicatedStore 1025) (.all 1000) := by
  intro lists
  have fit : NamesFit (replicatedStore 1025) :=
    namesFit_run HostId.zero kDefaultTtlMs kDefaultMaxCount kDefaultMaxValueBytes {} _
  have count := (listsAll_iff fit).mp lists
  have live : 1025 ≤ (liveRecords (replicatedStore 1025) (.all 1000)).length := replicatedStore_live (by decide)
  exact absurd (live.trans count) (by decide)

end Samples

end ClippProof.Gateway
