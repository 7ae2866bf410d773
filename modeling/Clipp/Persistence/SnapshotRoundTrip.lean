import Clipp.Persistence.SealedSnapshot

open Foundation

namespace ClippProof.Persistence

open ClippModel.Persistence ClippModel.Persistence.SealedSnapshot

section Laws

variable {A : Aead} {magic : Magic} {version : UInt8} {key : SealKey} {nonce : Nonce}
  {records result outRecords : List Bytes} {blob plain path : Bytes} {disk : Disk} {longMax : Nat}

def sealingOf (nonce : Nonce) (magic : Magic) (version : UInt8) (records : List Bytes) (key : SealKey) :
    Sealing where
  key := key.val
  nonce := nonce.val
  ad := header magic version
  plain := plaintext records

theorem seal_eq : seal_ A nonce magic version records key =
    header magic version ++ (nonce.val ++ A.cipherOf (sealingOf nonce magic version records key)) := rfl

theorem header_length (magic : Magic) (version : UInt8) : (header magic version).length = kHeaderSize := by
  simp [header, magic.property, kHeaderSize]

theorem header_matches (large : kHeaderSize ≤ blob.length) :
    (blob.take kMagicSize = magic.val ∧ blob[kMagicSize]? = some version) ↔
      blob.take kHeaderSize = header magic version := by
  have inside : kMagicSize < blob.length := large
  have split : blob.take kHeaderSize = blob.take kMagicSize ++ [blob[kMagicSize]] :=
    List.take_succ_eq_append_getElem inside
  have sizes : (blob.take kMagicSize).length = magic.val.length := by
    rw [List.length_take_of_le inside.le, magic.property]
  rw [split, header, List.getElem?_eq_getElem inside]
  constructor
  · rintro ⟨first, second⟩
    rw [first, Option.some.inj second]
  · intro same
    obtain ⟨first, second⟩ := List.append_inj same sizes
    exact ⟨first, congrArg some (List.singleton_inj.mp second)⟩

theorem tryOpen_cases (A : Aead) (magic : Magic) (version : UInt8) (blob : Bytes) (key : SealKey)
    (outRecords : List Bytes) :
    tryOpen A magic version blob key outRecords = (false, outRecords) ∨
    ∃ nonce cipher plain records, nonce.length = kNonceSize ∧
      blob = header magic version ++ (nonce ++ cipher) ∧
      A.decrypt key.val nonce (header magic version) cipher = some plain ∧
      Reader.whole readRecords plain = some records ∧
      tryOpen A magic version blob key outRecords = (true, records) := by
  unfold tryOpen
  split_ifs with short foreign
  · exact .inl rfl
  · exact .inl rfl
  · have large : kHeaderSize + kNonceSize + kTagSize ≤ blob.length := not_lt.mp short
    have start : kHeaderSize ≤ blob.length := by omega
    simp only [not_or, not_not] at foreign
    have head : blob.take kHeaderSize = header magic version := (header_matches start).mp foreign
    let nonce := (blob.drop kHeaderSize).take kNonceSize
    let cipher := blob.drop (kHeaderSize + kNonceSize)
    have size : nonce.length = kNonceSize := by
      apply List.length_take_of_le
      rw [List.length_drop]
      omega
    have shape : blob = header magic version ++ (nonce ++ cipher) := by
      rw [← head]
      have tail : nonce ++ cipher = blob.drop kHeaderSize := by
        rw [show cipher = (blob.drop kHeaderSize).drop kNonceSize from (List.drop_drop ..).symm]
        exact List.take_append_drop _ _
      rw [tail, List.take_append_drop]
    rw [head]
    cases opened : A.decrypt key.val nonce (header magic version) cipher with
    | none =>
      left
      simp only [nonce, cipher] at opened
      simp [opened]
    | some plain =>
      simp only [nonce, cipher] at opened
      cases framed : Reader.whole readRecords plain with
      | none =>
        left
        simp [opened, framed]
      | some records =>
        right
        exact ⟨nonce, cipher, plain, records, size, shape, opened, framed, by simp [opened, framed]⟩

theorem plaintext_length : (plaintext records).length =
    4 + ((sealedRecords records).map (fun r => 4 + r.length)).sum := by
  simp [plaintext, frameRecord, List.length_flatMap]

def snapshotBytes (records : List Bytes) : Nat :=
  kHeaderSize + kNonceSize + (4 + ((sealedRecords records).map (fun r => 4 + r.length)).sum) + kTagSize

theorem seal_length (ideal : A.Ideal kTagSize [sealingOf nonce magic version records key]) :
    (seal_ A nonce magic version records key).length = snapshotBytes records := by
  have cipher := ideal.size _ (List.mem_singleton_self _)
  rw [seal_eq, List.length_append, List.length_append, header_length, nonce.property, cipher]
  simp only [sealingOf, plaintext_length, snapshotBytes]
  omega

theorem tryOpen_seal (ideal : A.Ideal kTagSize [sealingOf nonce magic version records key]) :
    tryOpen A magic version (seal_ A nonce magic version records key) key outRecords =
      match Reader.whole readRecords (plaintext records) with
      | none => (false, outRecords)
      | some opened => (true, opened) := by
  have large : ¬ (seal_ A nonce magic version records key).length < kHeaderSize + kNonceSize + kTagSize := by
    rw [seal_length ideal, snapshotBytes]
    omega
  have head : (seal_ A nonce magic version records key).take kHeaderSize = header magic version := by
    rw [seal_eq]
    exact List.take_left' (header_length magic version)
  have start : kHeaderSize ≤ (seal_ A nonce magic version records key).length := by omega
  have foreign := not_not.mpr ((header_matches start).mpr head)
  rw [not_and_or] at foreign
  have tail : (seal_ A nonce magic version records key).drop kHeaderSize =
      nonce.val ++ A.cipherOf (sealingOf nonce magic version records key) := by
    rw [seal_eq]
    exact List.drop_left' (header_length magic version)
  have middle : ((seal_ A nonce magic version records key).drop kHeaderSize).take kNonceSize = nonce.val := by
    rw [tail]
    exact List.take_left' nonce.property
  have last : (seal_ A nonce magic version records key).drop (kHeaderSize + kNonceSize) =
      A.cipherOf (sealingOf nonce magic version records key) := by
    rw [← List.drop_drop, tail]
    exact List.drop_left' nonce.property
  have opened : A.decrypt key.val nonce.val (header magic version)
      (A.cipherOf (sealingOf nonce magic version records key)) = some (plaintext records) :=
    ideal.opens _ (List.mem_singleton_self _)
  rw [tryOpen, if_neg large, if_neg foreign, middle, last, head]
  cases parsed : Reader.whole readRecords (plaintext records) <;> simp only [opened, parsed]

theorem readRecords_bounds (framed : Reader.whole readRecords plain = some result) :
    result.length ≤ kMaxRecords ∧ ∀ r ∈ result, r.length < 2 ^ 32 := by
  obtain ⟨count, mid, _, checked⟩ := Reader.bind_eq_some.mp (Reader.whole_eq_some.mp framed)
  obtain ⟨_, mid', bound, repeated⟩ := Reader.bind_eq_some.mp checked
  obtain ⟨size, each⟩ := Reader.times_eq_some repeated
  refine ⟨size ▸ (Reader.check_eq_some.mp bound).1, ?_⟩
  intro r member
  obtain ⟨input, rest, read⟩ := each r member
  obtain ⟨len, after, number, field⟩ := Reader.bind_eq_some.mp read
  rw [(Reader.bytes_eq_some.mp field).2]
  exact (Reader.int_eq_some.mp number).2

theorem reads_record {record : Bytes} (small : record.length < 2 ^ 32) :
    Reader.Reads readRecord (frameRecord record) record :=
  (Reader.Reads.int small).bind (.bytes record)

theorem reads_plaintext (count : (sealedRecords records).length ≤ kMaxRecords)
    (small : ∀ r ∈ records, r.length < 2 ^ 32) :
    Reader.whole readRecords (plaintext records) = some (sealedRecords records) := by
  have fits : (sealedRecords records).length < 256 ^ 4 := count.trans_lt (by decide)
  have each : ∀ r ∈ sealedRecords records, Reader.Reads readRecord (frameRecord r) r :=
    fun r member => reads_record (small r (List.mem_filter.mp member).1)
  exact ((Reader.Reads.int fits).bind ((Reader.Reads.check count).bind (.times each))).whole

theorem tryOpen_seal_iff (ideal : A.Ideal kTagSize [sealingOf nonce magic version records key]) :
    tryOpen A magic version (seal_ A nonce magic version records key) key outRecords =
        (true, sealedRecords records) ↔
      (sealedRecords records).length ≤ kMaxRecords ∧ ∀ r ∈ records, r.length < 2 ^ 32 := by
  rw [tryOpen_seal ideal]
  constructor
  · intro opened
    cases framed : Reader.whole readRecords (plaintext records) with
    | none => simp [framed] at opened
    | some result =>
      simp only [framed, Prod.mk.injEq, true_and] at opened
      subst opened
      obtain ⟨count, small⟩ := readRecords_bounds framed
      refine ⟨count, fun r member => ?_⟩
      by_cases empty : r = []
      · simp [empty]
      · exact small r (List.mem_filter.mpr ⟨member, by simpa using empty⟩)
  · rintro ⟨count, small⟩
    simp [reads_plaintext count small]

theorem tryOpen_authentic (ideal : A.Ideal kTagSize [sealingOf nonce magic version records key])
    {magic' : Magic} {version' : UInt8} {key' : SealKey}
    (changed : blob ≠ seal_ A nonce magic version records key ∨ magic' ≠ magic ∨ version' ≠ version ∨ key' ≠ key) :
    tryOpen A magic' version' blob key' outRecords = (false, outRecords) := by
  rcases tryOpen_cases A magic' version' blob key' outRecords with
    failed | ⟨nonce', cipher, plain, result, _, shape, opened, _, _⟩
  · exact failed
  · exfalso
    obtain ⟨s, member, sameKey, sameNonce, sameHeader, sameCipher⟩ := ideal.authentic _ _ _ _ _ opened
    rw [List.mem_singleton.mp member] at sameKey sameNonce sameHeader sameCipher
    have heads : magic.val = magic'.val ∧ [version] = [version'] :=
      List.append_inj sameHeader (magic.property.trans magic'.property.symm)
    have blobs : blob = seal_ A nonce magic version records key := by
      rw [shape, seal_eq, ← sameCipher, ← sameNonce, ← sameHeader]
      rfl
    rcases changed with other | other | other | other
    · exact other blobs
    · exact other (Subtype.ext heads.1.symm)
    · exact other (List.singleton_inj.mp heads.2).symm
    · exact other (Subtype.ext sameKey.symm)

theorem tempPath_ne (path : Bytes) : path ≠ tempPath path := by
  intro same
  have sizes := congrArg List.length same
  simp [tempPath] at sizes

theorem saveFile_saved {faults : SaveFaults}
    (succeeded : (saveFile A nonce faults disk path magic version records key).1 = true) :
    (saveFile A nonce faults disk path magic version records key).2 path =
      some (seal_ A nonce magic version records key) := by
  simp only [saveFile] at succeeded ⊢
  cases writing : faults.writing with
  | some written =>
    simp only [writing] at succeeded
    split_ifs at succeeded
  | none =>
    simp only [writing] at succeeded ⊢
    split_ifs at succeeded ⊢
    simp [Disk.set, Function.update_of_ne (tempPath_ne path)]

/-- Whatever I/O faults a load meets, a blob that does not open leaves the caller's records. -/
theorem loadFile_refuses {faults : LoadFaults}
    (refused : ∀ blob, disk path = some blob →
      tryOpen A magic version blob key outRecords = (false, outRecords)) :
    (loadFile A longMax faults disk path magic version key outRecords).1 ≠ .loaded ∧
      (loadFile A longMax faults disk path magic version key outRecords).2.1 = outRecords := by
  unfold loadFile
  split
  · exact ⟨nofun, rfl⟩
  · rename_i blob present
    have found : disk path = some blob := by
      split_ifs at present
      exact present
    split_ifs
    · exact ⟨nofun, rfl⟩
    · rw [refused blob found]
      exact ⟨nofun, rfl⟩

theorem loadFile_opens (found : disk path = some blob) :
    ((loadFile A longMax {} disk path magic version key outRecords).1 = .loaded ∧
      (loadFile A longMax {} disk path magic version key outRecords).2.1 = result) ↔
    blob.length ≤ longMax ∧ tryOpen A magic version blob key outRecords = (true, result) := by
  simp only [loadFile, found, Bool.false_eq_true, if_false, false_or]
  split_ifs with large
  · simp [not_le.mpr large]
  · rcases opened : tryOpen A magic version blob key outRecords with ⟨flag, kept⟩
    cases flag <;> simp [not_lt.mp large]

/-- What is saved can be loaded: by `LoadFile` and by `TryOpen`, non-empty records in order. -/
def LoadsBack (A : Aead) (longMax : Nat) (disk : Disk) (path blob : Bytes) (magic : Magic)
    (version : UInt8) (key : SealKey) (records : List Bytes) : Prop :=
  ∀ outRecords,
    (loadFile A longMax {} disk path magic version key outRecords).1 = .loaded ∧
    (loadFile A longMax {} disk path magic version key outRecords).2.1 = sealedRecords records ∧
    tryOpen A magic version blob key outRecords = (true, sealedRecords records)

/-- Under another key, magic or version, and for any other file, nothing is loaded. -/
def OpensOnlyAsSaved (A : Aead) (longMax : Nat) (path blob : Bytes) (magic : Magic) (version : UInt8)
    (key : SealKey) : Prop :=
  ∀ (disk : Disk) (faults : LoadFaults) (content : Bytes) (magic' : Magic) (version' : UInt8)
    (key' : SealKey) (outRecords : List Bytes),
    (content ≠ blob ∨ magic' ≠ magic ∨ version' ≠ version ∨ key' ≠ key) →
    (disk path = some content →
      (loadFile A longMax faults disk path magic' version' key' outRecords).1 ≠ .loaded ∧
      (loadFile A longMax faults disk path magic' version' key' outRecords).2.1 = outRecords) ∧
    tryOpen A magic' version' content key' outRecords = (false, outRecords)

theorem loadsBack_iff {faults : SaveFaults}
    (ideal : A.Ideal kTagSize [sealingOf nonce magic version records key])
    (succeeded : (saveFile A nonce faults disk path magic version records key).1 = true) :
    LoadsBack A longMax (saveFile A nonce faults disk path magic version records key).2 path
        (seal_ A nonce magic version records key) magic version key records ↔
      (sealedRecords records).length ≤ kMaxRecords ∧ (∀ r ∈ records, r.length < 2 ^ 32) ∧
        snapshotBytes records ≤ longMax := by
  have found := saveFile_saved succeeded
  constructor
  · intro loads
    obtain ⟨loaded, kept, opened⟩ := loads []
    obtain ⟨size, _⟩ := (loadFile_opens found).mp ⟨loaded, kept⟩
    obtain ⟨count, small⟩ := (tryOpen_seal_iff ideal).mp opened
    exact ⟨count, small, seal_length ideal ▸ size⟩
  · rintro ⟨count, small, size⟩ outRecords
    have opened : tryOpen A magic version (seal_ A nonce magic version records key) key outRecords =
        (true, sealedRecords records) := (tryOpen_seal_iff ideal).mpr ⟨count, small⟩
    have fits : (seal_ A nonce magic version records key).length ≤ longMax := by
      rw [seal_length ideal]
      exact size
    obtain ⟨loaded, kept⟩ := (loadFile_opens found).mpr ⟨fits, opened⟩
    exact ⟨loaded, kept, opened⟩

theorem opensOnlyAsSaved (ideal : A.Ideal kTagSize [sealingOf nonce magic version records key]) :
    OpensOnlyAsSaved A longMax path (seal_ A nonce magic version records key) magic version key := by
  intro disk faults content magic' version' key' outRecords changed
  refine ⟨fun found => ?_, tryOpen_authentic ideal changed⟩
  apply loadFile_refuses
  intro blob present
  rw [found] at present
  cases present
  exact tryOpen_authentic ideal changed

/-- A saved snapshot loads back exactly when it keeps to the reader's bounds: the record count, the
    32-bit record size and the file size. Nothing else ever loads. -/
theorem saved_snapshot_loads_iff (A : Aead) (longMax : Nat) (nonce : Nonce) (faults : SaveFaults)
    (disk : Disk) (path : Bytes) (magic : Magic) (version : UInt8) (records : List Bytes) (key : SealKey)
    (ideal : A.Ideal kTagSize [sealingOf nonce magic version records key])
    (succeeded : (saveFile A nonce faults disk path magic version records key).1 = true) :
    (LoadsBack A longMax (saveFile A nonce faults disk path magic version records key).2 path
        (seal_ A nonce magic version records key) magic version key records ∧
      OpensOnlyAsSaved A longMax path (seal_ A nonce magic version records key) magic version key) ↔
    (sealedRecords records).length ≤ kMaxRecords ∧ (∀ r ∈ records, r.length < 2 ^ 32) ∧
      snapshotBytes records ≤ longMax :=
  ⟨fun both => (loadsBack_iff ideal succeeded).mp both.1,
    fun bounds => ⟨(loadsBack_iff ideal succeeded).mpr bounds, opensOnlyAsSaved ideal⟩⟩

theorem saveFile_without_faults :
    (saveFile A nonce {} disk path magic version records key).1 = true := by
  have written : (seal_ A nonce magic version records key).isEmpty = false := by
    simp [seal_eq, header]
  simp [saveFile, written]

end Laws

namespace SnapshotSample

def magic : Magic := repeatedByte kMagicSize 0x43
def key : SealKey := repeatedByte kSealKeyBytes 7
def nonce : Nonce := repeatedByte kNonceSize 9
def path : Bytes := [0x66]
def cipher (records : List Bytes) : Aead := .table kTagSize (sealingOf nonce magic 1 records key)
def saved (records : List Bytes) : Disk :=
  (saveFile (cipher records) nonce {} (fun _ => none) path magic 1 records key).2
def blob (records : List Bytes) : Bytes := seal_ (cipher records) nonce magic 1 records key
def crowd : List Bytes := List.replicate 65536 [0]

end SnapshotSample

open SnapshotSample in
theorem saved_snapshot_loads_iff_small :
    LoadsBack (cipher [[1, 2], [], [3]]) (2 ^ 31 - 1) (saved [[1, 2], [], [3]]) path
        (blob [[1, 2], [], [3]]) magic 1 key [[1, 2], [], [3]] ∧
      OpensOnlyAsSaved (cipher [[1, 2], [], [3]]) (2 ^ 31 - 1) path (blob [[1, 2], [], [3]]) magic 1 key :=
  (saved_snapshot_loads_iff (cipher [[1, 2], [], [3]]) (2 ^ 31 - 1) nonce {} (fun _ => none) path magic 1
    [[1, 2], [], [3]] key (Aead.table_ideal _ _) saveFile_without_faults).mpr
    ⟨by decide, by decide, by decide⟩

open SnapshotSample in
/-- One record more than the reader's cap is saved with success and never opens again. -/
theorem crowded_snapshot_saves_but_never_loads :
    (saveFile (cipher crowd) nonce {} (fun _ => none) path magic 1 crowd key).1 = true ∧
      ¬ LoadsBack (cipher crowd) (2 ^ 63 - 1) (saved crowd) path (blob crowd) magic 1 key crowd := by
  refine ⟨saveFile_without_faults, ?_⟩
  intro loads
  obtain ⟨count, _⟩ := (loadsBack_iff (Aead.table_ideal _ _) saveFile_without_faults).mp loads
  have size : (sealedRecords crowd).length = 65536 := by
    rw [sealedRecords, crowd, List.filter_replicate_of_pos (by decide), List.length_replicate]
  rw [size] at count
  exact absurd count (by decide)

end ClippProof.Persistence
