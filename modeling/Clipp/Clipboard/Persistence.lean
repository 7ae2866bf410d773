import Clipp.Clipboard.Wire

open Foundation

namespace ClippModel.Clipboard

namespace ClipboardPersistence

def kMaxBodyBytes : Nat := 64 * 1024 * 1024

/-- Empty for a payload that is too large to keep. -/
def encodeRecord (payload : ClipboardPayload) : Bytes :=
  if payload.encoded.length > kMaxBodyBytes then []
  else tagCLIP ++ payload.meta_.pack ++ payload.encoded

def tryDecodeRecord (record : Bytes) : Option ClipboardPayload :=
  if record.length < 4 + clipboardMessageSize then none
  else if record.take 4 ≠ tagCLIP then none
  else match readMessage (record.drop 4) with
    | none => none
    | some (meta_, body) =>
      if meta_.payloadDataSize ≠ UInt64.ofNat body.length then none
      else if meta_.uncompressedDataSize.toNat > kMaxDecompressedClipboardBytes then none
      else if meta_.isCompressed = 0 ∧ meta_.payloadDataSize ≠ meta_.uncompressedDataSize then none
      else some { meta_ := meta_, encoded := body }

end ClipboardPersistence

end ClippModel.Clipboard

namespace ClippProof.Clipboard

open ClippModel.Clipboard ClippModel.Clipboard.ClipboardPayload ClippModel.Clipboard.ClipboardWire
  ClippModel.Clipboard.ClipboardPersistence

variable {C : Codec} {p built received : ClipboardPayload} {bytes record frame : Bytes}

theorem tryDecodeRecord_eq (record : Bytes) :
    tryDecodeRecord record = if record.take 4 = tagCLIP then tryDecodeClipboardFrame record else none := by
  unfold tryDecodeRecord tryDecodeClipboardFrame
  by_cases short : record.length < 4 + clipboardMessageSize
  · simp only [short, if_true, ite_self]
  · by_cases tag : record.take 4 = tagCLIP
    · cases readMessage (record.drop 4) <;> simp only [short, tag, ne_eq, not_true_eq_false, if_true, if_false]
    · simp only [short, tag, ne_eq, not_false_eq_true, if_true, if_false]

theorem encodeRecord_kept (kept : encodeRecord p ≠ []) :
    p.encoded.length ≤ kMaxBodyBytes ∧ encodeRecord p = clipboardFrame p := by
  unfold encodeRecord at kept ⊢
  split_ifs at kept ⊢ with large
  · exact absurd rfl kept
  · exact ⟨not_lt.mp large, rfl⟩

theorem tryDecodeRecord_clipboardFrame (consistent : Consistent p) : tryDecodeRecord (clipboardFrame p) = some p := by
  rw [tryDecodeRecord_eq, if_pos (clipboardFrame_tag p)]
  exact tryDecodeClipboardFrame_clipboardFrame consistent

theorem received_persists (decoded : tryDecodeClipboardFrame frame = some received)
    (kept : encodeRecord received ≠ []) : tryDecodeRecord (encodeRecord received) = some received := by
  rw [(encodeRecord_kept kept).2]
  exact tryDecodeRecord_clipboardFrame (tryDecodeClipboardFrame_consistent decoded)

theorem built_persists_iff (addressable : bytes.length < 2 ^ 64)
    (made : setUncompressedBytes C p bytes = some built) (kept : encodeRecord built ≠ []) :
    tryDecodeRecord (encodeRecord built) = some built ↔
      (canonicalBytes p.meta_.formatId bytes).length ≤ kMaxDecompressedClipboardBytes := by
  have b := setUncompressedBytes_built made
  rw [(encodeRecord_kept kept).2]
  constructor
  · intro decoded
    rw [tryDecodeRecord_eq, if_pos (clipboardFrame_tag built)] at decoded
    have within := (tryDecodeClipboardFrame_consistent decoded).uncompressedSize
    have canonical : (canonicalBytes p.meta_.formatId bytes).length < 2 ^ 64 :=
      (canonicalBytes_length _ _).trans_lt addressable
    rwa [b.uncompressedSize, UInt64.toNat_ofNat', Nat.mod_eq_of_lt canonical] at within
  · intro small
    exact tryDecodeRecord_clipboardFrame (built_consistent b small)

/-- Built payloads persist when they are within `limit`, received ones always, and the two decoders agree. -/
structure PersistsAll (C : Codec) (limit : Nat → Prop) : Prop where
  built : ∀ p bytes payload, bytes.length < 2 ^ 64 → setUncompressedBytes C p bytes = some payload →
    encodeRecord payload ≠ [] →
    (tryDecodeRecord (encodeRecord payload) = some payload ↔
      limit (canonicalBytes p.meta_.formatId bytes).length)
  received : ∀ frame payload, tryDecodeClipboardFrame frame = some payload → encodeRecord payload ≠ [] →
    tryDecodeRecord (encodeRecord payload) = some payload
  agree : ∀ record, (tryDecodeRecord record).isSome = true ↔
    record.take 4 = tagCLIP ∧ (tryDecodeClipboardFrame record).isSome = true

/-- A vector's size is a 64-bit number. A built payload that is stored is read back exactly when its canonical
    content is within the decompression limit. -/
theorem persistence_iff_within_limit (C : Codec) :
    PersistsAll C (fun size => size ≤ kMaxDecompressedClipboardBytes) := by
  refine ⟨fun p bytes payload addressable made kept => built_persists_iff addressable made kept,
    fun frame payload decoded kept => received_persists decoded kept, fun record => ?_⟩
  rw [tryDecodeRecord_eq]
  split_ifs with tag
  · simp only [tag, true_and]
  · simp [tag]

section Samples

theorem run_compressed (n : Nat) (b : UInt8) (fits : n < 256 ^ 8) :
    runLength.compress (List.replicate n b) = some (1 :: (List.replicate n b).headD 0 :: bigEndian 8 n) := by
  have run : List.replicate n b = List.replicate n ((List.replicate n b).headD 0) := by
    cases n with
    | zero => rfl
    | succ n => rfl
  simp only [runLength, List.length_replicate]
  rw [if_pos ⟨fits, run⟩]

theorem canonical_replicate (n : Nat) : canonicalizeCrlfToLf (List.replicate n 0x61) = List.replicate n 0x61 := by
  induction n with
  | zero => rfl
  | succ n ih =>
    rw [List.replicate_succ, canonicalizeCrlfToLf, ih]
    · exact fun rest => by simp
    · exact fun same => absurd same (by decide)

theorem long_run_built {n : Nat} (long : 512 ≤ n) (fits : n < 256 ^ 8) :
    ∃ built, setUncompressedBytes runLength utf8Item (List.replicate n 0x61) = some built ∧
      built.encoded.length = 10 := by
  have canonical : canonicalBytes utf8Item.meta_.formatId (List.replicate n 0x61) = List.replicate n 0x61 :=
    canonical_replicate n
  have worth : worthCompressing utf8Item.meta_.formatId (List.replicate n 0x61) = true := by
    rw [worthCompressing, List.length_replicate, decide_eq_true_iff]
    exact ⟨long, rfl⟩
  have packed := run_compressed n 0x61 fits
  rw [← canonical] at packed worth
  obtain ⟨built, made, encoding⟩ := setUncompressedBytes_compressed worth packed
  refine ⟨built, made, ?_⟩
  rw [encoding]
  simp only [List.length_cons, bigEndian_length]

def shortText : ClipboardPayload := (setUncompressedBytes runLength utf8Item [0x68, 0x69]).getD utf8Item

theorem short_text_persists : tryDecodeRecord (encodeRecord shortText) = some shortText :=
  ((persistence_iff_within_limit runLength).built utf8Item [0x68, 0x69] shortText (by decide) (by decide +kernel)
    (by decide +kernel)).mpr (by decide +kernel)

/-- A run of one letter past the limit compresses to a few bytes, is stored, and is not read back. -/
theorem long_run_does_not_persist {n : Nat} (large : kMaxDecompressedClipboardBytes < n) (fits : n < 256 ^ 8) :
    ¬ PersistsAll runLength (fun _ => True) := by
  intro persists
  have threshold : 512 ≤ kMaxDecompressedClipboardBytes := by decide
  have budget : 10 ≤ kMaxBodyBytes := by decide
  have addressable : (List.replicate n (0x61 : UInt8)).length < 2 ^ 64 := by
    rw [List.length_replicate]
    exact fits
  obtain ⟨built, made, size⟩ := long_run_built (threshold.trans large.le) fits
  have kept : encodeRecord built ≠ [] := by
    rw [encodeRecord, if_neg (not_lt.mpr (size ▸ budget))]
    simp [tagCLIP]
  have read := (persists.built utf8Item _ built addressable made kept).mpr trivial
  have within := (built_persists_iff addressable made kept).mp read
  have canonical : canonicalBytes utf8Item.meta_.formatId (List.replicate n 0x61) = List.replicate n 0x61 :=
    canonical_replicate n
  rw [canonical, List.length_replicate] at within
  exact absurd large (not_lt.mpr within)

/-- 64 MiB and one byte of text. -/
theorem long_text_does_not_persist : Codec.Correct runLength ∧ ¬ PersistsAll runLength (fun _ => True) := by
  have fits : 64 * 1024 * 1024 + 1 < 256 ^ 8 := by decide
  exact ⟨runLength_correct, long_run_does_not_persist (Nat.lt_succ_self _) fits⟩

end Samples

end ClippProof.Clipboard
