import Clipp.Clipboard.Activity
import Clipp.Gateway.Intake
import Clipp.Wire.Frame
import Clipp.Wire.RegisterWire

open Foundation

namespace ClippModel.Clipboard

open ClippModel.Persistence ClippModel.Registers ClippModel.Wire.CryptoChannel ClippModel.Wire.RegisterWire

def clipboardMessageSize : Nat := 157 + hostnameMaxBytes

def tagCLIP : Bytes := [0x43, 0x4C, 0x49, 0x50]

def ClipboardMessage.pack (m : ClipboardMessage) : Bytes :=
  bigEndian 4 m.flags.toNat ++ (bigEndian 8 m.timestamp.toNat ++ ([m.hashAlg] ++ (m.reserved0.val ++
    (m.hashBytes.val ++ (m.originHostId.bytes ++ (m.originHostName.val ++
      (bigEndian 8 m.originSequenceNumber.toNat ++ (m.eventGuid.val ++ (m.reserved1.val ++
        (bigEndian 4 m.formatId.toNat ++ ([m.isCompressed] ++ (bigEndian 8 m.payloadDataSize.toNat ++
          bigEndian 8 m.uncompressedDataSize.toNat))))))))))))

def readSized (n : Nat) : Reader (Sized n) := fun input =>
  if size : n ≤ input.length then some (⟨input.take n, List.length_take_of_le size⟩, input.drop n)
  else none

def readMessage : Reader ClipboardMessage := do
  let flags ← Reader.int 4
  let timestamp ← Reader.int 8
  let hashAlg ← u8
  let reserved0 ← readSized 3
  let hashBytes ← readSized 64
  let originHostId ← readHostId
  let originHostName ← readSized hostnameMaxBytes
  let originSequenceNumber ← Reader.int 8
  let eventGuid ← readSized 16
  let reserved1 ← readSized 16
  let formatId ← Reader.int 4
  let isCompressed ← u8
  let payloadDataSize ← Reader.int 8
  let uncompressedDataSize ← Reader.int 8
  return { flags := UInt32.ofNat flags, timestamp := UInt64.ofNat timestamp, hashAlg := hashAlg,
           reserved0 := reserved0, hashBytes := hashBytes, originHostId := originHostId,
           originHostName := originHostName, originSequenceNumber := UInt64.ofNat originSequenceNumber,
           eventGuid := eventGuid, reserved1 := reserved1, formatId := UInt32.ofNat formatId,
           isCompressed := isCompressed, payloadDataSize := UInt64.ofNat payloadDataSize,
           uncompressedDataSize := UInt64.ofNat uncompressedDataSize }

def clipboardFrame (payload : ClipboardPayload) : Bytes := tagCLIP ++ payload.meta_.pack ++ payload.encoded

/-- The most recent item, if it is text. -/
def rcntReply (activity : ClipboardActivityStore) : Bytes :=
  match (activity.itemsSince (List.replicate 16 0) 1).getLast? with
  | none => Gateway.tagNONE
  | some payload =>
    if !payload.encoded.isEmpty ∧ payload.meta_.formatId = clippFormatUtf8 then clipboardFrame payload
    else Gateway.tagNONE

namespace ClipboardWire

def kFrameOverhead : Nat := 4 + clipboardMessageSize + secretstreamABytes
def kFrameLimitBytes : Nat := 64 * 1024 * 1024
def kMaxEncodedPayloadBytes : Nat := kFrameLimitBytes - kFrameOverhead

/-- Whether the payload was sent, and the frames carried so far. -/
def sendClipboardPayload (carries : Transport) (sent : List Bytes) (payload : ClipboardPayload) :
    Bool × List Bytes :=
  if payload.encoded.length > kMaxEncodedPayloadBytes then (false, sent)
  else sendFrame carries sent tagCLIP payload.meta_.pack (u32Sized payload.encoded)

/-- The four tag bytes are not looked at. -/
def tryDecodeClipboardFrame (frame : Bytes) : Option ClipboardPayload :=
  if frame.length < 4 + clipboardMessageSize then none
  else match readMessage (frame.drop 4) with
    | none => none
    | some (meta_, body) =>
      if meta_.payloadDataSize ≠ UInt64.ofNat body.length then none
      else if meta_.uncompressedDataSize.toNat > kMaxDecompressedClipboardBytes then none
      else if meta_.isCompressed = 0 ∧ meta_.payloadDataSize ≠ meta_.uncompressedDataSize then none
      else some { meta_ := meta_, encoded := body }

end ClipboardWire

end ClippModel.Clipboard

namespace ClippProof.Clipboard

open ClippModel.Persistence ClippModel.Registers ClippModel.Wire.CryptoChannel ClippModel.Wire.RegisterWire
  ClippModel.Clipboard ClippModel.Clipboard.ClipboardPayload ClippModel.Clipboard.ClipboardWire ClippProof.Wire

variable {C : Codec} {p built : ClipboardPayload} {m : ClipboardMessage} {bytes frame body : Bytes}

theorem pack_length (m : ClipboardMessage) : m.pack.length = clipboardMessageSize := by
  simp only [ClipboardMessage.pack, List.length_append, bigEndian_length, List.length_singleton, m.reserved0.property,
    m.hashBytes.property, m.originHostId.size, m.originHostName.property, m.eventGuid.property, m.reserved1.property]
  rfl

theorem clipboardFrame_tag (p : ClipboardPayload) : (clipboardFrame p).take 4 = tagCLIP := by
  rw [clipboardFrame, List.append_assoc]
  exact List.take_left' rfl

theorem clipboardFrame_rest (p : ClipboardPayload) : (clipboardFrame p).drop 4 = p.meta_.pack ++ p.encoded := by
  rw [clipboardFrame, List.append_assoc]
  exact List.drop_left' rfl

theorem reads_sized {n : Nat} (field : Sized n) : Reader.Reads (readSized n) field.val field := by
  intro rest
  have size : n ≤ (field.val ++ rest).length := by
    rw [List.length_append, field.property]
    exact Nat.le_add_right _ _
  simp only [readSized, size, dif_pos, Option.some.injEq, Prod.mk.injEq]
  exact ⟨Subtype.ext (List.take_left' field.property), List.drop_left' field.property⟩

theorem reads_u32 (n : UInt32) : Reader.Reads (Reader.int 4) (bigEndian 4 n.toNat) n.toNat := .int n.toNat_lt
theorem reads_u64 (n : UInt64) : Reader.Reads (Reader.int 8) (bigEndian 8 n.toNat) n.toNat := .int n.toNat_lt

theorem reads_message (m : ClipboardMessage) : Reader.Reads readMessage m.pack m := by
  have read : Reader.Reads readMessage _ _ :=
    (reads_u32 m.flags).bind ((reads_u64 m.timestamp).bind ((reads_u8 m.hashAlg).bind
      ((reads_sized m.reserved0).bind ((reads_sized m.hashBytes).bind ((reads_hostId m.originHostId).bind
        ((reads_sized m.originHostName).bind ((reads_u64 m.originSequenceNumber).bind
          ((reads_sized m.eventGuid).bind ((reads_sized m.reserved1).bind ((reads_u32 m.formatId).bind
            ((reads_u8 m.isCompressed).bind ((reads_u64 m.payloadDataSize).bind
              ((reads_u64 m.uncompressedDataSize).bind (.pure _))))))))))))))
  simp only [List.append_nil, UInt32.ofNat_toNat, UInt64.ofNat_toNat] at read
  exact read

/-- What both decoders ask of a header and the body behind it. -/
structure Consistent (p : ClipboardPayload) : Prop where
  payloadSize : p.meta_.payloadDataSize = UInt64.ofNat p.encoded.length
  uncompressedSize : p.meta_.uncompressedDataSize.toNat ≤ kMaxDecompressedClipboardBytes
  plain : p.meta_.isCompressed = 0 → p.meta_.payloadDataSize = p.meta_.uncompressedDataSize

theorem tryDecodeClipboardFrame_consistent (decoded : tryDecodeClipboardFrame frame = some p) : Consistent p := by
  unfold tryDecodeClipboardFrame at decoded
  split_ifs at decoded with short
  split at decoded
  · cases decoded
  · split_ifs at decoded with size large sizes
    cases decoded
    exact ⟨not_not.mp size, not_lt.mp large, fun plain => by_contra fun differ => sizes ⟨plain, differ⟩⟩

theorem tryDecodeClipboardFrame_clipboardFrame (consistent : Consistent p) :
    tryDecodeClipboardFrame (clipboardFrame p) = some p := by
  have long : ¬ (clipboardFrame p).length < 4 + clipboardMessageSize := by
    have tag : tagCLIP.length = 4 := rfl
    rw [clipboardFrame, List.length_append, List.length_append, pack_length, tag]
    exact not_lt.mpr (Nat.le_add_right _ _)
  have sizes : ¬ (p.meta_.isCompressed = 0 ∧ p.meta_.payloadDataSize ≠ p.meta_.uncompressedDataSize) :=
    fun differ => differ.2 (consistent.plain differ.1)
  rw [tryDecodeClipboardFrame, if_neg long, clipboardFrame_rest, reads_message p.meta_ p.encoded]
  simp only [if_neg (not_not.mpr consistent.payloadSize), if_neg (not_lt.mpr consistent.uncompressedSize),
    if_neg sizes]

theorem built_consistent (b : Built C p bytes built)
    (small : (canonicalBytes p.meta_.formatId bytes).length ≤ kMaxDecompressedClipboardBytes) : Consistent built := by
  refine ⟨b.payloadSize, ?_, ?_⟩
  · rw [uncompressedSize_toNat b small]
    exact small
  · intro plain
    rcases b.content with ⟨_, same⟩ | ⟨packed, _⟩
    · rw [b.payloadSize, b.uncompressedSize, same]
    · rw [packed] at plain
      exact absurd plain (by decide)

theorem sendClipboardPayload_carried {carries : Transport} {sent : List Bytes}
    (fits : 4 + clipboardMessageSize + p.encoded.length ≤ kMaxPlaintext)
    (carried : carries sent (clipboardFrame p) = true) :
    sendClipboardPayload carries sent p = (true, sent ++ [clipboardFrame p]) := by
  have limit : kMaxPlaintext = kMaxEncodedPayloadBytes + (4 + clipboardMessageSize) := by decide
  have budget : kMaxEncodedPayloadBytes < 2 ^ 32 := by decide
  have within : p.encoded.length ≤ kMaxEncodedPayloadBytes := by omega
  have size : 4 + p.meta_.pack.length + p.encoded.length ≤ kMaxPlaintext := by
    rw [pack_length]
    exact fits
  rw [sendClipboardPayload, if_neg (not_lt.mpr within), u32Sized_eq (by omega)]
  exact sendFrame_carried size carried

/-- A payload whose frame can be sent and whose canonical content is within the decompression limit arrives
    as it was, and its content is the canonical form of what it was built from. -/
theorem sent_payload_accepted (correct : Codec.Correct C) (made : setUncompressedBytes C p bytes = some built)
    (fits : 4 + clipboardMessageSize + built.encoded.length ≤ kMaxPlaintext)
    (small : (canonicalBytes p.meta_.formatId bytes).length ≤ kMaxDecompressedClipboardBytes) :
    (∀ carries sent, carries sent (clipboardFrame built) = true →
      sendClipboardPayload carries sent built = (true, sent ++ [clipboardFrame built])) ∧
    tryDecodeClipboardFrame (clipboardFrame built) = some built ∧
    tryGetUncompressedBytes C built = some (canonicalBytes p.meta_.formatId bytes) := by
  have b := setUncompressedBytes_built made
  exact ⟨fun _ _ carried => sendClipboardPayload_carried fits carried,
    tryDecodeClipboardFrame_clipboardFrame (built_consistent b small), tryGet_built correct b small⟩

section Samples

def runLength : Codec where
  compress plain :=
    if plain.length < 256 ^ 8 ∧ plain = List.replicate plain.length (plain.headD 0) then
      some (1 :: plain.headD 0 :: bigEndian 8 plain.length)
    else some (0 :: plain)
  frameContentSize
    | 1 :: _ :: size => some (number size)
    | 0 :: plain => some plain.length
    | _ => none
  decompress capacity
    | 1 :: b :: size => if number size ≤ capacity then some (List.replicate (number size) b) else none
    | 0 :: plain => if plain.length ≤ capacity then some plain else none
    | _ => none
  hash128 _ _ := zeroBytes 16

theorem runLength_correct : Codec.Correct runLength := by
  constructor
  · intro plain packed made
    simp only [runLength] at made
    split_ifs at made with run
    · cases made
      simp only [runLength, number_bigEndian_of_lt run.1]
    · cases made
      rfl
  · intro plain packed capacity made room
    simp only [runLength] at made
    split_ifs at made with run
    · cases made
      simp only [runLength, number_bigEndian_of_lt run.1, room, if_true]
      exact congrArg some run.2.symm
    · cases made
      simp only [runLength, room, if_true]

def utf8Item : ClipboardPayload := { meta_ := { ClipboardMessage.zero with formatId := clippFormatUtf8 }, encoded := [] }

def SentAsGiven (C : Codec) : Prop :=
  ∀ p bytes built, setUncompressedBytes C p bytes = some built →
    4 + clipboardMessageSize + built.encoded.length ≤ kMaxPlaintext →
    tryDecodeClipboardFrame (clipboardFrame built) = some built ∧ tryGetUncompressedBytes C built = some bytes

/-- A carriage return arrives as a line feed. -/
theorem carriage_return_is_rewritten : Codec.Correct runLength ∧ ¬ SentAsGiven runLength := by
  refine ⟨runLength_correct, fun given => ?_⟩
  have made : setUncompressedBytes runLength utf8Item [0x0D] =
      some ((setUncompressedBytes runLength utf8Item [0x0D]).getD utf8Item) := by decide +kernel
  have exact_ := (given utf8Item [0x0D] _ made (by decide +kernel)).2
  have rewritten : tryGetUncompressedBytes runLength
      ((setUncompressedBytes runLength utf8Item [0x0D]).getD utf8Item) = some [0x0A] := by decide +kernel
  rw [rewritten] at exact_
  exact absurd exact_ (by decide)

theorem short_text_accepted :
    tryDecodeClipboardFrame (clipboardFrame ((setUncompressedBytes runLength utf8Item [0x68, 0x69]).getD utf8Item)) =
      some ((setUncompressedBytes runLength utf8Item [0x68, 0x69]).getD utf8Item) :=
  (sent_payload_accepted runLength_correct
    (show setUncompressedBytes runLength utf8Item [0x68, 0x69] = some _ by decide +kernel)
    (by decide +kernel) (by decide +kernel)).2.1

end Samples

end ClippProof.Clipboard
