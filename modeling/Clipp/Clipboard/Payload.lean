import Clipp.Persistence.SealedSnapshot
import Clipp.Registers.Record

open Foundation

namespace ClippModel.Clipboard

open ClippModel.Persistence ClippModel.Registers

def clippFormatNone : UInt32 := 0
def clippFormatPng : UInt32 := 8
def clippFormatUtf8 : UInt32 := 13
def clippFormatJpeg : UInt32 := 0x434A5047

def isClippTextFormat (formatId : UInt32) : Bool := formatId = clippFormatUtf8

def kMaxDecompressedClipboardBytes : Nat := 64 * 1024 * 1024
def hostnameMaxBytes : Nat := 128

def clpmFlagSyncReplay : UInt32 := 0x00000001
def clpmFlagSourceMarkedPrivate : UInt32 := 0x00000002
def clpmFlagRelay : UInt32 := 0x00000004

structure ClipboardMessage where
  flags : UInt32
  timestamp : UInt64
  hashAlg : UInt8
  reserved0 : Sized 3
  hashBytes : Sized 64
  originHostId : HostId
  originHostName : Sized hostnameMaxBytes
  originSequenceNumber : UInt64
  eventGuid : Sized 16
  reserved1 : Sized 16
  formatId : UInt32
  isCompressed : UInt8
  payloadDataSize : UInt64
  uncompressedDataSize : UInt64
  deriving DecidableEq

def zeroBytes (n : Nat) : Sized n := SealedSnapshot.repeatedByte n 0

def ClipboardMessage.zero : ClipboardMessage where
  flags := 0
  timestamp := 0
  hashAlg := 0
  reserved0 := zeroBytes 3
  hashBytes := zeroBytes 64
  originHostId := HostId.zero
  originHostName := zeroBytes hostnameMaxBytes
  originSequenceNumber := 0
  eventGuid := zeroBytes 16
  reserved1 := zeroBytes 16
  formatId := 0
  isCompressed := 0
  payloadDataSize := 0
  uncompressedDataSize := 0

/-- The compressor and the hash the program links: `frameContentSize` is absent for an invalid frame or one
    without a recorded size, and `decompress` writes into a buffer of the given capacity. -/
structure Codec where
  compress : Bytes → Option Bytes
  frameContentSize : Bytes → Option Nat
  decompress : Nat → Bytes → Option Bytes
  hash128 : UInt32 → Bytes → Sized 16

structure ClipboardPayload where
  meta_ : ClipboardMessage
  encoded : Bytes
  deriving DecidableEq

def blankPayload (formatId : UInt32) : ClipboardPayload where
  meta_ := { ClipboardMessage.zero with formatId := formatId }
  encoded := []

def canonicalizeCrlfToLf : Bytes → Bytes
  | [] => []
  | 0x0D :: 0x0A :: rest => 0x0A :: canonicalizeCrlfToLf rest
  | 0x0D :: rest => 0x0A :: canonicalizeCrlfToLf rest
  | b :: rest => b :: canonicalizeCrlfToLf rest

/-- The sixteen digest bytes in front of a field of 64. -/
def hashField (digest : Sized 16) : Sized 64 :=
  ⟨digest.val ++ List.replicate 48 0, by rw [List.length_append, digest.property, List.length_replicate]⟩

namespace ClipboardPayload

/-- The bytes a payload is built from: line endings are settled for text only. -/
def canonicalBytes (formatId : UInt32) (bytes : Bytes) : Bytes :=
  if formatId = clippFormatUtf8 then canonicalizeCrlfToLf bytes else bytes

def worthCompressing (formatId : UInt32) (bytes : Bytes) : Bool :=
  bytes.length ≥ 512 ∧ formatId = clippFormatUtf8

def setUncompressedBytes (C : Codec) (p : ClipboardPayload) (bytes : Bytes) : Option ClipboardPayload :=
  let canonical := canonicalBytes p.meta_.formatId bytes
  let hashed : ClipboardMessage :=
    { p.meta_ with
      hashAlg := 1
      hashBytes := hashField (C.hash128 p.meta_.formatId canonical)
      uncompressedDataSize := UInt64.ofNat canonical.length }
  if !worthCompressing p.meta_.formatId canonical then
    some { meta_ := { hashed with isCompressed := 0, payloadDataSize := UInt64.ofNat canonical.length }
           encoded := canonical }
  else match C.compress canonical with
    | none => none
    | some compressed =>
      some { meta_ := { hashed with isCompressed := 1, payloadDataSize := UInt64.ofNat compressed.length }
             encoded := compressed }

/-- The lazily filled scratch buffer holds this same result. -/
def tryGetUncompressedBytes (C : Codec) (p : ClipboardPayload) : Option Bytes :=
  if p.meta_.isCompressed = 0 then some p.encoded
  else
    let expected := p.meta_.uncompressedDataSize.toNat
    if expected > kMaxDecompressedClipboardBytes then none
    else match C.frameContentSize p.encoded with
      | none => none
      | some frameSize =>
        if frameSize ≠ expected then none
        else match C.decompress expected p.encoded with
          | none => none
          | some plain => if plain.length ≠ expected then none else some plain

structure OriginStamp where
  originHostId : HostId
  originHostName : Sized hostnameMaxBytes
  eventGuid : Sized 16
  originSequenceNumber : UInt64
  timestamp : UInt64

def stampOrigin (p : ClipboardPayload) (stamp : OriginStamp) : ClipboardPayload :=
  { p with
    meta_ := { p.meta_ with
      originHostId := stamp.originHostId
      originHostName := stamp.originHostName
      eventGuid := stamp.eventGuid
      originSequenceNumber := stamp.originSequenceNumber
      timestamp := stamp.timestamp } }

def addFlags (p : ClipboardPayload) (flags : UInt32) : ClipboardPayload :=
  { p with meta_ := { p.meta_ with flags := p.meta_.flags ||| flags } }

def isReplay (p : ClipboardPayload) : Bool := p.meta_.flags &&& clpmFlagSyncReplay ≠ 0
def isSourceMarkedPrivate (p : ClipboardPayload) : Bool := p.meta_.flags &&& clpmFlagSourceMarkedPrivate ≠ 0
def isRelay (p : ClipboardPayload) : Bool := p.meta_.flags &&& clpmFlagRelay ≠ 0

/-- The marker of content that was not shared: marked private, and empty. -/
def isPrivatePlaceholder (p : ClipboardPayload) : Bool := p.isSourceMarkedPrivate && p.encoded.isEmpty

end ClipboardPayload

end ClippModel.Clipboard

namespace ClippProof.Clipboard

open ClippModel.Persistence ClippModel.Registers ClippModel.Clipboard ClippModel.Clipboard.ClipboardPayload

variable {C : Codec} {p built : ClipboardPayload} {bytes compressed : Bytes}

/-- The documented behaviour of the compressor: a frame it produced records the size of its content, and
    unpacks to that content wherever there is room for it. -/
structure Codec.Correct (C : Codec) : Prop where
  sized : ∀ plain packed, C.compress plain = some packed → C.frameContentSize packed = some plain.length
  unpacks : ∀ plain packed capacity, C.compress plain = some packed → plain.length ≤ capacity →
    C.decompress capacity packed = some plain

theorem canonicalizeCrlfToLf_length (bytes : Bytes) : (canonicalizeCrlfToLf bytes).length ≤ bytes.length := by
  fun_induction canonicalizeCrlfToLf bytes with
  | case1 => exact le_rfl
  | case2 rest ih =>
    simp only [List.length_cons]
    omega
  | case3 rest _ ih =>
    simp only [List.length_cons]
    omega
  | case4 b rest _ _ ih =>
    simp only [List.length_cons]
    omega

theorem canonicalBytes_length (formatId : UInt32) (bytes : Bytes) :
    (canonicalBytes formatId bytes).length ≤ bytes.length := by
  unfold canonicalBytes
  split_ifs
  · exact canonicalizeCrlfToLf_length bytes
  · exact le_rfl

/-- What a built payload is: the canonical bytes themselves, or what the compressor made of them. -/
structure Built (C : Codec) (p : ClipboardPayload) (bytes : Bytes) (built : ClipboardPayload) : Prop where
  format : built.meta_.formatId = p.meta_.formatId
  flags : built.meta_.flags = p.meta_.flags
  hash : built.meta_.hashBytes = hashField (C.hash128 p.meta_.formatId (canonicalBytes p.meta_.formatId bytes))
  payloadSize : built.meta_.payloadDataSize = UInt64.ofNat built.encoded.length
  uncompressedSize : built.meta_.uncompressedDataSize =
    UInt64.ofNat (canonicalBytes p.meta_.formatId bytes).length
  content : built.meta_.isCompressed = 0 ∧ built.encoded = canonicalBytes p.meta_.formatId bytes ∨
    built.meta_.isCompressed = 1 ∧ C.compress (canonicalBytes p.meta_.formatId bytes) = some built.encoded

theorem setUncompressedBytes_built (made : setUncompressedBytes C p bytes = some built) : Built C p bytes built := by
  unfold setUncompressedBytes at made
  by_cases worth : worthCompressing p.meta_.formatId (canonicalBytes p.meta_.formatId bytes) = true
  · simp only [worth, Bool.not_true, Bool.false_eq_true, if_false] at made
    cases packed : C.compress (canonicalBytes p.meta_.formatId bytes) with
    | none => simp [packed] at made
    | some compressed =>
      simp only [packed, Option.some.injEq] at made
      subst made
      exact ⟨rfl, rfl, rfl, rfl, rfl, .inr ⟨rfl, packed⟩⟩
  · simp only [worth, Bool.not_false, if_true, Option.some.injEq] at made
    subst made
    exact ⟨rfl, rfl, rfl, rfl, rfl, .inl ⟨rfl, rfl⟩⟩

theorem setUncompressedBytes_compressed
    (worth : worthCompressing p.meta_.formatId (canonicalBytes p.meta_.formatId bytes) = true)
    (packed : C.compress (canonicalBytes p.meta_.formatId bytes) = some compressed) :
    ∃ built, setUncompressedBytes C p bytes = some built ∧ built.encoded = compressed := by
  simp only [setUncompressedBytes, worth, Bool.not_true, Bool.false_eq_true, if_false, packed]
  exact ⟨_, rfl, rfl⟩

theorem uncompressedSize_toNat (b : Built C p bytes built)
    (small : (canonicalBytes p.meta_.formatId bytes).length ≤ kMaxDecompressedClipboardBytes) :
    built.meta_.uncompressedDataSize.toNat = (canonicalBytes p.meta_.formatId bytes).length := by
  have bound : (canonicalBytes p.meta_.formatId bytes).length < 2 ^ 64 := small.trans_lt (by decide)
  rw [b.uncompressedSize, UInt64.toNat_ofNat', Nat.mod_eq_of_lt bound]

theorem tryGet_uncompressed (plain : p.meta_.isCompressed = 0) : tryGetUncompressedBytes C p = some p.encoded := by
  rw [tryGetUncompressedBytes, if_pos plain]

theorem tryGet_built (correct : Codec.Correct C) (b : Built C p bytes built)
    (small : (canonicalBytes p.meta_.formatId bytes).length ≤ kMaxDecompressedClipboardBytes) :
    tryGetUncompressedBytes C built = some (canonicalBytes p.meta_.formatId bytes) := by
  rcases b.content with ⟨plain, same⟩ | ⟨packed, frame⟩
  · rw [tryGet_uncompressed plain, same]
  · have size := uncompressedSize_toNat b small
    have compressed : ¬ built.meta_.isCompressed = 0 := by
      rw [packed]
      decide
    simp only [tryGetUncompressedBytes, compressed, if_false, size, not_lt.mpr small,
      correct.sized _ _ frame, correct.unpacks _ _ _ frame le_rfl, ne_eq, not_true_eq_false]

end ClippProof.Clipboard
