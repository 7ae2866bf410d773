import Clipp.Registers.Store
import Clipp.Wire.Frame
import Clipp.Wire.RegisterWire

open Foundation

namespace ClippModel.Wire

open ClippModel.Registers ClippModel.Wire.CryptoChannel

namespace RegisterWire

def kMaxDigestEntries : Nat := 1024
def kMaxPreviewLen : Nat := 256
def kMaxOriginNameLen : Nat := 128

def kBinaryHeaderVersion : UInt8 := 1
def kBinaryHeaderV1Size : Nat := 8

structure BinaryValueInfo where
  formatId : UInt32
  streamOffset : Nat
  deriving DecidableEq

def encodeBinaryValue (formatId : UInt32) (stream : Bytes) : Bytes :=
  [kBinaryHeaderVersion, 0] ++ bigEndian 2 kBinaryHeaderV1Size ++ bigEndian 4 formatId.toNat ++ stream

/-- The header version is not judged: a newer header only moves the start of the stream. -/
def tryParseBinaryValue (value : Bytes) : Option BinaryValueInfo :=
  if value.length < kBinaryHeaderV1Size then none
  else
    let headerLen := number ((value.drop 2).take 2)
    if headerLen < kBinaryHeaderV1Size ∨ headerLen > value.length then none
    else some { formatId := UInt32.ofNat (number ((value.drop 4).take 4)), streamOffset := headerLen }

def encodeName (name : Bytes) : Bytes := [kVersion] ++ (bigEndian 2 name.length ++ name)

def nameBody : Reader Bytes := do
  let version ← u8
  Reader.check (version = kVersion)
  let nameLen ← Reader.int 2
  Reader.check (nameLen ≤ kMaxNameLen)
  Reader.bytes nameLen

def tryDecodeName (body : Bytes) : Option Bytes := Reader.whole nameBody body

@[ext] structure RegisterListEntry where
  name : Bytes
  touched : Hlc
  valueSize : UInt64
  originHostId : HostId
  flags : UInt8
  preview : Bytes
  originHostName : Bytes
  deriving DecidableEq

def encodeListEntry (e : RegisterListEntry) : Bytes :=
  let previewLen := if e.preview.length > kMaxPreviewLen then kMaxPreviewLen else e.preview.length
  let originNameLen :=
    if e.originHostName.length > kMaxOriginNameLen then kMaxOriginNameLen else e.originHostName.length
  bigEndian 2 e.name.length ++ (e.name ++ (e.touched.pack ++ (bigEndian 8 e.valueSize.toNat ++
    (e.originHostId.bytes ++ ([e.flags] ++ (bigEndian 2 previewLen ++ (e.preview.take previewLen ++
      (bigEndian 2 originNameLen ++ e.originHostName.take originNameLen))))))))

def encodeList (entries : List RegisterListEntry) : Bytes :=
  let count := if entries.length > kMaxDigestEntries then kMaxDigestEntries else entries.length
  [kVersion] ++ (bigEndian 2 count ++ (entries.take count).flatMap encodeListEntry)

def listEntryBody : Reader RegisterListEntry := do
  let nameLen ← Reader.int 2
  Reader.check (nameLen ≤ kMaxNameLen)
  let name ← Reader.bytes nameLen
  let touched ← readHlc
  let valueSize ← Reader.int 8
  let origin ← readHostId
  let flags ← u8
  let previewLen ← Reader.int 2
  Reader.check (previewLen ≤ kMaxPreviewLen)
  let preview ← Reader.bytes previewLen
  let originNameLen ← Reader.int 2
  Reader.check (originNameLen ≤ kMaxOriginNameLen)
  let originHostName ← Reader.bytes originNameLen
  return { name := name, touched := touched, valueSize := UInt64.ofNat valueSize, originHostId := origin,
           flags := flags, preview := preview, originHostName := originHostName }

def listBody : Reader (List RegisterListEntry) := do
  let version ← u8
  Reader.check (version = kVersion)
  let count ← Reader.int 2
  Reader.check (count ≤ kMaxDigestEntries)
  Reader.times count listEntryBody

def tryDecodeList (body : Bytes) : Option (List RegisterListEntry) := Reader.whole listBody body

end RegisterWire

namespace Peer

open RegisterWire

def tagRLST : Bytes := [0x52, 0x4C, 0x53, 0x54]

/-- What the daemon knows of device names: its own identity and the peers it displays. -/
structure DisplayNames where
  localHostId : Option HostId
  localHostName : Bytes
  knownPeers : List (HostId × Bytes)

def resolveOriginName (names : DisplayNames) (origin : HostId) : Bytes :=
  if names.localHostId = some origin then names.localHostName
  else match names.knownPeers.find? (fun peer => peer.1 = origin) with
    | some peer => peer.2
    | none => []

def listPreview (r : RegisterRecord) : Bytes :=
  if r.isPrivate then []
  else if r.isBinary then
    match tryParseBinaryValue r.value with
    | some info => r.value.take (min (min info.streamOffset r.value.length) kMaxPreviewLen)
    | none => []
  else r.value.take (min r.value.length kMaxPreviewLen)

def listEntry (names : DisplayNames) (r : RegisterRecord) : RegisterListEntry where
  name := r.name
  touched := r.touched
  valueSize := UInt64.ofNat r.value.length
  originHostId := r.originHostId
  flags := r.flags
  preview := listPreview r
  originHostName := resolveOriginName names r.originHostId

def listResponse (names : DisplayNames) (s : RegisterStore) (t : Readings) : Bytes :=
  encodeList ((s.list t).result.map (listEntry names))

def answerList (carries : Transport) (names : DisplayNames) (s : RegisterStore) (t : Readings)
    (sent : List Bytes) : RegisterStore × List Bytes :=
  ((s.list t).store, (sendFrame carries sent tagRLST (u32Sized (listResponse names s t)) []).2)

end Peer

end ClippModel.Wire

namespace ClippProof.Wire

open ClippModel.Registers ClippModel.Wire ClippModel.Wire.CryptoChannel ClippModel.Wire.RegisterWire
  ClippModel.Wire.Peer

variable {e : RegisterListEntry} {entries : List RegisterListEntry}

theorem reads_name {name : Bytes} (short : name.length ≤ kMaxNameLen) :
    Reader.Reads nameBody (encodeName name) name := by
  have fits : name.length < 256 ^ 2 := short.trans_lt (by decide)
  exact (reads_u8 kVersion).bind ((Reader.Reads.check rfl).bind
    ((Reader.Reads.int fits).bind ((Reader.Reads.check short).bind (Reader.Reads.bytes name))))

theorem tryDecodeName_encodeName {name : Bytes} (short : name.length ≤ kMaxNameLen) :
    tryDecodeName (encodeName name) = some name := (reads_name short).whole

/-- An entry as the wire carries it: preview and device name cut to their caps. -/
def shipped (e : RegisterListEntry) : RegisterListEntry :=
  { e with preview := e.preview.take kMaxPreviewLen, originHostName := e.originHostName.take kMaxOriginNameLen }

theorem capped_eq (n cap : Nat) : (if n > cap then cap else n) = min cap n := by
  split_ifs with large
  · exact (min_eq_left large.le).symm
  · exact (min_eq_right (not_lt.mp large)).symm

theorem take_capped (field : Bytes) (cap : Nat) : field.take (min cap field.length) = field.take cap :=
  List.take_eq_take_min.symm

theorem encodeListEntry_eq (e : RegisterListEntry) :
    encodeListEntry e = bigEndian 2 e.name.length ++ (e.name ++ (e.touched.pack ++ (bigEndian 8 e.valueSize.toNat ++
      (e.originHostId.bytes ++ ([e.flags] ++ (bigEndian 2 (e.preview.take kMaxPreviewLen).length ++
        (e.preview.take kMaxPreviewLen ++ (bigEndian 2 (e.originHostName.take kMaxOriginNameLen).length ++
          e.originHostName.take kMaxOriginNameLen)))))))) := by
  simp only [encodeListEntry, capped_eq, take_capped, List.length_take]

theorem encodeListEntry_shipped (e : RegisterListEntry) : encodeListEntry (shipped e) = encodeListEntry e := by
  simp only [encodeListEntry_eq, shipped, List.take_take, min_self]

theorem reads_listEntry (name : e.name.length ≤ kMaxNameLen) :
    Reader.Reads listEntryBody (encodeListEntry e) (shipped e) := by
  have sizeFits : e.valueSize.toNat < 256 ^ 8 := e.valueSize.toNat_lt
  have sizeKept : UInt64.ofNat e.valueSize.toNat = e.valueSize := UInt64.ofNat_toNat
  have read : Reader.Reads listEntryBody _ { shipped e with valueSize := UInt64.ofNat e.valueSize.toNat } :=
    .capped name (by decide) ((reads_hlc e.touched).bind ((Reader.Reads.int sizeFits).bind
      ((reads_hostId e.originHostId).bind ((reads_u8 e.flags).bind
        (.capped (List.length_take_le kMaxPreviewLen e.preview) (by decide)
          (.capped (List.length_take_le kMaxOriginNameLen e.originHostName) (by decide) (.pure _)))))))
  rw [sizeKept, List.append_nil] at read
  rw [encodeListEntry_eq]
  exact read

theorem encodeList_eq (entries : List RegisterListEntry) :
    encodeList entries = [kVersion] ++ (bigEndian 2 (entries.take kMaxDigestEntries).length ++
      (entries.take kMaxDigestEntries).flatMap encodeListEntry) := by
  simp only [encodeList, capped_eq, List.length_take, ← List.take_eq_take_min]

theorem reads_list (names : ∀ e ∈ entries, e.name.length ≤ kMaxNameLen) :
    Reader.Reads listBody (encodeList entries) ((entries.take kMaxDigestEntries).map shipped) := by
  let kept := entries.take kMaxDigestEntries
  have count : (kept.map shipped).length ≤ kMaxDigestEntries := by
    rw [List.length_map]
    exact List.length_take_le _ _
  have each : ∀ e ∈ kept.map shipped, Reader.Reads listEntryBody (encodeListEntry e) e := by
    intro e member
    obtain ⟨original, kept, rfl⟩ := List.mem_map.mp member
    have read := reads_listEntry (names original (List.mem_of_mem_take kept))
    rwa [← encodeListEntry_shipped] at read
  have encoding : (kept.map shipped).flatMap encodeListEntry = kept.flatMap encodeListEntry := by
    simp only [List.flatMap_map, encodeListEntry_shipped]
  have fits : (kept.map shipped).length < 256 ^ 2 := count.trans_lt (by decide)
  have read : Reader.Reads listBody _ (kept.map shipped) :=
    (reads_u8 kVersion).bind ((Reader.Reads.check rfl).bind ((Reader.Reads.int fits).bind
      ((Reader.Reads.check count).bind (Reader.Reads.times each))))
  rw [encoding, List.length_map] at read
  rwa [encodeList_eq]

/-- A list response decodes to the first entries only, as many as the cap lets through. -/
theorem tryDecodeList_encodeList (names : ∀ e ∈ entries, e.name.length ≤ kMaxNameLen) :
    tryDecodeList (encodeList entries) = some ((entries.take kMaxDigestEntries).map shipped) :=
  (reads_list names).whole

end ClippProof.Wire
