import Clipp.Foundation.ByteReader
import Clipp.Registers.Record

open Foundation

namespace ClippModel.Wire

open ClippModel.Registers

namespace RegisterWire

def kVersion : UInt8 := 1
def kMaxNameLen : Nat := 64
def kMaxValueLen : Nat := 64 * 1024 * 1024

/-- Lengths wrap to the width of their field. -/
def encodeRecord (record : RegisterRecord) (transportFlags : UInt8) : Bytes :=
  [kVersion] ++ ([record.flags] ++ ([transportFlags] ++ ([0] ++
    (record.written.pack ++ (record.touched.pack ++ (record.originHostId.bytes ++
      (bigEndian 2 record.name.length ++ (record.name ++
        (bigEndian 4 record.value.length ++ record.value)))))))))

def u8 : Reader UInt8 := fun input =>
  match input with
  | [] => none
  | b :: rest => some (b, rest)

def readHlc : Reader Hlc := do
  let packed ← Reader.bytes 16
  return Hlc.unpack packed

def readHostId : Reader HostId := fun input =>
  if size : HostId.kSize ≤ input.length then
    some (⟨input.take HostId.kSize, List.length_take_of_le size⟩, input.drop HostId.kSize)
  else none

def recordBody : Reader (RegisterRecord × UInt8) := do
  let version ← u8
  Reader.check (version = kVersion)
  let recordFlags ← u8
  let transport ← u8
  let _reserved ← u8
  let written ← readHlc
  let touched ← readHlc
  let origin ← readHostId
  let nameLen ← Reader.int 2
  Reader.check (nameLen ≤ kMaxNameLen)
  let name ← Reader.bytes nameLen
  let valueLen ← Reader.int 4
  Reader.check (valueLen ≤ kMaxValueLen)
  let value ← Reader.bytes valueLen
  return ({ name := name, value := value, written := written, touched := touched,
            originHostId := origin, flags := recordFlags }, transport)

/-- Trailing bytes are refused. -/
def tryDecodeRecord (body : Bytes) : Option (RegisterRecord × UInt8) := Reader.whole recordBody body

end RegisterWire

end ClippModel.Wire

namespace ClippProof.Wire

open ClippModel.Registers ClippModel.Wire ClippModel.Wire.RegisterWire

variable {r : RegisterRecord} {transport : UInt8} {body : Bytes}

def WithinCaps (r : RegisterRecord) : Prop :=
  r.name.length ≤ kMaxNameLen ∧ r.value.length ≤ kMaxValueLen

instance (r : RegisterRecord) : Decidable (WithinCaps r) := inferInstanceAs (Decidable (_ ∧ _))

theorem reads_u8 (b : UInt8) : Reader.Reads u8 [b] b := fun _ => rfl

theorem reads_hlc (h : Hlc) : Reader.Reads readHlc h.pack h := by
  have packed : Reader.Reads (Reader.bytes 16) h.pack h.pack := by
    rw [← Hlc.pack_length h]
    exact .bytes _
  have unpacked := packed.bind (f := fun packed => (pure (Hlc.unpack packed) : Reader Hlc)) (.pure _)
  rwa [List.append_nil, Hlc.unpack_pack] at unpacked

theorem reads_hostId (host : HostId) : Reader.Reads readHostId host.bytes host := by
  intro rest
  have size : HostId.kSize ≤ (host.bytes ++ rest).length := by
    rw [List.length_append, host.size]
    exact Nat.le_add_right _ _
  simp only [readHostId, size, dif_pos, Option.some.injEq, Prod.mk.injEq]
  exact ⟨HostId.ext (List.take_left' host.size), List.drop_left' host.size⟩

theorem reads_record (caps : WithinCaps r) (transport : UInt8) :
    Reader.Reads recordBody (encodeRecord r transport) (r, transport) := by
  have fits : kMaxValueLen < 256 ^ 4 := by decide
  have value := Reader.Reads.capped caps.2 fits (f := fun value =>
    (pure (({ name := r.name, value := value, written := r.written, touched := r.touched,
              originHostId := r.originHostId, flags := r.flags } : RegisterRecord), transport) :
      Reader (RegisterRecord × UInt8))) (.pure _)
  rw [List.append_nil] at value
  exact (reads_u8 kVersion).bind ((Reader.Reads.check rfl).bind ((reads_u8 r.flags).bind
    ((reads_u8 transport).bind ((reads_u8 0).bind ((reads_hlc r.written).bind ((reads_hlc r.touched).bind
      ((reads_hostId r.originHostId).bind (.capped caps.1 (by decide) value))))))))

theorem tryDecodeRecord_encodeRecord (caps : WithinCaps r) (transport : UInt8) :
    tryDecodeRecord (encodeRecord r transport) = some (r, transport) := (reads_record caps transport).whole

theorem tryDecodeRecord_withinCaps (decoded : tryDecodeRecord body = some (r, transport)) : WithinCaps r := by
  have read := Reader.whole_eq_some.mp decoded
  obtain ⟨_, _, _, read⟩ := Reader.bind_eq_some.mp read
  obtain ⟨_, _, _, read⟩ := Reader.bind_eq_some.mp read
  obtain ⟨_, _, _, read⟩ := Reader.bind_eq_some.mp read
  obtain ⟨_, _, _, read⟩ := Reader.bind_eq_some.mp read
  obtain ⟨_, _, _, read⟩ := Reader.bind_eq_some.mp read
  obtain ⟨_, _, _, read⟩ := Reader.bind_eq_some.mp read
  obtain ⟨_, _, _, read⟩ := Reader.bind_eq_some.mp read
  obtain ⟨_, _, _, read⟩ := Reader.bind_eq_some.mp read
  obtain ⟨name, _, nameShort, read⟩ := Reader.capped_field read
  obtain ⟨value, _, valueShort, result⟩ := Reader.capped_field read
  obtain ⟨same, _⟩ := Reader.pure_eq_some.mp result
  cases same
  exact ⟨nameShort, valueShort⟩

theorem encodeRecord_nonempty (r : RegisterRecord) (transport : UInt8) : encodeRecord r transport ≠ [] := by
  simp [encodeRecord]

theorem encodeRecord_length (r : RegisterRecord) (transport : UInt8) :
    (encodeRecord r transport).length = 58 + r.name.length + r.value.length := by
  simp only [encodeRecord, List.length_append, List.length_singleton, Hlc.pack_length, bigEndian_length,
    r.originHostId.size, HostId.kSize]
  omega

end ClippProof.Wire
