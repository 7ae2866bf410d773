import Clipp.Registers.Store
import Clipp.Wire.RegisterList

open Foundation

namespace ClippModel.Wire

open ClippModel.Registers

namespace RegisterWire

def encodeDigestEntry (e : RegisterDigestEntry) : Bytes :=
  bigEndian 2 e.name.length ++ (e.name ++ (e.written.pack ++ e.touched.pack))

def encodeDigest (entries : List RegisterDigestEntry) : Bytes :=
  let count := if entries.length > kMaxDigestEntries then kMaxDigestEntries else entries.length
  [kVersion] ++ (bigEndian 2 count ++ (entries.take count).flatMap encodeDigestEntry)

def digestEntryBody : Reader RegisterDigestEntry := do
  let nameLen ← Reader.int 2
  Reader.check (nameLen ≤ kMaxNameLen)
  let name ← Reader.bytes nameLen
  let written ← readHlc
  let touched ← readHlc
  return { name := name, written := written, touched := touched }

def digestBody : Reader (List RegisterDigestEntry) := do
  let version ← u8
  Reader.check (version = kVersion)
  let count ← Reader.int 2
  Reader.check (count ≤ kMaxDigestEntries)
  Reader.times count digestEntryBody

def tryDecodeDigest (body : Bytes) : Option (List RegisterDigestEntry) := Reader.whole digestBody body

end RegisterWire

end ClippModel.Wire

namespace ClippProof.Wire

open ClippModel.Registers ClippModel.Wire.RegisterWire

variable {entry : RegisterDigestEntry} {digest : List RegisterDigestEntry}

theorem reads_digestEntry (short : entry.name.length ≤ kMaxNameLen) :
    Reader.Reads digestEntryBody (encodeDigestEntry entry) entry := by
  have last := (reads_hlc entry.touched).bind (f := fun touched =>
    (pure ({ name := entry.name, written := entry.written, touched := touched } : RegisterDigestEntry) :
      Reader RegisterDigestEntry)) (.pure _)
  rw [List.append_nil] at last
  exact .capped short (by decide) ((reads_hlc entry.written).bind last)

theorem reads_digest (names : ∀ e ∈ digest, e.name.length ≤ kMaxNameLen) :
    Reader.Reads digestBody (encodeDigest digest) (digest.take kMaxDigestEntries) := by
  have count : (digest.take kMaxDigestEntries).length ≤ kMaxDigestEntries := List.length_take_le ..
  have fits : (digest.take kMaxDigestEntries).length < 256 ^ 2 := count.trans_lt (by decide)
  have each : ∀ e ∈ digest.take kMaxDigestEntries, Reader.Reads digestEntryBody (encodeDigestEntry e) e :=
    fun e member => reads_digestEntry (names e (List.mem_of_mem_take member))
  have shipped : encodeDigest digest = [kVersion] ++ (bigEndian 2 (digest.take kMaxDigestEntries).length ++
      (digest.take kMaxDigestEntries).flatMap encodeDigestEntry) := by
    simp only [encodeDigest, capped_eq, List.length_take, ← List.take_eq_take_min]
  have read : Reader.Reads digestBody _ (digest.take kMaxDigestEntries) :=
    (reads_u8 kVersion).bind ((Reader.Reads.check rfl).bind ((Reader.Reads.int fits).bind
      ((Reader.Reads.check count).bind (Reader.Reads.times each))))
  rwa [shipped]

theorem tryDecodeDigest_encodeDigest (names : ∀ e ∈ digest, e.name.length ≤ kMaxNameLen) :
    tryDecodeDigest (encodeDigest digest) = some (digest.take kMaxDigestEntries) := (reads_digest names).whole

end ClippProof.Wire
