import Clipp.Persistence.SealedSnapshot
import Clipp.Registers.Store
import Clipp.Wire.RegisterWire

open Foundation

namespace ClippModel.Persistence

open ClippModel.Registers ClippModel.Wire SealedSnapshot

namespace RegisterPersistence

def kMagic : Magic := ⟨[0x43, 0x4C, 0x50, 0x52], rfl⟩
def kVersion : UInt8 := 1

def encodeRecords (records : List RegisterRecord) : List Bytes :=
  records.map (fun r => RegisterWire.encodeRecord r 0)

/-- Undecodable and mirror-named records are skipped. -/
def decodeRecords (raw : List Bytes) : List RegisterRecord :=
  raw.filterMap (fun body =>
    match RegisterWire.tryDecodeRecord body with
    | none => none
    | some (record, _) => if record.name.isEmpty then none else some record)

def sealSnapshot (A : Aead) (nonce : Nonce) (records : List RegisterRecord) (key : SealKey) : Bytes :=
  seal_ A nonce kMagic kVersion (encodeRecords records) key

def tryOpenSnapshot (A : Aead) (blob : Bytes) (key : SealKey) (outRecords : List RegisterRecord) :
    Bool × List RegisterRecord :=
  match tryOpen A kMagic kVersion blob key [] with
  | (false, _) => (false, outRecords)
  | (true, raw) => (true, decodeRecords raw)

def loadSnapshotFile (A : Aead) (longMax : Nat) (faults : LoadFaults) (disk : Disk) (path : Bytes)
    (key : SealKey) (outRecords : List RegisterRecord) : LoadResult × List RegisterRecord × Disk :=
  match loadFile A longMax faults disk path kMagic kVersion key [] with
  | (.loaded, raw, after) => (.loaded, decodeRecords raw, after)
  | (failed, _, after) => (failed, outRecords, after)

def applyAll (s : RegisterStore) (now : UInt64) (records : List RegisterRecord) : RegisterStore :=
  records.foldl (fun s r => (s.applyRemote now r).store) s

end RegisterPersistence

end ClippModel.Persistence
