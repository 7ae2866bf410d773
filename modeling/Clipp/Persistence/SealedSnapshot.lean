import Clipp.Foundation.Aead
import Clipp.Foundation.ByteReader
import Mathlib.Logic.Function.Basic

open Foundation

namespace ClippModel.Persistence

abbrev Sized (n : Nat) := { b : Bytes // b.length = n }

namespace SealedSnapshot

def kMagicSize : Nat := 4
def kHeaderSize : Nat := kMagicSize + 1
def kNonceSize : Nat := 24
def kTagSize : Nat := 16
def kSealKeyBytes : Nat := 32
def kMaxRecords : Nat := 65535

abbrev SealKey := Sized kSealKeyBytes
abbrev Magic := Sized kMagicSize
abbrev Nonce := Sized kNonceSize

def repeatedByte (n : Nat) (b : UInt8) : Sized n := ⟨List.replicate n b, List.length_replicate⟩

def header (magic : Magic) (version : UInt8) : Bytes := magic.val ++ [version]

def sealedRecords (records : List Bytes) : List Bytes := records.filter (fun r => !r.isEmpty)

def frameRecord (record : Bytes) : Bytes := bigEndian 4 record.length ++ record

def plaintext (records : List Bytes) : Bytes :=
  let kept := sealedRecords records
  bigEndian 4 kept.length ++ kept.flatMap frameRecord

def seal_ (A : Aead) (nonce : Nonce) (magic : Magic) (version : UInt8) (records : List Bytes)
    (key : SealKey) : Bytes :=
  header magic version ++ (nonce.val ++
    A.encrypt key.val nonce.val (header magic version) (plaintext records))

def readRecord : Reader Bytes := do
  let len ← Reader.int 4
  Reader.bytes len

def readRecords : Reader (List Bytes) := do
  let count ← Reader.int 4
  Reader.check (count ≤ kMaxRecords)
  Reader.times count readRecord

def tryOpen (A : Aead) (magic : Magic) (version : UInt8) (blob : Bytes) (key : SealKey)
    (outRecords : List Bytes) : Bool × List Bytes :=
  if blob.length < kHeaderSize + kNonceSize + kTagSize then (false, outRecords)
  else if blob.take kMagicSize ≠ magic.val ∨ blob[kMagicSize]? ≠ some version then (false, outRecords)
  else
    let nonce := (blob.drop kHeaderSize).take kNonceSize
    let cipher := blob.drop (kHeaderSize + kNonceSize)
    match A.decrypt key.val nonce (blob.take kHeaderSize) cipher with
    | none => (false, outRecords)
    | some plain =>
      match Reader.whole readRecords plain with
      | none => (false, outRecords)
      | some records => (true, records)

abbrev Disk := Bytes → Option Bytes

def Disk.set (disk : Disk) (path : Bytes) (content : Option Bytes) : Disk :=
  Function.update disk path content

def tempPath (path : Bytes) : Bytes := path ++ [0x2E, 0x74, 0x6D, 0x70]
def carcassPath (path : Bytes) : Bytes := path ++ [0x2E, 0x63, 0x6F, 0x72, 0x72, 0x75, 0x70, 0x74]

/-- Which file operations of one save fail; a failed write leaves a prefix behind. -/
structure SaveFaults where
  opening : Bool := false
  writing : Option Nat := none
  moving : Bool := false
  removing : Bool := false
  deriving DecidableEq

def discard (faults : SaveFaults) (disk : Disk) (temp : Bytes) : Disk :=
  if faults.removing then disk else disk.set temp none

def saveFile (A : Aead) (nonce : Nonce) (faults : SaveFaults) (disk : Disk) (path : Bytes)
    (magic : Magic) (version : UInt8) (records : List Bytes) (key : SealKey) : Bool × Disk :=
  let blob := seal_ A nonce magic version records key
  let temp := tempPath path
  if blob.isEmpty then (false, disk)
  else if faults.opening then (false, disk)
  else match faults.writing with
    | some written => (false, discard faults (disk.set temp (some (blob.take written))) temp)
    | none =>
      let staged := disk.set temp (some blob)
      if faults.moving then (false, discard faults staged temp)
      else (true, (staged.set path (some blob)).set temp none)

inductive LoadResult where
  | loaded
  | noFile
  | corrupt
  deriving DecidableEq, Repr

structure LoadFaults where
  existing : Bool := false
  opening : Bool := false
  reading : Bool := false
  removing : Bool := false
  moving : Bool := false
  deriving DecidableEq

def quarantine (faults : LoadFaults) (disk : Disk) (path : Bytes) : Disk :=
  let cleared := if faults.removing then disk else disk.set (carcassPath path) none
  if faults.moving then cleared else (cleared.set (carcassPath path) (disk path)).set path none

/-- `longMax` is the largest file size that `ftell` can return in a `long`. -/
def loadFile (A : Aead) (longMax : Nat) (faults : LoadFaults) (disk : Disk) (path : Bytes)
    (magic : Magic) (version : UInt8) (key : SealKey) (outRecords : List Bytes) :
    LoadResult × List Bytes × Disk :=
  match if faults.existing then none else disk path with
  | none => (.noFile, outRecords, disk)
  | some blob =>
    if faults.opening ∨ faults.reading ∨ longMax < blob.length then
      (.corrupt, outRecords, quarantine faults disk path)
    else match tryOpen A magic version blob key outRecords with
      | (false, kept) => (.corrupt, kept, quarantine faults disk path)
      | (true, records) => (.loaded, records, disk)

end SealedSnapshot

end ClippModel.Persistence
