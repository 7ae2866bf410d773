import Clipp.Foundation.KeyedMap
import Clipp.Registers.Name
import Clipp.Registers.Record

open Foundation

namespace ClippModel.Registers

inductive WriteResult where
  | ok
  | invalidName
  | valueTooLarge
  | capExceeded
  deriving DecidableEq, Repr

inductive DeleteResult where
  | deleted
  | notFound
  deriving DecidableEq, Repr

abbrev RecordMap := KeyedMap RegisterRecord.name

structure RegisterStore where
  clock : HlcClock
  records : RecordMap
  localHost : HostId
  ttlMs : UInt64
  maxCount : Nat
  maxValueBytes : Nat
  deriving DecidableEq

/-- One call can read the clock up to three times: to judge expiry, to judge it again over the
    surviving records, and to mint a stamp. The readings are independent. -/
structure Readings where
  expiry : UInt64
  recheck : UInt64
  mint : UInt64
  deriving DecidableEq, Repr

def Readings.all (now : UInt64) : Readings := { expiry := now, recheck := now, mint := now }

structure Call (α : Type) where
  result : α
  store : RegisterStore
  notified : Bool

namespace RegisterStore

def kDefaultTtlMs : UInt64 := 90 * 24 * 60 * 60 * 1000
def kDefaultMaxCount : Nat := 1024
def kDefaultMaxValueBytes : Nat := 64 * 1024 * 1024

def create (localHost : HostId) (ttlMs : UInt64) (maxCount maxValueBytes : Nat) : RegisterStore where
  clock := {}
  records := .empty
  localHost := localHost
  ttlMs := ttlMs
  maxCount := maxCount
  maxValueBytes := maxValueBytes

def setLocalHost (s : RegisterStore) (host : HostId) : RegisterStore := { s with localHost := host }

def setLimits (s : RegisterStore) (ttlMs : UInt64) (maxCount maxValueBytes : Nat) : RegisterStore :=
  { s with ttlMs := ttlMs, maxCount := maxCount, maxValueBytes := maxValueBytes }

def seedClockFloor (s : RegisterStore) (floor : Hlc) : RegisterStore :=
  { s with clock := s.clock.seedFloor floor }

def clockHighWater (s : RegisterStore) : Hlc := s.clock.highWater

def pruneExpiredLocked (s : RegisterStore) (now : UInt64) : RegisterStore :=
  { s with records := s.records.filter (fun r => !isExpired r now s.ttlMs) }

def liveCountLocked (s : RegisterStore) (now : UInt64) : Nat :=
  s.records.entries.countP
    (fun r => !r.name.isEmpty && (!r.isTombstone && !isExpired r now s.ttlMs))

def liveCount (s : RegisterStore) (now : UInt64) : Nat := s.liveCountLocked now

def currentlyLiveValue (s : RegisterStore) (name : Bytes) : Bool :=
  match s.records.find name with
  | some r => !r.isTombstone
  | none => false

/-- The record a successful write stores; the tombstone bit is never a caller's flag. -/
def writtenRecord (name value : Bytes) (valueFlags : UInt8) (origin : HostId) (ts : Hlc) :
    RegisterRecord where
  name := name
  value := value
  written := ts
  touched := ts
  originHostId := origin
  flags := valueFlags &&& ~~~RegisterFlags.tombstone

def upsertLocked (s : RegisterStore) (t : Readings) (name value : Bytes) (valueFlags : UInt8)
    (origin : HostId) : WriteResult × RegisterStore :=
  if !isValidRegisterName name then (.invalidName, s)
  else if value.length > s.maxValueBytes then (.valueTooLarge, s)
  else
    let pruned := s.pruneExpiredLocked t.expiry
    if !pruned.currentlyLiveValue name ∧ pruned.liveCountLocked t.recheck ≥ pruned.maxCount then
      (.capExceeded, pruned)
    else
      let (ts, clock) := pruned.clock.now t.mint
      (.ok, { pruned with
        clock := clock
        records := pruned.records.put (writtenRecord name value valueFlags origin ts) })

def upsertWithFlags (s : RegisterStore) (t : Readings) (name value : Bytes) (valueFlags : UInt8)
    (origin : HostId) : Call WriteResult :=
  let (result, after) := s.upsertLocked t name value valueFlags origin
  { result := result, store := after, notified := result = .ok }

def upsertFrom (s : RegisterStore) (t : Readings) (name value : Bytes) (isPrivate : Bool)
    (origin : HostId) : Call WriteResult :=
  s.upsertWithFlags t name value (if isPrivate then RegisterFlags.private_ else 0) origin

def upsert (s : RegisterStore) (t : Readings) (name value : Bytes) (isPrivate : Bool) :
    Call WriteResult :=
  s.upsertFrom t name value isPrivate s.localHost

def read (s : RegisterStore) (t : Readings) (name : Bytes) : Call (Option RegisterRecord) :=
  match s.records.find name with
  | none => { result := none, store := s, notified := false }
  | some r =>
    if isExpired r t.expiry s.ttlMs then
      { result := none, store := { s with records := s.records.erase name }, notified := false }
    else if r.isTombstone then { result := none, store := s, notified := false }
    else
      let (ts, clock) := s.clock.now t.mint
      let touched : RegisterRecord := { r with touched := ts }
      { result := some touched
        store := { s with clock := clock, records := s.records.put touched }
        notified := true }

def tombstoneRecord (r : RegisterRecord) (origin : HostId) (ts : Hlc) : RegisterRecord where
  name := r.name
  value := []
  written := ts
  touched := ts
  originHostId := origin
  flags := RegisterFlags.tombstone

def deleteLocked (s : RegisterStore) (t : Readings) (name : Bytes) (origin : HostId) :
    DeleteResult × RegisterStore :=
  match s.records.find name with
  | none => (.notFound, s)
  | some r =>
    if isExpired r t.expiry s.ttlMs then (.notFound, { s with records := s.records.erase name })
    else if r.isTombstone then (.notFound, s)
    else
      let (ts, clock) := s.clock.now t.mint
      (.deleted, { s with
        clock := clock
        records := s.records.put (tombstoneRecord r origin ts) })

def deleteFrom (s : RegisterStore) (t : Readings) (name : Bytes) (origin : HostId) :
    Call DeleteResult :=
  let (result, after) := s.deleteLocked t name origin
  { result := result, store := after, notified := result = .deleted }

def delete (s : RegisterStore) (t : Readings) (name : Bytes) : Call DeleteResult :=
  s.deleteFrom t name s.localHost

/-- The observational mirror of the clipboard under the reserved empty name. -/
def mirrorDefault (s : RegisterStore) (t : Readings) (value : Bytes) : RegisterStore :=
  let (ts, clock) := s.clock.now t.mint
  { s with
    clock := clock
    records := s.records.put
      { name := [], value := value, written := ts, touched := ts, originHostId := s.localHost, flags := 0 } }

def list (s : RegisterStore) (t : Readings) : Call (List RegisterRecord) :=
  let pruned := s.pruneExpiredLocked t.expiry
  { result := pruned.records.entries.filter
      (fun r => !r.isTombstone && !isExpired r t.recheck s.ttlMs)
    store := pruned
    notified := false }

def listNames (s : RegisterStore) (t : Readings) : Call (List Bytes) :=
  let listed := s.list t
  { result := listed.result.map RegisterRecord.name, store := listed.store, notified := false }

def replicated (s : RegisterStore) : List RegisterRecord :=
  s.records.entries.filter (fun r => !r.name.isEmpty)

def digestEntry (r : RegisterRecord) : RegisterDigestEntry where
  name := r.name
  written := r.written
  touched := r.touched

def digest (s : RegisterStore) (now : UInt64) : Call (List RegisterDigestEntry) :=
  let pruned := s.pruneExpiredLocked now
  { result := pruned.replicated.map digestEntry, store := pruned, notified := false }

def snapshotForSync (s : RegisterStore) (now : UInt64) : Call (List RegisterRecord) :=
  let pruned := s.pruneExpiredLocked now
  { result := pruned.replicated, store := pruned, notified := false }

def getForBroadcast (s : RegisterStore) (now : UInt64) (name : Bytes) : Call (Option RegisterRecord) :=
  match s.records.find name with
  | none => { result := none, store := s, notified := false }
  | some r =>
    if isExpired r now s.ttlMs then
      { result := none, store := { s with records := s.records.erase name }, notified := false }
    else { result := some r, store := s, notified := false }

/-- The first entry of a name wins, as `emplace` keeps it. -/
def remoteEntry (remoteDigest : List RegisterDigestEntry) (name : Bytes) : Option RegisterDigestEntry :=
  remoteDigest.find? (fun e => e.name = name)

def shouldPush (remoteDigest : List RegisterDigestEntry) (r : RegisterRecord) : Bool :=
  match remoteEntry remoteDigest r.name with
  | none => true
  | some their =>
    r.written > their.written ∨ (r.written = their.written ∧ r.touched > their.touched)

def recordsToPush (s : RegisterStore) (now : UInt64) (remoteDigest : List RegisterDigestEntry) :
    Call (List RegisterRecord) :=
  let pruned := s.pruneExpiredLocked now
  { result := pruned.replicated.filter (shouldPush remoteDigest), store := pruned, notified := false }

def planPush (s : RegisterStore) (now : UInt64) (remoteDigest : List RegisterDigestEntry) :
    Call (List Bytes) :=
  let pushed := s.recordsToPush now remoteDigest
  { result := pushed.result.map RegisterRecord.name, store := pushed.store, notified := false }

def applyRemoteLocked (s : RegisterStore) (now : UInt64) (incoming : RegisterRecord) :
    Bool × RegisterStore :=
  if incoming.name.isEmpty then (false, s)
  else
    let witnessed : RegisterStore :=
      { s with clock := (s.clock.witness incoming.written).witness incoming.touched }
    if isExpired incoming now s.ttlMs then (false, witnessed)
    else match s.records.find incoming.name with
      | none => (true, { witnessed with records := s.records.put incoming })
      | some resident =>
        if isExpired resident now s.ttlMs then
          (true, { witnessed with records := s.records.put incoming })
        else
          -- neither an older write nor an older touch than the resident's notifies anyone
          let merged := mergeRecords resident incoming
          if merged = resident then (false, witnessed)
          else (true, { witnessed with records := s.records.put merged })

def applyRemote (s : RegisterStore) (now : UInt64) (incoming : RegisterRecord) : Call Bool :=
  let (changed, after) := s.applyRemoteLocked now incoming
  { result := changed, store := after, notified := changed }

end RegisterStore

end ClippModel.Registers
