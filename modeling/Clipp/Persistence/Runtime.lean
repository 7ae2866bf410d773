import Clipp.Persistence.RegisterPersistence
import Clipp.Registers.History

open Foundation

namespace ClippModel.Persistence

open ClippModel.Registers ClippModel.Wire SealedSnapshot

structure Target where
  path : Bytes
  key : SealKey
  deriving DecidableEq

def zeroKey : SealKey := repeatedByte kSealKeyBytes 0

structure SavedFile where
  key : SealKey
  records : List RegisterRecord
  deriving DecidableEq

def readBack (records : List RegisterRecord) : Option (List RegisterRecord) :=
  if records.length ≤ kMaxRecords then
    some (records.filter (fun r => r.name.length ≤ RegisterWire.kMaxNameLen ∧
      r.value.length ≤ RegisterWire.kMaxValueLen ∧ r.name ≠ []))
  else none

def SavedFile.load (file : SavedFile) (key : SealKey) : Option (List RegisterRecord) :=
  if file.key = key then readBack file.records else none

/-- Where the writer thread is. `saving` has left the lock with its copies of path and key and
    waits for the save mutex, `writing` holds that mutex with its snapshot taken; `last` marks the
    final flush. -/
inductive WriterPc where
  | absent
  | waiting
  | debouncing
  | saving (target : Target) (last : Bool)
  | writing (target : Target) (records : List RegisterRecord) (last : Bool)
  | returning
  deriving DecidableEq

/-- Where the thread that makes the lifecycle calls is; `starting` tells a load made by
    `StartRegisterPersistence` from one made by `RegisterPersistenceKeyChanged`. -/
inductive ControlPc where
  | idle
  | resolving
  | publishing (target : Target)
  | loading (target : Target) (starting : Bool)
  | applying (remaining : List RegisterRecord) (notifying starting : Bool)
  | launching
  | capturing
  | flushing (old : Target)
  | flushWriting (old : Target) (records : List RegisterRecord)
  | rekeying (hadKey : Bool) (oldPath : Bytes)
  | swapping (hadKey : Bool) (oldPath : Bytes) (resolved : Option Target)
  | stopping
  | joining
  deriving DecidableEq

/-- The globals of the runtime, its threads, the store, and the register files by path.
    `pending` counts store changes whose listener call is still to come. -/
structure Runtime where
  running : Bool := false
  stop : Bool := false
  dirty : Bool := false
  haveKey : Bool := false
  listenerArmed : Bool := false
  filePath : Bytes := []
  sealKey : SealKey := zeroKey
  writer : WriterPc := .absent
  control : ControlPc := .idle
  pending : Nat := 0
  store : RegisterStore
  disk : Bytes → Option SavedFile

inductive RuntimeLabel where
  | start
  | keyChanged
  | stop
  | resolve (result : Option Target)
  | publish
  | read (failed : Bool)
  | apply (now : UInt64)
  | notifyApplied
  | loaded
  | launch
  | capture
  | flushSnapshot (now : UInt64)
  | flushWrite (succeeded : Bool)
  | swap
  | halt
  | join
  | wake
  | debounced
  | saveSnapshot (now : UInt64)
  | saveWrite (succeeded : Bool)
  | relock
  | mutate (op : StoreOp)
  | observe (now : UInt64)
  | notify
  deriving DecidableEq

namespace Runtime

def boot (store : RegisterStore) (disk : Bytes → Option SavedFile) : Runtime := { store := store, disk := disk }

def target (m : Runtime) : Target := { path := m.filePath, key := m.sealKey }

def saveMutexFree (m : Runtime) : Bool :=
  match m.writer, m.control with
  | .writing _ _ _, _ => false
  | _, .flushWriting _ _ => false
  | _, _ => true

def setFile (m : Runtime) (path : Bytes) (file : Option SavedFile) : Runtime :=
  { m with disk := Function.update m.disk path file }

/-- The disk after a save. A failed one leaves the file as it was. -/
def saved (m : Runtime) (target : Target) (records : List RegisterRecord) (succeeded : Bool) :
    Bytes → Option SavedFile :=
  if succeeded then Function.update m.disk target.path (some { key := target.key, records := records })
  else m.disk

def leaveLoop (m : Runtime) : Runtime :=
  if m.dirty && m.haveKey then { m with writer := .saving m.target true } else { m with writer := .absent }

/-- The loop condition and, when it holds, the predicate of the wait. -/
def loopTop (m : Runtime) : Runtime :=
  if m.stop then m.leaveLoop
  else if m.dirty then { m with writer := .debouncing }
  else { m with writer := .waiting }

def callListeners (m : Runtime) : Runtime := { m with dirty := m.dirty || m.listenerArmed }

/-- The lock region of `RegisterPersistenceKeyChanged` that puts the resolution into effect. -/
def swapTarget (m : Runtime) (hadKey : Bool) (oldPath : Bytes) : Option Target → Runtime
  | some target =>
    { m with
      haveKey := true, filePath := target.path, sealKey := target.key, dirty := true
      control := if !hadKey || target.path ≠ oldPath then .loading target false else .idle }
  | none =>
    { m with haveKey := false, filePath := [], sealKey := zeroKey, dirty := false, control := .idle }

def readFile (m : Runtime) (target : Target) (starting failed : Bool) : Runtime :=
  match m.disk target.path with
  | none => { m with control := .applying [] false starting }
  | some file =>
    match if failed then none else file.load target.key with
    -- an unreadable file is moved aside
    | none => { m.setFile target.path none with control := .applying [] false starting }
    | some records => { m with control := .applying records false starting }

def step (m : Runtime) : RuntimeLabel → Option Runtime
  | .start =>
    match m.control with
    | .idle => some (if m.running then m else { m with control := .resolving })
    | _ => none
  | .keyChanged =>
    match m.control with
    | .idle => some (if m.running then { m with control := .capturing } else m)
    | _ => none
  | .stop =>
    match m.control with
    | .idle => some (if m.running then { m with control := .stopping } else m)
    | _ => none
  | .resolve result =>
    match m.control with
    | .resolving =>
      match result with
      | some target => some { m with control := .publishing target }
      -- a start without a key leaves the globals of an earlier session as they are
      | none => some { m with control := .launching }
    | .rekeying hadKey oldPath => some { m with control := .swapping hadKey oldPath result }
    | _ => none
  | .publish =>
    match m.control with
    | .publishing target =>
      some { m with
        haveKey := true, filePath := target.path, sealKey := target.key, control := .loading target true }
    | _ => none
  | .read failed =>
    match m.control with
    | .loading target starting => some (m.readFile target starting failed)
    | _ => none
  | .apply now =>
    match m.control with
    | .applying (r :: rest) false starting =>
      let call := m.store.applyRemote now r
      some { m with store := call.store, control := .applying rest call.notified starting }
    | _ => none
  | .notifyApplied =>
    match m.control with
    | .applying rest true starting => some { m.callListeners with control := .applying rest false starting }
    | _ => none
  | .loaded =>
    match m.control with
    | .applying [] false starting => some { m with control := if starting then .launching else .idle }
    | _ => none
  | .launch =>
    match m.control with
    | .launching =>
      some { m with
        listenerArmed := true, running := true, stop := false, writer := .waiting, control := .idle }
    | _ => none
  | .capture =>
    match m.control with
    | .capturing =>
      some { m with control := if m.haveKey then .flushing m.target else .rekeying false m.filePath }
    | _ => none
  | .flushSnapshot now =>
    match m.control with
    | .flushing old =>
      if m.saveMutexFree then
        let call := m.store.snapshotForSync now
        some { m with store := call.store, control := .flushWriting old call.result }
      else none
    | _ => none
  | .flushWrite succeeded =>
    match m.control with
    | .flushWriting old records =>
      some { m with disk := m.saved old records succeeded, control := .rekeying true old.path }
    | _ => none
  | .swap =>
    match m.control with
    | .swapping hadKey oldPath resolved => some (m.swapTarget hadKey oldPath resolved)
    | _ => none
  | .halt =>
    match m.control with
    | .stopping => some { m with stop := true, control := .joining }
    | _ => none
  | .join =>
    match m.control, m.writer with
    -- the key is wiped, but not the path nor the flag that says there is one
    | .joining, .absent => some { m with running := false, sealKey := zeroKey, control := .idle }
    | _, _ => none
  | .wake =>
    match m.writer with
    | .waiting =>
      if m.stop then some m.leaveLoop
      else if m.dirty then some { m with writer := .debouncing }
      else none
    | _ => none
  | .debounced =>
    match m.writer with
    | .debouncing =>
      -- the mark is cleared before the write, and whatever the write returns
      if m.haveKey then some { m with dirty := false, writer := .saving m.target false }
      else some ({ m with dirty := false } : Runtime).loopTop
    | _ => none
  | .saveSnapshot now =>
    match m.writer with
    | .saving target last =>
      if m.saveMutexFree then
        let call := m.store.snapshotForSync now
        some { m with store := call.store, writer := .writing target call.result last }
      else none
    | _ => none
  | .saveWrite succeeded =>
    match m.writer with
    | .writing target records last =>
      some { m with
        disk := m.saved target records succeeded
        writer := if last then .absent else .returning }
    | _ => none
  | .relock =>
    match m.writer with
    | .returning => some m.loopTop
    | _ => none
  | .mutate op =>
    some { m with
      store := perform m.store op
      pending := if notifies m.store op then m.pending + 1 else m.pending }
  | .observe now => some { m with store := m.store.pruneExpiredLocked now }
  | .notify => if m.pending = 0 then none else some { m.callListeners with pending := m.pending - 1 }

end Runtime

end ClippModel.Persistence
