import Clipp.Clipboard.ActivityCalls
import Clipp.Clipboard.ShareInbox
import Clipp.Registers.LocalWrites

open Foundation

namespace ClippModel.Clipboard

open ClippModel.Persistence ClippModel.Registers ClippModel.Clipboard.ClipboardPayload

inductive UndoSlot where
  | none
  | register (registerName registerValue : Bytes) (registerValueFlags : UInt8) (registerOrigin : HostId)
  | activity (payload : ClipboardPayload)
  deriving DecidableEq

def keptValueFlags : UInt8 := RegisterFlags.private_ ||| RegisterFlags.binaryHeader

def snapshotSlot (found : RegisterRecord) : UndoSlot :=
  .register found.name found.value (found.flags &&& keptValueFlags) found.originHostId

def slotAfterDelete (slot : UndoSlot) : Option RegisterRecord → UndoSlot
  | some found => snapshotSlot found
  | none => slot

def privacyFlags (flags : UInt8) (isPrivate : Bool) : UInt8 :=
  (flags &&& RegisterFlags.binaryHeader) ||| (if isPrivate then RegisterFlags.private_ else 0)

inductive Verb where
  | deleteActivityItemEverywhere (itemID : Nat)
  | deleteRegisterEverywhere (name : Bytes)
  | setRegisterPrivate (name : Bytes) (isPrivate : Bool)
  | tryUndoDelete
  | disarmUndoDelete
  | renameRegister (oldName newName : Bytes)
  deriving DecidableEq

/-- Where the UI thread is: in front of its next call of a store, with what the verb has read so far. -/
inductive Doing where
  | returned (result : Bool)
  | activityReads (itemID : Nat)
  | activityRemoves (itemID : Nat) (stored : ClipboardPayload)
  | deleteReads (name : Bytes)
  | deleteWrites (name : Bytes) (found : Option RegisterRecord)
  | privateReads (name : Bytes) (isPrivate : Bool)
  | privateWrites (name : Bytes) (isPrivate : Bool) (found : RegisterRecord)
  | undoWrites
  | renameReads (oldName newName : Bytes)
  | renameWrites (oldName newName : Bytes) (found : RegisterRecord)
  | renameDeletes (oldName newName : Bytes) (found : RegisterRecord)
  | broadcasts (name : Bytes) (rest : Doing)
  | disarms
  deriving DecidableEq

inductive Sent where
  | register (r : RegisterRecord)
  | clipboard (payload : ClipboardPayload)
  | deletion (eventGuid : Sized 16)
  deriving DecidableEq

structure Desktop where
  registers : RegisterStore
  activity : ClipboardActivityStore
  undoSlot : UndoSlot
  localHost : HostId
  sent : List Sent
  doing : Doing
  deriving DecidableEq

inductive DesktopStep where
  | start (verb : Verb)
  | next (t : Readings) (clock : ActivityClock)
  | network (call : StoreCall)
  | history (event : ClipboardActivityStore.Event)

/-- The store after it was asked for the record to send, and what is sent. -/
def broadcastRegisterRecord (s : RegisterStore) (now : UInt64) (name : Bytes) : RegisterStore × List Sent :=
  let stored := s.getForBroadcast now name
  (stored.store, stored.result.toList.map .register)

namespace Desktop

def start (d : Desktop) : Verb → Desktop
  | .deleteActivityItemEverywhere itemID => { d with doing := .activityReads itemID }
  | .deleteRegisterEverywhere name => { d with doing := .deleteReads name }
  | .setRegisterPrivate name isPrivate => { d with doing := .privateReads name isPrivate }
  | .tryUndoDelete => { d with doing := if d.undoSlot = .none then .returned false else .undoWrites }
  | .disarmUndoDelete => { d with undoSlot := .none, doing := .returned true }
  | .renameRegister oldName newName =>
    if newName = oldName then { d with doing := .returned true }
    else if !isValidRegisterName newName then { d with doing := .returned false }
    else { d with doing := .renameReads oldName newName }

def deleteActivity (d : Desktop) (itemID : Nat) (stored : ClipboardPayload) : Desktop :=
  let removal := d.activity.remove itemID
  if removal.removed then
    { d with
      activity := removal.store
      undoSlot := .activity stored
      sent := if ClipboardActivityStore.guidIsZero stored then d.sent else d.sent ++ [.deletion stored.meta_.eventGuid]
      doing := .returned true }
  else { d with activity := removal.store, doing := .returned false }

def restoreActivity (d : Desktop) (clock : ActivityClock) (payload : ClipboardPayload) : Desktop :=
  let restored := clearTransportFlags payload
  { d with
    activity := (d.activity.addItem clock restored).store
    -- undoing a delete is not a paste: the peers take the item as history
    sent := d.sent ++ [.clipboard (addFlags restored clpmFlagSyncReplay)]
    doing := .disarms }

def settled (d : Desktop) (wrote : Call WriteResult) (name : Bytes) (rest : Doing) : Desktop :=
  { d with
    registers := wrote.store
    doing := if wrote.result = .ok then .broadcasts name rest else .returned false }

/-- One call of a store by the UI thread, up to where the next one is made. -/
def next (d : Desktop) (t : Readings) (clock : ActivityClock) : Option Desktop :=
  match d.doing with
  | .returned _ => none
  | .activityReads itemID =>
    match d.activity.payloadReference itemID with
    | none => some { d with doing := .returned false }
    | some stored => some { d with doing := .activityRemoves itemID stored }
  | .activityRemoves itemID stored => some (d.deleteActivity itemID stored)
  | .deleteReads name =>
    let found := d.registers.read t name
    some { d with registers := found.store, doing := .deleteWrites name found.result }
  | .deleteWrites name found =>
    let deleted := d.registers.delete t name
    if deleted.result = .deleted then
      some { d with
        registers := deleted.store
        undoSlot := slotAfterDelete d.undoSlot found
        doing := .broadcasts name (.returned true) }
    else some { d with registers := deleted.store, doing := .returned false }
  | .privateReads name isPrivate =>
    let read := d.registers.read t name
    match read.result with
    | none => some { d with registers := read.store, doing := .returned false }
    | some found => some { d with registers := read.store, doing := .privateWrites name isPrivate found }
  | .privateWrites name isPrivate found =>
    some (d.settled (d.registers.upsertWithFlags t name found.value (privacyFlags found.flags isPrivate) d.localHost)
      name .disarms)
  | .undoWrites =>
    match d.undoSlot with
    | .none => some { d with doing := .returned false }
    | .register name value valueFlags origin =>
      some (d.settled (d.registers.upsertWithFlags t name value valueFlags origin) name .disarms)
    | .activity payload => some (d.restoreActivity clock payload)
  | .renameReads oldName newName =>
    let read := d.registers.read t oldName
    match read.result with
    | none => some { d with registers := read.store, doing := .returned false }
    | some found => some { d with registers := read.store, doing := .renameWrites oldName newName found }
  | .renameWrites oldName newName found =>
    some (d.settled (d.registers.upsertWithFlags t newName found.value (found.flags &&& keptValueFlags) d.localHost)
      newName (.renameDeletes oldName newName found))
  | .renameDeletes oldName _ _ =>
    let deleted := d.registers.delete t oldName
    some { d with
      registers := deleted.store
      doing := if deleted.result = .deleted then .broadcasts oldName .disarms else .disarms }
  | .broadcasts name rest =>
    let told := broadcastRegisterRecord d.registers t.expiry name
    some { d with registers := told.1, sent := d.sent ++ told.2, doing := rest }
  | .disarms => some { d with undoSlot := .none, doing := .returned true }

/-- The UI thread makes one call at a time; the threads of the network call the stores in between. -/
def step (d : Desktop) : DesktopStep → Option Desktop
  | .start verb =>
    match d.doing with
    | .returned _ => some (d.start verb)
    | _ => none
  | .next t clock => d.next t clock
  | .network call => some { d with registers := call.after d.registers }
  | .history event => some { d with activity := (d.activity.perform event).store }

def storeCall (d : Desktop) (t : Readings) : Option StoreCall :=
  match d.doing with
  | .deleteReads name => some (.operation (.read t name))
  | .deleteWrites name _ => some (.operation (.delete t name d.registers.localHost))
  | .privateReads name _ => some (.operation (.read t name))
  | .privateWrites name isPrivate found =>
    some (.operation (.upsert t name found.value (privacyFlags found.flags isPrivate) d.localHost))
  | .undoWrites =>
    match d.undoSlot with
    | .register name value valueFlags origin => some (.operation (.upsert t name value valueFlags origin))
    | _ => none
  | .renameReads oldName _ => some (.operation (.read t oldName))
  | .renameWrites _ newName found =>
    some (.operation (.upsert t newName found.value (found.flags &&& keptValueFlags) d.localHost))
  | .renameDeletes oldName _ _ => some (.operation (.delete t oldName d.registers.localHost))
  | .broadcasts name _ => some (.getForBroadcast t.expiry name)
  | _ => none

def callOf (d : Desktop) : DesktopStep → Option StoreCall
  | .next t _ => d.storeCall t
  | .network call => some call
  | _ => none

end Desktop

end ClippModel.Clipboard

namespace ClippProof.Clipboard

open ClippModel.Registers ClippModel.Registers.RegisterStore ClippModel.Clipboard ClippProof.Registers

variable {d after : Desktop} {l : DesktopStep} {t : Readings} {clock : ActivityClock}

theorem start_registers (d : Desktop) (verb : Verb) : (d.start verb).registers = d.registers := by
  cases verb with
  | renameRegister oldName newName =>
    unfold Desktop.start
    dsimp only
    split_ifs <;> rfl
  | _ => rfl

theorem deleteActivity_registers (d : Desktop) (itemID : Nat) (stored : ClipboardPayload) :
    (d.deleteActivity itemID stored).registers = d.registers := by
  unfold Desktop.deleteActivity
  dsimp only
  split_ifs <;> rfl

theorem next_registers (taken : d.next t clock = some after) :
    after.registers = ((d.storeCall t).map fun call => call.after d.registers).getD d.registers := by
  unfold Desktop.next at taken
  unfold Desktop.storeCall
  cases doing : d.doing with
  | returned result =>
    rw [doing] at taken
    cases taken
  | activityReads itemID =>
    rw [doing] at taken
    dsimp only at taken
    split at taken <;> cases taken <;> rfl
  | activityRemoves itemID stored =>
    rw [doing] at taken
    cases taken
    exact deleteActivity_registers d itemID stored
  | deleteWrites name found =>
    rw [doing] at taken
    dsimp only at taken
    split_ifs at taken <;> cases taken <;> rfl
  | privateReads name isPrivate =>
    rw [doing] at taken
    dsimp only at taken
    split at taken <;> cases taken <;> rfl
  | undoWrites =>
    rw [doing] at taken
    cases slot : d.undoSlot <;> rw [slot] at taken <;> cases taken <;> rfl
  | renameReads oldName newName =>
    rw [doing] at taken
    dsimp only at taken
    split at taken <;> cases taken <;> rfl
  | _ =>
    rw [doing] at taken
    cases taken
    rfl

theorem step_registers (taken : d.step l = some after) :
    after.registers = ((d.callOf l).map fun call => call.after d.registers).getD d.registers := by
  cases l with
  | start verb =>
    unfold Desktop.step at taken
    dsimp only at taken
    split at taken
    · cases taken
      exact start_registers d verb
    · cases taken
  | next t clock => exact next_registers taken
  | network call =>
    cases taken
    rfl
  | history event =>
    cases taken
    rfl

end ClippProof.Clipboard
