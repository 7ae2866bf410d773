import Clipp.Persistence.Runtime

open Foundation

namespace ClippProof.Persistence

open ClippModel.Registers ClippModel.Persistence

variable {m next : Runtime} {label : RuntimeLabel} {target old : Target} {hadKey starting last : Bool}
  {oldPath : Bytes} {records rest : List RegisterRecord}

/-- The pair the writer has taken along for the save it is in. -/
def inFlight : WriterPc → Option Target
  | .saving target _ => some target
  | .writing target _ _ => some target
  | _ => none

/-- The writer evaluates its loop condition: after a wait, or back from a save. -/
def AtLoopTop (m : Runtime) (label : RuntimeLabel) : Prop :=
  label = .wake ∧ m.writer = .waiting ∨ label = .relock ∧ m.writer = .returning

/-- The steps of the runtime, one rule for each way the source goes on. -/
inductive Takes (m : Runtime) : RuntimeLabel → Runtime → Prop where
  | refused (label : RuntimeLabel) : m.control = .idle →
      label = .start ∧ m.running = true ∨ (label = .keyChanged ∨ label = .stop) ∧ m.running = false →
      Takes m label m
  | start : m.control = .idle → m.running = false → Takes m .start { m with control := .resolving }
  | keyChanged : m.control = .idle → m.running = true →
      Takes m .keyChanged { m with control := .capturing }
  | stop : m.control = .idle → m.running = true → Takes m .stop { m with control := .stopping }
  | resolved (target : Target) : m.control = .resolving →
      Takes m (.resolve (some target)) { m with control := .publishing target }
  | unresolved : m.control = .resolving → Takes m (.resolve none) { m with control := .launching }
  | rekeyed (hadKey : Bool) (oldPath : Bytes) (result : Option Target) :
      m.control = .rekeying hadKey oldPath →
      Takes m (.resolve result) { m with control := .swapping hadKey oldPath result }
  | publish (target : Target) : m.control = .publishing target →
      Takes m .publish { m with
        haveKey := true, filePath := target.path, sealKey := target.key, control := .loading target true }
  | noFile (target : Target) (starting failed : Bool) : m.control = .loading target starting →
      m.disk target.path = none →
      Takes m (.read failed) { m with control := .applying [] false starting }
  | corrupt (target : Target) (starting failed : Bool) (file : SavedFile) :
      m.control = .loading target starting → m.disk target.path = some file →
      failed = true ∨ file.load target.key = none →
      Takes m (.read failed) { m.setFile target.path none with control := .applying [] false starting }
  | read (target : Target) (starting : Bool) (file : SavedFile) (records : List RegisterRecord) :
      m.control = .loading target starting → m.disk target.path = some file →
      file.load target.key = some records →
      Takes m (.read false) { m with control := .applying records false starting }
  | apply (now : UInt64) (r : RegisterRecord) (rest : List RegisterRecord) (starting : Bool) :
      m.control = .applying (r :: rest) false starting →
      Takes m (.apply now) { m with
        store := (m.store.applyRemote now r).store
        control := .applying rest (m.store.applyRemote now r).notified starting }
  | notifyApplied (rest : List RegisterRecord) (starting : Bool) : m.control = .applying rest true starting →
      Takes m .notifyApplied { m.callListeners with control := .applying rest false starting }
  | loaded (starting : Bool) : m.control = .applying [] false starting →
      Takes m .loaded { m with control := if starting then .launching else .idle }
  | launch : m.control = .launching →
      Takes m .launch { m with
        listenerArmed := true, running := true, stop := false, writer := .waiting, control := .idle }
  | capture : m.control = .capturing → m.haveKey = true →
      Takes m .capture { m with control := .flushing m.target }
  | captureNone : m.control = .capturing → m.haveKey = false →
      Takes m .capture { m with control := .rekeying false m.filePath }
  | flushSnapshot (now : UInt64) (old : Target) : m.control = .flushing old → m.saveMutexFree = true →
      Takes m (.flushSnapshot now) { m with
        store := m.store.pruneExpiredLocked now
        control := .flushWriting old (m.store.snapshotForSync now).result }
  | flushWrite (succeeded : Bool) (old : Target) (records : List RegisterRecord) :
      m.control = .flushWriting old records →
      Takes m (.flushWrite succeeded) { m with
        disk := m.saved old records succeeded
        control := .rekeying true old.path }
  | swap (hadKey : Bool) (oldPath : Bytes) (target : Target) :
      m.control = .swapping hadKey oldPath (some target) →
      Takes m .swap { m with
        haveKey := true, filePath := target.path, sealKey := target.key, dirty := true
        control := if !hadKey || target.path ≠ oldPath then .loading target false else .idle }
  | swapNone (hadKey : Bool) (oldPath : Bytes) : m.control = .swapping hadKey oldPath none →
      Takes m .swap { m with
        haveKey := false, filePath := [], sealKey := zeroKey, dirty := false, control := .idle }
  | halt : m.control = .stopping → Takes m .halt { m with stop := true, control := .joining }
  | join : m.control = .joining → m.writer = .absent →
      Takes m .join { m with running := false, sealKey := zeroKey, control := .idle }
  | finalFlush (label : RuntimeLabel) : AtLoopTop m label → m.stop = true → m.dirty = true →
      m.haveKey = true → Takes m label { m with writer := .saving m.target true }
  | leave (label : RuntimeLabel) : AtLoopTop m label → m.stop = true →
      m.dirty = false ∨ m.haveKey = false → Takes m label { m with writer := .absent }
  | absorbBurst (label : RuntimeLabel) : AtLoopTop m label → m.stop = false → m.dirty = true →
      Takes m label { m with writer := .debouncing }
  | waitAgain : m.writer = .returning → m.stop = false → m.dirty = false →
      Takes m .relock { m with writer := .waiting }
  | debounced : m.writer = .debouncing → m.haveKey = true →
      Takes m .debounced { m with dirty := false, writer := .saving m.target false }
  | unpaired : m.writer = .debouncing → m.haveKey = false →
      Takes m .debounced { m with dirty := false, writer := if m.stop then .absent else .waiting }
  | saveSnapshot (now : UInt64) (target : Target) (last : Bool) : m.writer = .saving target last →
      m.saveMutexFree = true →
      Takes m (.saveSnapshot now) { m with
        store := m.store.pruneExpiredLocked now
        writer := .writing target (m.store.snapshotForSync now).result last }
  | saveWrite (succeeded : Bool) (target : Target) (records : List RegisterRecord) (last : Bool) :
      m.writer = .writing target records last →
      Takes m (.saveWrite succeeded) { m with
        disk := m.saved target records succeeded
        writer := if last then .absent else .returning }
  | mutate (op : StoreOp) : Takes m (.mutate op) { m with
      store := perform m.store op
      pending := if notifies m.store op then m.pending + 1 else m.pending }
  | observe (now : UInt64) : Takes m (.observe now) { m with store := m.store.pruneExpiredLocked now }
  | notify : 0 < m.pending → Takes m .notify { m.callListeners with pending := m.pending - 1 }

example (quiet : m.pending = 0) : m.step .notify = none := by
  rw [Runtime.step, if_pos quiet]

theorem there_of_loopTop (top : AtLoopTop m label) : m.writer ≠ .absent := by
  intro absent
  rcases top with ⟨_, at_⟩ | ⟨_, at_⟩ <;> cases absent.symm.trans at_

theorem readFile_takes {failed : Bool} (loading : m.control = .loading target starting) :
    Takes m (.read failed) (m.readFile target starting failed) := by
  unfold Runtime.readFile
  cases present : m.disk target.path with
  | none => exact .noFile target starting failed loading present
  | some file =>
    cases failed with
    | true => exact .corrupt target starting true file loading present (.inl rfl)
    | false =>
      cases content : file.load target.key with
      | none =>
        simp only [Bool.false_eq_true, if_false, content]
        exact .corrupt target starting false file loading present (.inr content)
      | some records =>
        simp only [Bool.false_eq_true, if_false, content]
        exact .read target starting file records loading present content

theorem leaveLoop_takes (top : AtLoopTop m label) (stopped : m.stop = true) : Takes m label m.leaveLoop := by
  unfold Runtime.leaveLoop
  split_ifs with pending
  · obtain ⟨dirty, key⟩ := (Bool.and_eq_true _ _).mp pending
    exact .finalFlush label top stopped dirty key
  · have clean : m.dirty = false ∨ m.haveKey = false := by
      simpa only [Bool.and_eq_true, not_and_or, Bool.not_eq_true] using pending
    exact .leave label top stopped clean

theorem lifecycle_takes (call : label = .start ∨ label = .keyChanged ∨ label = .stop)
    (taken : m.step label = some next) : Takes m label next := by
  have idle : m.control = .idle := by
    rcases call with rfl | rfl | rfl <;> cases phase : m.control <;>
      simp only [Runtime.step, phase] at taken <;> first | rfl | cases taken
  rcases call with rfl | rfl | rfl <;> simp only [Runtime.step, idle] at taken <;>
    split_ifs at taken with running <;> cases taken
  · exact .refused _ idle (.inl ⟨rfl, running⟩)
  · exact .start idle (by simpa using running)
  · exact .keyChanged idle running
  · exact .refused _ idle (.inr ⟨.inl rfl, by simpa using running⟩)
  · exact .stop idle running
  · exact .refused _ idle (.inr ⟨.inr rfl, by simpa using running⟩)

theorem resolve_takes {result : Option Target} (taken : m.step (.resolve result) = some next) :
    Takes m (.resolve result) next := by
  cases phase : m.control with
  | resolving =>
    cases result <;> simp only [Runtime.step, phase] at taken <;> cases taken
    · exact .unresolved phase
    · exact .resolved _ phase
  | rekeying hadKey oldPath =>
    simp only [Runtime.step, phase] at taken
    cases taken
    exact .rekeyed hadKey oldPath result phase
  | _ =>
    simp only [Runtime.step, phase] at taken
    cases taken

theorem swap_takes (taken : m.step .swap = some next) : Takes m .swap next := by
  cases phase : m.control with
  | swapping hadKey oldPath result =>
    simp only [Runtime.step, phase] at taken
    cases result <;> cases taken
    · exact .swapNone hadKey oldPath phase
    · exact .swap hadKey oldPath _ phase
  | _ =>
    simp only [Runtime.step, phase] at taken
    cases taken

theorem capture_takes (taken : m.step .capture = some next) : Takes m .capture next := by
  cases phase : m.control with
  | capturing =>
    simp only [Runtime.step, phase] at taken
    cases taken
    split_ifs with key
    · exact .capture phase key
    · exact .captureNone phase (by simpa using key)
  | _ =>
    simp only [Runtime.step, phase] at taken
    cases taken

theorem wake_takes (taken : m.step .wake = some next) : Takes m .wake next := by
  cases at_ : m.writer with
  | waiting =>
    have top : AtLoopTop m .wake := .inl ⟨rfl, at_⟩
    simp only [Runtime.step, at_] at taken
    split_ifs at taken with stopped dirty <;> cases taken
    · exact leaveLoop_takes top stopped
    · exact .absorbBurst _ top (by simpa using stopped) dirty
  | _ =>
    simp only [Runtime.step, at_] at taken
    cases taken

theorem loopTop_clean (m : Runtime) : ({ m with dirty := false } : Runtime).loopTop =
    { m with dirty := false, writer := if m.stop then .absent else .waiting } := by
  cases m.stop <;> simp [Runtime.loopTop, Runtime.leaveLoop]

theorem debounced_takes (taken : m.step .debounced = some next) : Takes m .debounced next := by
  simp only [Runtime.step] at taken
  split at taken
  · rename_i at_
    split_ifs at taken with key <;> cases taken
    · exact .debounced at_ key
    · rw [loopTop_clean]
      exact .unpaired at_ (by simpa using key)
  · cases taken

theorem join_takes (taken : m.step .join = some next) : Takes m .join next := by
  simp only [Runtime.step] at taken
  split at taken
  · rename_i phase at_
    cases taken
    exact .join phase at_
  · cases taken

theorem relock_takes (taken : m.step .relock = some next) : Takes m .relock next := by
  cases at_ : m.writer with
  | returning =>
    have top : AtLoopTop m .relock := .inr ⟨rfl, at_⟩
    simp only [Runtime.step, at_, Runtime.loopTop] at taken
    split_ifs at taken with stopped dirty <;> cases taken
    · exact leaveLoop_takes top stopped
    · exact .absorbBurst _ top (by simpa using stopped) dirty
    · exact .waitAgain at_ (by simpa using stopped) (by simpa using dirty)
  | _ =>
    simp only [Runtime.step, at_] at taken
    cases taken

theorem applying_takes (call : (∃ now, label = .apply now) ∨ label = .notifyApplied ∨ label = .loaded)
    (taken : m.step label = some next) : Takes m label next := by
  cases phase : m.control with
  | applying rest notifying starting =>
    cases rest <;> cases notifying <;> rcases call with ⟨now, rfl⟩ | rfl | rfl <;>
      simp only [Runtime.step, phase] at taken <;> cases taken
    · exact .loaded starting phase
    · exact .notifyApplied _ starting phase
    · exact .apply now _ _ starting phase
    · exact .notifyApplied _ starting phase
  | _ =>
    rcases call with ⟨now, rfl⟩ | rfl | rfl <;> simp only [Runtime.step, phase] at taken <;> cases taken

theorem takes_of_step (taken : m.step label = some next) : Takes m label next := by
  cases label with
  | start => exact lifecycle_takes (.inl rfl) taken
  | keyChanged => exact lifecycle_takes (.inr (.inl rfl)) taken
  | stop => exact lifecycle_takes (.inr (.inr rfl)) taken
  | resolve result => exact resolve_takes taken
  | publish =>
    cases phase : m.control <;> simp only [Runtime.step, phase] at taken <;> cases taken
    exact .publish _ phase
  | read failed =>
    cases phase : m.control <;> simp only [Runtime.step, phase] at taken <;> cases taken
    exact readFile_takes phase
  | apply now => exact applying_takes (.inl ⟨now, rfl⟩) taken
  | notifyApplied => exact applying_takes (.inr (.inl rfl)) taken
  | loaded => exact applying_takes (.inr (.inr rfl)) taken
  | launch =>
    cases phase : m.control <;> simp only [Runtime.step, phase] at taken <;> cases taken
    exact .launch phase
  | capture => exact capture_takes taken
  | flushSnapshot now =>
    cases phase : m.control <;> simp only [Runtime.step, phase] at taken <;> try cases taken
    split_ifs at taken with free
    cases taken
    exact .flushSnapshot now _ phase free
  | flushWrite succeeded =>
    cases phase : m.control <;> simp only [Runtime.step, phase] at taken <;> cases taken
    exact .flushWrite succeeded _ _ phase
  | swap => exact swap_takes taken
  | halt =>
    cases phase : m.control <;> simp only [Runtime.step, phase] at taken <;> cases taken
    exact .halt phase
  | join => exact join_takes taken
  | wake => exact wake_takes taken
  | debounced => exact debounced_takes taken
  | saveSnapshot now =>
    cases at_ : m.writer <;> simp only [Runtime.step, at_] at taken <;> try cases taken
    split_ifs at taken with free
    cases taken
    exact .saveSnapshot now _ _ at_ free
  | saveWrite succeeded =>
    cases at_ : m.writer <;> simp only [Runtime.step, at_] at taken <;> cases taken
    exact .saveWrite succeeded _ _ _ at_
  | relock => exact relock_takes taken
  | mutate op =>
    cases taken
    exact .mutate op
  | observe now =>
    cases taken
    exact .observe now
  | notify =>
    simp only [Runtime.step] at taken
    split_ifs at taken with none
    cases taken
    exact .notify (Nat.pos_of_ne_zero none)

namespace RuntimeSample

def store : RegisterStore := (RegisterStore.create HostId.zero RegisterStore.kDefaultTtlMs 8 8).seedClockFloor {}
def group : Target where
  path := [0x70]
  key := SealedSnapshot.repeatedByte SealedSnapshot.kSealKeyBytes 1

end RuntimeSample

end ClippProof.Persistence
