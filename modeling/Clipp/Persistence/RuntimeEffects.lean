import Clipp.Persistence.RuntimeSteps

open Foundation

namespace ClippProof.Persistence

open ClippModel.Registers ClippModel.Persistence ClippProof.Registers

variable {m next : Runtime} {label : RuntimeLabel} {target : Target} {path : Bytes} {r : RegisterRecord}
  {file : SavedFile} {records : List RegisterRecord} {hadKey : Bool} {oldPath : Bytes} {resolved : Option Target}

theorem saved_find {succeeded : Bool} (found : m.saved target records succeeded path = some file) :
    m.disk path = some file ∨ path = target.path ∧ file = { key := target.key, records := records } := by
  unfold Runtime.saved at found
  split_ifs at found
  · by_cases same : path = target.path
    · subst same
      rw [Function.update_self] at found
      exact .inr ⟨rfl, (Option.some.inj found).symm⟩
    · rw [Function.update_of_ne same] at found
      exact .inl found
  · exact .inl found

theorem free_not_writing {last : Bool} (free : m.saveMutexFree = true) :
    m.writer ≠ .writing target records last := by
  intro writing
  simp only [Runtime.saveMutexFree, writing, Bool.false_eq_true] at free

theorem free_not_flushing (free : m.saveMutexFree = true) : m.control ≠ .flushWriting target records := by
  intro flushing
  cases at_ : m.writer <;> simp only [Runtime.saveMutexFree, flushing, at_, Bool.false_eq_true] at free

theorem flight_step (taken : Takes m label next) (carried : inFlight next.writer = some target) :
    inFlight m.writer = some target ∨ m.haveKey = true ∧ target = m.target := by
  cases taken with
  | launch _ => cases carried
  | finalFlush _ _ _ _ key => exact .inr ⟨key, (Option.some.inj carried).symm⟩
  | leave _ _ _ _ => cases carried
  | absorbBurst _ _ _ _ => cases carried
  | waitAgain _ _ _ => cases carried
  | debounced _ key => exact .inr ⟨key, (Option.some.inj carried).symm⟩
  | unpaired _ _ =>
    change inFlight (if m.stop then .absent else .waiting) = some target at carried
    split_ifs at carried <;> cases carried
  | saveSnapshot now saving last at_ _ =>
    left
    rw [at_]
    exact carried
  | saveWrite succeeded written records last _ =>
    change inFlight (if last then .absent else .returning) = some target at carried
    split_ifs at carried <;> cases carried
  | _ => exact .inl carried

theorem writing_step {last : Bool} (taken : Takes m label next) (writing : next.writer = .writing target records last) :
    m.writer = .writing target records last ∨
      m.writer = .saving target last ∧ m.saveMutexFree = true ∧ next.control = m.control ∧
        ∃ now, label = .saveSnapshot now ∧ records = (m.store.snapshotForSync now).result := by
  cases taken with
  | launch _ => cases writing
  | finalFlush _ _ _ _ _ => cases writing
  | leave _ _ _ _ => cases writing
  | absorbBurst _ _ _ _ => cases writing
  | waitAgain _ _ _ => cases writing
  | debounced _ _ => cases writing
  | unpaired _ _ =>
    change (if m.stop then WriterPc.absent else .waiting) = _ at writing
    split_ifs at writing
  | saveSnapshot now saving last at_ free =>
    cases writing
    exact .inr ⟨at_, free, rfl, now, rfl, rfl⟩
  | saveWrite succeeded written records last _ =>
    change (if last then WriterPc.absent else .returning) = _ at writing
    split_ifs at writing
  | _ => exact .inl writing

theorem saving_moves {last : Bool} (saving : m.writer = .saving target last) (launch : label ≠ .launch)
    (taken : Takes m label next) : next.writer = .saving target last ∨ ∃ now, label = .saveSnapshot now ∧
      next.writer = .writing target (m.store.snapshotForSync now).result last := by
  cases taken <;> simp_all [AtLoopTop, Runtime.callListeners, Runtime.setFile]

theorem writing_moves {last : Bool} (writing : m.writer = .writing target records last) (launch : label ≠ .launch)
    (taken : Takes m label next) :
    next.writer = .writing target records last ∨ ∃ succeeded, label = .saveWrite succeeded := by
  cases taken <;> simp_all [AtLoopTop, Runtime.callListeners, Runtime.setFile]

theorem flushing_step (taken : Takes m label next) (flushing : next.control = .flushWriting target records) :
    m.control = .flushWriting target records ∨
      m.control = .flushing target ∧ m.saveMutexFree = true ∧ next.writer = m.writer ∧
        ∃ now, label = .flushSnapshot now ∧ records = (m.store.snapshotForSync now).result := by
  cases taken with
  | flushSnapshot now old phase free =>
    cases flushing
    exact .inr ⟨phase, free, rfl, now, rfl, rfl⟩
  | loaded starting _ => cases starting <;> cases flushing
  | swap hadKey oldPath target _ =>
    change (if !hadKey || target.path ≠ oldPath then ControlPc.loading target false else .idle) = _ at flushing
    split_ifs at flushing
  | _ => first | exact .inl flushing | cases flushing

def Between : ControlPc → Prop
  | .rekeying _ _ => True
  | .swapping _ _ _ => True
  | _ => False

def Unresolved : ControlPc → Prop
  | .capturing => True
  | .flushing _ => True
  | .flushWriting _ _ => True
  | .rekeying _ _ => True
  | _ => False

theorem between_step (between : Between m.control) (other : label ≠ .swap) (taken : Takes m label next) :
    Between next.control := by
  cases taken <;> simp_all [Between, Runtime.callListeners]

theorem unresolved_step (unresolved : Unresolved m.control) (other : ∀ result, label ≠ .resolve result)
    (taken : Takes m label next) : Unresolved next.control := by
  cases taken <;> simp_all [Unresolved, Runtime.callListeners]

theorem swapping_step (swapping : m.control = .swapping hadKey oldPath resolved) (other : label ≠ .swap)
    (taken : Takes m label next) : next.control = .swapping hadKey oldPath resolved := by
  cases taken <;> simp_all [Runtime.callListeners]

theorem loading_step {starting : Bool} (taken : Takes m label next) (loading : next.control = .loading target starting) :
    m.control = .loading target starting ∨ label = .publish ∨ label = .swap := by
  cases taken with
  | publish _ _ => exact .inr (.inl rfl)
  | swap _ _ _ _ => exact .inr (.inr rfl)
  | loaded starting _ => cases starting <;> cases loading
  | _ => first | exact .inl loading | cases loading

theorem target_step (taken : Takes m label next) (other : label ≠ .publish ∧ label ≠ .swap ∧ label ≠ .join) :
    next.haveKey = m.haveKey ∧ next.target = m.target := by
  cases taken with
  | publish _ _ => exact absurd rfl other.1
  | swap _ _ _ _ => exact absurd rfl other.2.1
  | swapNone _ _ _ => exact absurd rfl other.2.1
  | join _ _ => exact absurd rfl other.2.2
  | _ => exact ⟨rfl, rfl⟩

theorem running_step (running : m.running = true) (other : label ≠ .join) (taken : Takes m label next) :
    next.running = true := by
  cases taken with
  | launch _ => rfl
  | join _ _ => exact absurd rfl other
  | _ => exact running

theorem setFile_find (elsewhere : target.path ≠ path) :
    (m.setFile target.path none).disk path = m.disk path := Function.update_of_ne elsewhere.symm _ _

theorem saved_elsewhere {succeeded : Bool} (elsewhere : target.path ≠ path) :
    m.saved target records succeeded path = m.disk path := by
  unfold Runtime.saved
  split_ifs
  · exact Function.update_of_ne elsewhere.symm _ _
  · rfl

theorem saved_here (here : target.path = path) :
    m.saved target records true path = some { key := target.key, records := records } := by
  rw [Runtime.saved, if_pos rfl, here, Function.update_self]

theorem disk_step (taken : Takes m label next)
    (unread : ∀ target starting, m.control = .loading target starting → target.path = path →
      ∀ failed, label ≠ .read failed)
    (unsaved : ∀ target records last, m.writer = .writing target records last → target.path = path →
      ∀ succeeded, label ≠ .saveWrite succeeded)
    (unflushed : ∀ old flushed, m.control = .flushWriting old flushed → old.path = path →
      ∀ succeeded, label ≠ .flushWrite succeeded) :
    next.disk path = m.disk path := by
  cases taken with
  | corrupt target starting failed _ phase _ _ =>
    exact setFile_find (fun here => unread target starting phase here failed rfl)
  | flushWrite succeeded old records phase =>
    exact saved_elsewhere (fun here => unflushed old records phase here succeeded rfl)
  | saveWrite succeeded target records last at_ =>
    exact saved_elsewhere (fun here => unsaved target records last at_ here succeeded rfl)
  | _ => rfl

theorem newly_step (taken : Takes m label next) (covered : Covers next.store r) :
    Covers m.store r ∨ 0 < next.pending ∨ ∃ rest starting, next.control = .applying rest true starting := by
  cases taken with
  | apply now q rest starting _ =>
    cases changed : (m.store.applyRemote now q).notified with
    | false =>
      obtain ⟨p, found, le⟩ := covered
      have same : (m.store.applyRemoteLocked now q).2.records = m.store.records :=
        applyRemote_quiet m.store now changed
      exact .inl ⟨p, (congrArg (fun residents => residents.find r.name) same).symm.trans found, le⟩
    | true => exact .inr (.inr ⟨rest, starting, rfl⟩)
  | flushSnapshot now _ _ _ => exact .inl ((dropped_prune m.store now).covers_before covered)
  | saveSnapshot now _ _ _ _ => exact .inl ((dropped_prune m.store now).covers_before covered)
  | observe now => exact .inl ((dropped_prune m.store now).covers_before covered)
  | mutate op =>
    cases called : notifies m.store op with
    | false => exact .inl (perform_quiet called covered)
    | true => exact .inr (.inl (Nat.succ_pos m.pending))
  | _ => exact .inl covered

theorem publish_phase (taken : Takes m .publish next) : ∃ target, m.control = .publishing target := by
  cases taken with
  | publish target phase => exact ⟨target, phase⟩
  | _ => simp_all [AtLoopTop]

theorem swap_cases (taken : Takes m .swap next) : ∃ hadKey oldPath resolved,
    m.control = .swapping hadKey oldPath resolved ∧ next = m.swapTarget hadKey oldPath resolved := by
  cases taken with
  | swap hadKey oldPath target phase => exact ⟨hadKey, oldPath, some target, phase, rfl⟩
  | swapNone hadKey oldPath phase => exact ⟨hadKey, oldPath, none, phase, rfl⟩
  | _ => simp_all [AtLoopTop]

theorem join_phase (taken : Takes m .join next) : m.control = .joining := by
  cases taken with
  | join phase _ => exact phase
  | _ => simp_all [AtLoopTop]

theorem launch_phase (taken : Takes m .launch next) : m.control = .launching := by
  cases taken with
  | launch phase => exact phase
  | _ => simp_all [AtLoopTop]

theorem unsettled_step (settled : ¬ Between m.control) (taken : Takes m label next) :
    ¬ Between next.control ∨ m.haveKey = false ∨ ∃ old records, m.control = .flushWriting old records ∧
      ∃ succeeded, label = .flushWrite succeeded := by
  cases taken with
  | rekeyed hadKey oldPath _ phase =>
    rw [phase] at settled
    exact absurd trivial settled
  | captureNone _ keyless => exact .inr (.inl keyless)
  | flushWrite succeeded old records phase => exact .inr (.inr ⟨old, records, phase, succeeded, rfl⟩)
  | loaded starting _ => cases starting <;> exact .inl id
  | swap hadKey oldPath target _ =>
    left
    change ¬ Between (if !hadKey || target.path ≠ oldPath then .loading target false else .idle)
    split_ifs <;> exact id
  | _ => first | exact .inl id | exact .inl settled

theorem dirty_step (dirty : m.dirty = true) (key : m.haveKey = true) (other : label ≠ .swap)
    (taken : Takes m label next) : next.dirty = true ∨ ∃ last, next.writer = .saving next.target last := by
  cases taken with
  | swap _ _ _ _ => exact absurd rfl other
  | swapNone _ _ _ => exact absurd rfl other
  | debounced _ _ => exact .inr ⟨false, rfl⟩
  | unpaired _ keyless => cases keyless.symm.trans key
  | notifyApplied _ _ _ => exact .inl (Bool.or_eq_true_iff.mpr (.inl dirty))
  | notify _ => exact .inl (Bool.or_eq_true_iff.mpr (.inl dirty))
  | _ => exact .inl dirty

theorem pending_step (pending : 0 < m.pending) (armed : m.listenerArmed = true) (taken : Takes m label next) :
    next.dirty = true ∨ 0 < next.pending := by
  cases taken with
  | notify _ => exact .inl (Bool.or_eq_true_iff.mpr (.inr armed))
  | mutate op =>
    right
    change 0 < if notifies m.store op then m.pending + 1 else m.pending
    split_ifs <;> omega
  | _ => exact .inr pending

theorem notifying_step {rest : List RegisterRecord} {starting : Bool}
    (notifying : m.control = .applying rest true starting) (armed : m.listenerArmed = true)
    (taken : Takes m label next) : next.dirty = true ∨ next.control = .applying rest true starting := by
  cases taken <;> simp_all [Runtime.callListeners]

theorem loading_moves {starting : Bool} (loading : m.control = .loading target starting)
    (taken : Takes m label next) : next.control = .loading target starting ∨ ∃ failed, label = .read failed := by
  cases taken <;> simp_all [Runtime.callListeners]

theorem read_step {starting : Bool} (loading : m.control = .loading target starting)
    (present : m.disk target.path = some file) (loaded : file.load target.key = some records)
    (taken : Takes m (.read false) next) : next.control = .applying records false starting := by
  cases taken <;> simp_all [AtLoopTop]

theorem applying_step {rest : List RegisterRecord} {notifying starting : Bool}
    (applying : m.control = .applying rest notifying starting) (arriving : r ∈ rest)
    (taken : Takes m label next) :
    (∃ notifying, next.control = .applying rest notifying starting) ∨
      ∃ now q later notifying, rest = q :: later ∧ label = .apply now ∧
        next.store = (m.store.applyRemote now q).store ∧ next.control = .applying later notifying starting := by
  cases taken with
  | apply now q later starting phase =>
    rw [phase] at applying
    cases applying
    exact .inr ⟨now, q, later, _, rfl, rfl, rfl, rfl⟩
  | _ => simp_all [Runtime.callListeners]

theorem saveWrite_step {succeeded : Bool} (taken : Takes m (.saveWrite succeeded) next) :
    ∃ target records last, m.writer = .writing target records last ∧
      next.disk = m.saved target records succeeded ∧ next.store = m.store ∧ next.control = m.control ∧
      inFlight next.writer = none := by
  cases taken with
  | saveWrite _ target records last at_ =>
    exact ⟨target, records, last, at_, rfl, rfl, rfl, by cases last <;> rfl⟩
  | _ => simp_all [AtLoopTop]

theorem flushWrite_step {succeeded : Bool} (taken : Takes m (.flushWrite succeeded) next) :
    ∃ old records, m.control = .flushWriting old records ∧ next.disk = m.saved old records succeeded ∧
      next.store = m.store ∧ next.control = .rekeying true old.path ∧ next.writer = m.writer := by
  cases taken with
  | flushWrite _ old records phase => exact ⟨old, records, phase, rfl, rfl, rfl, rfl⟩
  | _ => simp_all [AtLoopTop]

end ClippProof.Persistence
