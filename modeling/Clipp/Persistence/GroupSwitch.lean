import Clipp.Persistence.HeldRecords

open Foundation

namespace ClippProof.Persistence

open ClippModel.Registers ClippModel.Persistence SealedSnapshot ClippProof.Registers

variable {m next : Runtime} {label : RuntimeLabel} {target selected : Target} {nowEnd ttlMs : UInt64}
  {path : Bytes} {q r : RegisterRecord} {records : List RegisterRecord}

/-- One call of `RegisterPersistenceKeyChanged`, up to the return of its `ResolveKeyAndPath`. -/
def Selects (ok : Runtime → RuntimeLabel → Prop) (before : Runtime) (selected : Target) (after : Runtime) : Prop :=
  before.control = .idle ∧ before.running = true ∧
    ∃ labels resolving, Path Runtime.step (fun m label => ok m label ∧ ∀ result, label ≠ .resolve result)
        before (.keyChanged :: labels) resolving ∧
      resolving.step (.resolve (some selected)) = some after

def Quiescent (m : Runtime) : Prop :=
  m.control = .idle ∧ m.pending = 0 ∧ m.dirty = false ∧ m.writer = .waiting

def Carries (r : RegisterRecord) (records : List RegisterRecord) : Prop := ∃ q ∈ records, r ≤ q

/-- The record, or one above it, is in the store and in the file, which is sealed with the current key
    as long as its group is selected. -/
def Preserved (m : Runtime) (path : Bytes) (r : RegisterRecord) : Prop :=
  Covers m.store r ∧ ∃ file, m.disk path = some file ∧ Carries r file.records ∧
    (m.haveKey = true → m.filePath = path → file.key = m.sealKey)

def Intact (m : Runtime) (selected : Target) (r : RegisterRecord) : Prop :=
  ∃ file records, m.disk selected.path = some file ∧ file.load selected.key = some records ∧ r ∈ records

/-- Every unexpired record of the file of a group that gets selected is preserved at quiescence, after
    whatever saves, store changes and further key changes. -/
def SwitchPreserves (ok : Runtime → RuntimeLabel → Prop) (store : RegisterStore)
    (disk : Bytes → Option SavedFile) : Prop :=
  ∀ (nowEnd : UInt64) (earlier later : List RuntimeLabel) (before after m : Runtime) (selected : Target)
    (r : RegisterRecord),
    let allowed := fun m label => Switching nowEnd label ∧ ok m label
    Path Runtime.step allowed (.boot store disk) earlier before →
    Selects allowed before selected after → Path Runtime.step allowed after later m → Quiescent m →
    Intact before selected r → isExpired r nowEnd store.ttlMs = false → Preserved m selected.path r

def Notifying : ControlPc → Prop
  | .applying _ notifying _ => notifying = true
  | _ => False

def Busy (m : Runtime) (r : RegisterRecord) : Prop :=
  match m.writer with
  | .saving target _ => target = m.target
  | .writing target records _ => target = m.target ∧ Carries r records
  | _ => False

def Marked (m : Runtime) (r : RegisterRecord) : Prop :=
  m.dirty = true ∨ 0 < m.pending ∨ Notifying m.control ∨ Busy m r

def Foreign (m : Runtime) (path : Bytes) : Prop :=
  (m.haveKey = true → m.filePath ≠ path) ∧ ∀ target, inFlight m.writer = some target → target.path ≠ path

structure Awaiting (m : Runtime) (selected : Target) (r : RegisterRecord) : Prop where
  running : m.running = true
  kept : Covers m.store r ∨ Intact m selected r ∧ Foreign m selected.path

structure Due (m : Runtime) (path : Bytes) (r : RegisterRecord) : Prop where
  key : m.haveKey = true
  path : m.filePath = path
  settled : ¬ Between m.control
  marked : Covers m.store r → Marked m r

structure Stored (m : Runtime) (path : Bytes) (r : RegisterRecord) : Prop where
  covered : Covers m.store r
  file : ∃ file, m.disk path = some file ∧ Carries r file.records ∧
    (¬ Between m.control → m.haveKey = true → m.filePath = path → file.key = m.sealKey)
  writing : ∀ target records last, m.writer = .writing target records last → target.path = path →
    Carries r records
  flight : ¬ Between m.control → m.haveKey = true → m.filePath = path →
    ∀ target, inFlight m.writer = some target → target.path = path → target = m.target
  unloaded : ∀ target starting, m.control = .loading target starting → target.path ≠ path

def Reaches (m : Runtime) (selected : Target) (r : RegisterRecord) : Prop :=
  Covers m.store r ∨ (∃ starting, m.control = .loading selected starting) ∧ Intact m selected r ∨
    ∃ rest notifying starting, m.control = .applying rest notifying starting ∧ r ∈ rest

structure Switched (m : Runtime) (selected : Target) (r : RegisterRecord) : Prop where
  running : m.running = true
  reaches : Reaches m selected r
  flushed : ∀ old records, m.control = .flushWriting old records → Carries r records
  file : Due m selected.path r ∨ Stored m selected.path r

theorem Sound.steady (inv : Sound nowEnd ttlMs m) (running : m.running = true) (taken : Takes m label next) :
    label ≠ .publish ∧ label ≠ .join ∧ label ≠ .launch := by
  have sound := inv.control
  refine ⟨?_, ?_, ?_⟩ <;> intro same <;> subst same
  · obtain ⟨target, phase⟩ := publish_phase taken
    rw [phase] at sound
    cases running.symm.trans sound
  · rw [join_phase taken] at sound
    cases sound
  · rw [launch_phase taken] at sound
    cases running.symm.trans sound

theorem Sound.snapshot_carries (inv : Sound nowEnd ttlMs m) (lasts : Lasts nowEnd ttlMs r) {now : UInt64}
    (during : now ≤ nowEnd) (covered : Covers m.store r) : Carries r (m.store.snapshotForSync now).result := by
  apply covered.in_snapshot _ lasts.named
  rw [inv.limit]
  exact unexpired_earlier during lasts.alive

theorem Intact.lasts (intact : Intact m selected r) (alive : isExpired r nowEnd ttlMs = false) :
    Lasts nowEnd ttlMs r := by
  obtain ⟨file, records, _, loaded, member⟩ := intact
  obtain ⟨_, caps, named⟩ := (mem_load loaded).mp member
  exact ⟨alive, named, caps⟩

theorem Intact.keep (intact : Intact m selected r) (same : next.disk selected.path = m.disk selected.path) :
    Intact next selected r := by
  obtain ⟨file, records, present, loaded, member⟩ := intact
  exact ⟨file, records, same.trans present, loaded, member⟩

theorem Awaiting.takes (awaiting : Awaiting m selected r) (inv : Sound nowEnd ttlMs m)
    (switching : Switching nowEnd label) (fits : SwitchFits m label) (lasts : Lasts nowEnd ttlMs r)
    (away : ∀ target starting, m.control ≠ .loading target starting) (other : label ≠ .swap)
    (taken : Takes m label next) : Awaiting next selected r := by
  obtain ⟨publish, join, _⟩ := inv.steady awaiting.running taken
  refine ⟨running_step awaiting.running join taken, ?_⟩
  rcases awaiting.kept with covered | ⟨intact, unselected, unheld⟩
  · exact .inl (inv.covers_takes switching fits taken r lasts covered)
  right
  have unflushed : ∀ old flushed, m.control = .flushWriting old flushed → old.path ≠ selected.path := by
    intro old flushed phase
    have sound := inv.control
    rw [phase] at sound
    rw [sound.2.2.1]
    exact unselected sound.2.1
  have unsaved : ∀ target records last, m.writer = .writing target records last →
      target.path ≠ selected.path := by
    intro target records last writing
    apply unheld
    rw [writing]
    rfl
  have same := disk_step taken (fun target starting phase => absurd phase (away target starting))
    (fun target records last writing here => absurd here (unsaved target records last writing))
    (fun old flushed phase here => absurd here (unflushed old flushed phase))
  obtain ⟨key, pair⟩ := target_step taken ⟨publish, other, join⟩
  have path : next.filePath = m.filePath := congrArg Target.path pair
  refine ⟨intact.keep same, ?_, ?_⟩
  · intro had
    rw [path]
    exact unselected (key ▸ had)
  · intro target carried
    rcases flight_step taken carried with before | ⟨had, current⟩
    · exact unheld target before
    · rw [current]
      exact unselected had

theorem Reaches.takes (reaches : Reaches m selected r) (inv : Sound nowEnd ttlMs m)
    (switching : Switching nowEnd label) (fits : SwitchFits m label) (lasts : Lasts nowEnd ttlMs r)
    (taken : Takes m label next) : Reaches next selected r := by
  rcases reaches with covered | ⟨⟨starting, loading⟩, intact⟩ | ⟨rest, notifying, starting, applying, arriving⟩
  · exact .inl (inv.covers_takes switching fits taken r lasts covered)
  · right
    by_cases reads : ∃ failed, label = .read failed
    · obtain ⟨failed, same⟩ := reads
      subst same
      have works : failed = false := fits
      subst works
      obtain ⟨file, records, present, loaded, member⟩ := intact
      exact .inr ⟨records, false, starting, read_step loading present loaded taken, member⟩
    · have stays := (loading_moves loading taken).resolve_right reads
      have same : next.disk selected.path = m.disk selected.path := by
        apply disk_step taken
        · exact fun _ _ _ _ failed same => reads ⟨failed, same⟩
        · intro target records last writing here succeeded same
          subst same
          -- the early save is excluded here
          exact fits target records last selected starting writing loading here.symm
        · intro old flushed flushing
          cases loading.symm.trans flushing
      exact .inl ⟨⟨starting, stays⟩, intact.keep same⟩
  · rcases applying_step applying arriving taken with ⟨_, stays⟩ | ⟨now, q, later, _, equal, call, store, moved⟩
    · exact .inr (.inr ⟨rest, _, starting, stays, arriving⟩)
    · subst equal call
      rcases List.mem_cons.mp arriving with same | further
      · subst same
        left
        rw [store]
        apply applyRemote_covers lasts.named
        rw [inv.limit]
        exact unexpired_earlier switching.2.2.2 lasts.alive
      · exact .inr (.inr ⟨later, _, starting, moved, further⟩)

theorem Busy.takes (busy : Busy m r) (covered : Covers m.store r) (inv : Sound nowEnd ttlMs m)
    (switching : Switching nowEnd label) (lasts : Lasts nowEnd ttlMs r) (pair : next.target = m.target)
    (launch : label ≠ .launch) (taken : Takes m label next) :
    Busy next r ∨ ∃ target records last, m.writer = .writing target records last ∧ target = m.target ∧
      Carries r records ∧ ∃ succeeded, label = .saveWrite succeeded := by
  cases at_ : m.writer with
  | saving target last =>
    rw [Busy, at_] at busy
    left
    rcases saving_moves at_ launch taken with stays | ⟨now, same, writing⟩
    · rw [Busy, stays]
      exact busy.trans pair.symm
    · rw [Busy, writing]
      subst same
      exact ⟨busy.trans pair.symm, inv.snapshot_carries lasts switching.2.2.2 covered⟩
  | writing target records last =>
    rw [Busy, at_] at busy
    rcases writing_moves at_ launch taken with stays | saved
    · left
      rw [Busy, stays]
      exact ⟨busy.1.trans pair.symm, busy.2⟩
    · exact .inr ⟨target, records, last, rfl, busy.1, busy.2, saved⟩
  | _ =>
    rw [Busy, at_] at busy
    cases busy

theorem Marked.takes (marked : Marked m r) (covered : Covers m.store r) (inv : Sound nowEnd ttlMs m)
    (switching : Switching nowEnd label) (lasts : Lasts nowEnd ttlMs r) (running : m.running = true)
    (key : m.haveKey = true) (other : label ≠ .swap) (taken : Takes m label next) :
    Marked next r ∨ ∃ target records last, m.writer = .writing target records last ∧ target = m.target ∧
      Carries r records ∧ ∃ succeeded, label = .saveWrite succeeded := by
  obtain ⟨publish, join, launch⟩ := inv.steady running taken
  have armed := inv.armed running
  obtain ⟨_, pair⟩ := target_step taken ⟨publish, other, join⟩
  rcases marked with dirty | pending | notifying | busy
  · left
    rcases dirty_step dirty key other taken with dirty | ⟨last, saving⟩
    · exact .inl dirty
    · -- the writer takes the mark and the pair along in one lock region
      right
      right
      right
      rw [Busy, saving]
  · left
    rcases pending_step pending armed taken with dirty | pending
    · exact .inl dirty
    · exact .inr (.inl pending)
  · left
    cases phase : m.control <;> rw [phase] at notifying <;> try cases notifying
    rcases notifying_step phase armed taken with dirty | stays
    · exact .inl dirty
    · right
      right
      left
      rw [stays]
      rfl
  · exact Or.imp_left (fun busy => .inr (.inr (.inr busy)))
      (busy.takes covered inv switching lasts pair launch taken)

theorem Due.saved {succeeded : Bool} (due : Due m path r) (switching : Switching nowEnd (.saveWrite succeeded))
    (fits : SwitchFits m (.saveWrite succeeded)) (covered : Covers m.store r) {last : Bool}
    (writing : m.writer = .writing m.target records last) (carried : Carries r records)
    (seal_ : next.sealKey = m.sealKey) (taken : Takes m (.saveWrite succeeded) next) : Stored next path r := by
  have works : succeeded = true := by
    cases succeeded
    · exact absurd rfl switching.2.1
    · rfl
  subst works
  obtain ⟨target, written, _, at_, disk, store, control, idle⟩ := saveWrite_step taken
  cases writing.symm.trans at_
  refine ⟨store ▸ covered, ⟨_, disk ▸ saved_here due.path, carried, fun _ _ _ => seal_.symm⟩, ?_, ?_, ?_⟩
  · intro target records last busy
    rw [busy] at idle
    cases idle
  · intro _ _ _ target busy
    cases idle.symm.trans busy
  · intro target starting loading
    rw [← due.path]
    exact fits m.target records last target starting writing (control ▸ loading)

theorem Due.flushed {succeeded : Bool} (due : Due m path r) (inv : Sound nowEnd ttlMs m)
    (switching : Switching nowEnd (.flushWrite succeeded))
    (flushed : ∀ old records, m.control = .flushWriting old records → Covers m.store r ∧ Carries r records)
    (taken : Takes m (.flushWrite succeeded) next) : Stored next path r := by
  have works : succeeded = true := by
    cases succeeded
    · exact absurd rfl switching.2.2.1
    · rfl
  subst works
  obtain ⟨old, records, phase, disk, store, control, writer⟩ := flushWrite_step taken
  obtain ⟨covered, carried⟩ := flushed old records phase
  have sound := inv.control
  rw [phase] at sound
  have here : old.path = path := (congrArg Target.path sound.2.2.1).trans due.path
  have between : Between next.control := by
    rw [control]
    trivial
  refine ⟨store ▸ covered, ⟨_, disk ▸ saved_here here, carried, fun calm => absurd between calm⟩, ?_,
    fun calm => absurd between calm, ?_⟩
  · intro target records last writing
    exact absurd phase (inv.exclusive target records last (writer ▸ writing) old _)
  · intro target starting loading
    cases control.symm.trans loading

theorem Due.takes (due : Due m path r) (inv : Sound nowEnd ttlMs m) (switching : Switching nowEnd label)
    (fits : SwitchFits m label) (lasts : Lasts nowEnd ttlMs r) (running : m.running = true)
    (flushed : ∀ old records, m.control = .flushWriting old records → Covers m.store r ∧ Carries r records)
    (other : label ≠ .swap) (taken : Takes m label next) : Due next path r ∨ Stored next path r := by
  obtain ⟨publish, join, launch⟩ := inv.steady running taken
  obtain ⟨key, pair⟩ := target_step taken ⟨publish, other, join⟩
  have samePath : next.filePath = m.filePath := congrArg Target.path pair
  rcases unsettled_step due.settled taken with settled | keyless | ⟨old, records, phase, succeeded, same⟩
  · by_cases covered : Covers m.store r
    · rcases (due.marked covered).takes covered inv switching lasts running due.key other taken with
        marked | ⟨target, records, last, writing, current, carried, succeeded, same⟩
      · exact .inl ⟨key.trans due.key, samePath.trans due.path, settled, fun _ => marked⟩
      · subst same current
        exact .inr (due.saved switching fits covered writing carried (congrArg Target.key pair) taken)
    · left
      refine ⟨key.trans due.key, samePath.trans due.path, settled, fun after => ?_⟩
      rcases newly_step taken after with before | pending | ⟨rest, starting, notifying⟩
      · exact absurd before covered
      · exact .inr (.inl pending)
      · right
        right
        left
        rw [notifying]
        rfl
  · cases keyless.symm.trans due.key
  · subst same
    exact .inr (due.flushed inv switching flushed taken)

theorem Stored.file_takes (stored : Stored m path r) (switching : Switching nowEnd label)
    (flushed : ∀ old records, m.control = .flushWriting old records → Carries r records)
    (key : next.haveKey = m.haveKey) (pair : next.target = m.target)
    (settled : ¬ Between next.control → ¬ Between m.control) (taken : Takes m label next) :
    ∃ file, next.disk path = some file ∧ Carries r file.records ∧
      (¬ Between next.control → next.haveKey = true → next.filePath = path → file.key = next.sealKey) := by
  have samePath : next.filePath = m.filePath := congrArg Target.path pair
  have sameKey : next.sealKey = m.sealKey := congrArg Target.key pair
  have untouched : next.disk path = m.disk path → ∃ file, next.disk path = some file ∧ Carries r file.records ∧
      (¬ Between next.control → next.haveKey = true → next.filePath = path → file.key = next.sealKey) := by
    intro same
    obtain ⟨file, present, carried, sealed⟩ := stored.file
    rw [same, key, samePath, sameKey]
    exact ⟨file, present, carried, fun calm => sealed (settled calm)⟩
  by_cases writes : ∃ succeeded, label = .saveWrite succeeded
  · obtain ⟨succeeded, same⟩ := writes
    subst same
    obtain ⟨target, records, last, writing, disk, _, _, _⟩ := saveWrite_step taken
    by_cases here : target.path = path
    · cases succeeded with
      | false => exact absurd rfl switching.2.1
      | true =>
        refine ⟨_, disk ▸ saved_here here, stored.writing target records last writing here, ?_⟩
        intro calm had selected
        rw [key] at had
        rw [samePath] at selected
        have current := stored.flight (settled calm) had selected target (by rw [writing]; rfl) here
        exact (congrArg Target.key current).trans sameKey.symm
    · exact untouched (disk ▸ saved_elsewhere here)
  by_cases flushes : ∃ succeeded, label = .flushWrite succeeded
  · obtain ⟨succeeded, same⟩ := flushes
    subst same
    obtain ⟨old, records, flushing, disk, _, control, _⟩ := flushWrite_step taken
    by_cases here : old.path = path
    · cases succeeded with
      | false => exact absurd rfl switching.2.2.1
      | true =>
        refine ⟨_, disk ▸ saved_here here, flushed old records flushing, fun calm => ?_⟩
        rw [control] at calm
        exact absurd trivial calm
    · exact untouched (disk ▸ saved_elsewhere here)
  apply untouched
  apply disk_step taken
  · exact fun target starting loading here => absurd here (stored.unloaded target starting loading)
  · exact fun _ _ _ _ _ succeeded same => writes ⟨succeeded, same⟩
  · exact fun _ _ _ _ succeeded same => flushes ⟨succeeded, same⟩

theorem Stored.takes (stored : Stored m path r) (inv : Sound nowEnd ttlMs m) (switching : Switching nowEnd label)
    (fits : SwitchFits m label) (lasts : Lasts nowEnd ttlMs r) (running : m.running = true)
    (flushed : ∀ old records, m.control = .flushWriting old records → Carries r records)
    (other : label ≠ .swap) (taken : Takes m label next) : Stored next path r := by
  obtain ⟨publish, join, launch⟩ := inv.steady running taken
  obtain ⟨key, pair⟩ := target_step taken ⟨publish, other, join⟩
  have samePath : next.filePath = m.filePath := congrArg Target.path pair
  have settled : ¬ Between next.control → ¬ Between m.control :=
    fun settled between => settled (between_step between other taken)
  refine ⟨inv.covers_takes switching fits taken r lasts stored.covered,
    stored.file_takes switching flushed key pair settled taken, ?_, ?_, ?_⟩
  · intro target records last writing here
    rcases writing_step taken writing with before | ⟨_, _, _, now, same, snapshot⟩
    · exact stored.writing target records last before here
    · subst same
      rw [snapshot]
      exact inv.snapshot_carries lasts switching.2.2.2 stored.covered
  · intro calm had here target carried there
    rw [key] at had
    rw [samePath] at here
    rw [pair]
    rcases flight_step taken carried with before | ⟨_, current⟩
    · exact stored.flight (settled calm) had here target before there
    · exact current
  · intro target starting loading
    rcases loading_step taken loading with before | publishing | swapping
    · exact stored.unloaded target starting before
    · exact absurd publishing publish
    · exact absurd swapping other

theorem Stored.swap (stored : Stored m path r) (taken : Takes m .swap next) :
    Due next path r ∨ Stored next path r := by
  obtain ⟨file, present, carried, _⟩ := stored.file
  obtain ⟨hadKey, oldPath, resolved, _, rfl⟩ := swap_cases taken
  cases resolved with
  | some target =>
    by_cases here : target.path = path
    · left
      refine ⟨rfl, here, ?_, fun _ => .inl rfl⟩
      change ¬ Between (if !hadKey || target.path ≠ oldPath then .loading target false else .idle)
      split_ifs <;> exact id
    · right
      refine ⟨stored.covered, ⟨file, present, carried, fun _ _ selected => absurd selected here⟩, stored.writing,
        fun _ _ selected => absurd selected here, ?_⟩
      intro target' starting loading
      change (if !hadKey || target.path ≠ oldPath then ControlPc.loading target false else .idle) = _ at loading
      split_ifs at loading
      cases loading
      exact here
  | none =>
    right
    refine ⟨stored.covered, ⟨file, present, carried, ?_⟩, stored.writing, ?_, ?_⟩
    · intro _ had
      cases had
    · intro _ had
      cases had
    · intro _ _ loading
      cases loading

theorem Reaches.covered (reaches : Reaches m selected r)
    (away : ∀ target starting, m.control ≠ .loading target starting)
    (past : ∀ rest notifying starting, m.control ≠ .applying rest notifying starting) : Covers m.store r := by
  rcases reaches with covered | ⟨⟨starting, loading⟩, _⟩ | ⟨rest, notifying, starting, applying, _⟩
  · exact covered
  · exact absurd loading (away selected starting)
  · exact absurd applying (past rest notifying starting)

theorem Switched.takes (switched : Switched m selected r) (inv : Sound nowEnd ttlMs m)
    (switching : Switching nowEnd label) (fits : SwitchFits m label) (lasts : Lasts nowEnd ttlMs r)
    (taken : Takes m label next) : Switched next selected r := by
  have reaches := switched.reaches.takes inv switching fits lasts taken
  obtain ⟨_, join, _⟩ := inv.steady switched.running taken
  refine ⟨running_step switched.running join taken, reaches, ?_, ?_⟩
  · intro old records flushing
    rcases flushing_step taken flushing with before | ⟨phase, _, _, now, same, snapshot⟩
    · exact switched.flushed old records before
    · subst same
      rw [snapshot]
      apply inv.snapshot_carries lasts switching.2.2.2
      apply switched.reaches.covered <;> intros <;> rw [phase] <;> nofun
  · by_cases swap : label = .swap
    · subst swap
      obtain ⟨hadKey, oldPath, resolved, phase, _⟩ := swap_cases taken
      rcases switched.file with due | stored
      · refine absurd ?_ due.settled
        rw [phase]
        trivial
      · exact stored.swap taken
    · rcases switched.file with due | stored
      · apply due.takes inv switching fits lasts switched.running _ swap taken
        intro old records flushing
        refine ⟨?_, switched.flushed old records flushing⟩
        apply switched.reaches.covered <;> intros <;> rw [flushing] <;> nofun
      · exact .inr (stored.takes inv switching fits lasts switched.running switched.flushed swap taken)

theorem Awaiting.swap {hadKey : Bool} {oldPath : Bytes} (awaiting : Awaiting m selected r)
    (inv : Sound nowEnd ttlMs m) (phase : m.control = .swapping hadKey oldPath (some selected))
    (taken : Takes m .swap next) : Switched next selected r := by
  have sound := inv.control
  rw [phase] at sound
  obtain ⟨_, had, old⟩ := sound
  obtain ⟨_, _, _, here, rfl⟩ := swap_cases taken
  cases phase.symm.trans here
  refine ⟨awaiting.running, ?_, ?_, .inl ⟨rfl, rfl, ?_, fun _ => .inl rfl⟩⟩
  · rcases awaiting.kept with covered | ⟨intact, unselected, _⟩
    · exact .inl covered
    · have fresh : (!hadKey || selected.path ≠ oldPath) = true := by
        rw [had, old]
        cases key : m.haveKey with
        | false => rfl
        | true => simpa using (unselected key).symm
      exact .inr (.inl ⟨⟨false, if_pos fresh⟩, intact⟩)
  · intro _ _ flushing
    change (if !hadKey || selected.path ≠ oldPath then ControlPc.loading selected false else .idle) = _
      at flushing
    split_ifs at flushing
  · change ¬ Between (if !hadKey || selected.path ≠ oldPath then .loading selected false else .idle)
    split_ifs <;> exact id

/-- From the resolution on: the new pair is still to come into effect, or it has. -/
def Changing (m : Runtime) (selected : Target) (r : RegisterRecord) : Prop :=
  Awaiting m selected r ∧ (∃ hadKey oldPath, m.control = .swapping hadKey oldPath (some selected)) ∨
    Switched m selected r

theorem Changing.takes (changing : Changing m selected r) (inv : Sound nowEnd ttlMs m)
    (switching : Switching nowEnd label) (fits : SwitchFits m label) (lasts : Lasts nowEnd ttlMs r)
    (taken : Takes m label next) : Changing next selected r := by
  rcases changing with ⟨awaiting, hadKey, oldPath, phase⟩ | switched
  · by_cases swap : label = .swap
    · subst swap
      exact .inr (awaiting.swap inv phase taken)
    · left
      refine ⟨awaiting.takes inv switching fits lasts ?_ swap taken, hadKey, oldPath,
        swapping_step phase swap taken⟩
      intro target starting loading
      cases phase.symm.trans loading
  · exact .inr (switched.takes inv switching fits lasts taken)

theorem awaiting_of_idle (inv : Sound nowEnd ttlMs m) (idle : m.control = .idle) (running : m.running = true)
    (intact : Intact m selected r) (lasts : Lasts nowEnd ttlMs r) : Awaiting m selected r := by
  refine ⟨running, ?_⟩
  have loaded : Held nowEnd ttlMs m selected.path → Covers m.store r := by
    intro held
    obtain ⟨file, records, present, read, member⟩ := intact
    rcases held file present r ((mem_load read).mp member).1 lasts with covered | arriving
    · exact covered
    · rw [idle] at arriving
      cases arriving
  -- a group that is selected, or being saved, has been loaded before
  by_cases selectedNow : m.haveKey = true ∧ m.filePath = selected.path
  · exact .inl (loaded (selectedNow.2 ▸ inv.file selectedNow.1))
  by_cases carried : ∃ target, inFlight m.writer = some target ∧ target.path = selected.path
  · obtain ⟨target, flight, here⟩ := carried
    exact .inl (loaded (here ▸ inv.flight target flight))
  · exact .inr ⟨intact, fun key here => selectedNow ⟨key, here⟩,
      fun target flight here => carried ⟨target, flight, here⟩⟩

theorem Unresolved.away (unresolved : Unresolved m.control) (target : Target) (starting : Bool) :
    m.control ≠ .loading target starting := by
  intro loading
  rw [loading] at unresolved
  cases unresolved

theorem Unresolved.not_swap (unresolved : Unresolved m.control) (taken : Takes m label next) : label ≠ .swap := by
  intro same
  subst same
  obtain ⟨_, _, _, phase, _⟩ := swap_cases taken
  rw [phase] at unresolved
  cases unresolved

theorem keyChanged_step (running : m.running = true) (taken : Takes m .keyChanged next) :
    Unresolved next.control := by
  cases taken with
  | keyChanged _ _ => trivial
  | _ => simp_all [AtLoopTop]

theorem resolve_step {resolved : Option Target} (unresolved : Unresolved m.control)
    (taken : Takes m (.resolve resolved) next) :
    ∃ hadKey oldPath, next.control = .swapping hadKey oldPath resolved := by
  cases taken with
  | rekeyed hadKey oldPath _ _ => exact ⟨hadKey, oldPath, rfl⟩
  | resolved _ phase =>
    rw [phase] at unresolved
    cases unresolved
  | unresolved phase =>
    rw [phase] at unresolved
    cases unresolved
  | _ => simp_all [AtLoopTop]

theorem Selects.changing {before after : Runtime}
    (selects : Selects (fun m label => Switching nowEnd label ∧ SwitchFits m label) before selected after)
    (inv : Sound nowEnd ttlMs before) (intact : Intact before selected r) (lasts : Lasts nowEnd ttlMs r) :
    Sound nowEnd ttlMs after ∧ Changing after selected r := by
  obtain ⟨idle, running, labels, resolving, path, resolved⟩ := selects
  have awaiting := awaiting_of_idle inv idle running intact lasts
  cases path with
  | cons ok taken rest =>
    have call := takes_of_step taken
    have away : ∀ target starting, before.control ≠ .loading target starting := by
      intro target starting loading
      cases idle.symm.trans loading
    have reached := rest.invariant
      (fun m => Sound nowEnd ttlMs m ∧ Awaiting m selected r ∧ Unresolved m.control)
      (fun _ _ _ inv ok taken =>
        have took := takes_of_step taken
        ⟨inv.1.takes ok.1.1 ok.1.2 took,
          inv.2.1.takes inv.1 ok.1.1 ok.1.2 lasts inv.2.2.away (inv.2.2.not_swap took) took,
          unresolved_step inv.2.2 ok.2 took⟩)
      ⟨inv.takes ok.1.1 ok.1.2 call, awaiting.takes inv ok.1.1 ok.1.2 lasts away nofun call,
        keyChanged_step running call⟩
    obtain ⟨sound, awaiting, unresolved⟩ := reached
    have returns := takes_of_step resolved
    have switching : Switching nowEnd (.resolve (some selected)) := by
      refine ⟨nofun, nofun, nofun, ?_⟩
      exact UInt64.zero_le
    refine ⟨sound.takes switching trivial returns, .inl ⟨?_, resolve_step unresolved returns⟩⟩
    exact awaiting.takes sound switching trivial lasts unresolved.away nofun returns

theorem Switched.preserved (switched : Switched m selected r) (quiescent : Quiescent m) :
    Preserved m selected.path r := by
  obtain ⟨idle, pending, clean, waiting⟩ := quiescent
  have covered : Covers m.store r := by
    apply switched.reaches.covered <;> intros <;> rw [idle] <;> nofun
  have calm : ¬ Between m.control := by
    rw [idle]
    exact id
  rcases switched.file with due | stored
  · rcases due.marked covered with dirty | some | notifying | busy
    · cases clean.symm.trans dirty
    · omega
    · rw [idle] at notifying
      cases notifying
    · rw [Busy, waiting] at busy
      cases busy
  · obtain ⟨file, present, carried, sealed⟩ := stored.file
    exact ⟨covered, file, present, carried, sealed calm⟩

/-- In every run of key changes among store changes and saves that fit, no saved record is lost. -/
theorem group_switch_preserves_registers (localHost : HostId) (ttlMs : UInt64) (maxCount maxValueBytes : Nat)
    (floor : Hlc) (disk : Bytes → Option SavedFile) :
    SwitchPreserves SwitchFits
      ((RegisterStore.create localHost ttlMs maxCount maxValueBytes).seedClockFloor floor) disk := by
  intro nowEnd earlier later before after m selected r allowed first selects second quiescent intact alive
  have lasts : Lasts nowEnd ttlMs r := intact.lasts alive
  have start : Sound nowEnd ttlMs before :=
    first.invariant (Sound nowEnd ttlMs) (fun _ _ _ inv ok taken => inv.takes ok.1 ok.2 (takes_of_step taken))
      (sound_boot localHost maxCount maxValueBytes floor disk)
  have both := second.invariant (fun m => Sound nowEnd ttlMs m ∧ Changing m selected r)
    (fun _ _ _ inv ok taken =>
      have took := takes_of_step taken
      ⟨inv.1.takes ok.1 ok.2 took, inv.2.takes inv.1 ok.1 ok.2 lasts took⟩)
    (selects.changing start intact lasts)
  rcases both.2 with ⟨_, hadKey, oldPath, phase⟩ | switched
  · cases quiescent.1.symm.trans phase
  · exact switched.preserved quiescent

namespace TwoGroups

open RuntimeSample (store)

def old : Target where
  path := [0x61]
  key := repeatedByte kSealKeyBytes 1
def group : Target where
  path := [0x62]
  key := repeatedByte kSealKeyBytes 2

def kept : RegisterRecord where
  name := [0x72]
  value := [0x76]
  written := { wallMs := 50, counter := 0 }
  touched := { wallMs := 50, counter := 0 }
  originHostId := HostId.zero
  flags := 0

def file : SavedFile := { key := group.key, records := [kept] }
def disk : Bytes → Option SavedFile := Function.update (fun _ => none) group.path (some file)

def launch : List RuntimeLabel := [.start, .resolve (some old), .publish, .read false, .loaded, .launch]
def flush : List RuntimeLabel := [.keyChanged, .capture, .flushSnapshot 100, .flushWrite true]

def launched : Runtime := lastOf Runtime.step (.boot store disk) launch
def flushed : Runtime := lastOf Runtime.step launched flush
def swapping : Runtime := lastOf Runtime.step flushed [.resolve (some group)]

def reload : List RuntimeLabel :=
  [.swap, .read false, .apply 100, .notifyApplied, .loaded, .wake, .debounced, .saveSnapshot 100]
def reloaded : Runtime := lastOf Runtime.step swapping reload
def settled : Runtime := lastOf Runtime.step (lastOf Runtime.step reloaded [.saveWrite true]) [.relock]

def burst : List RuntimeLabel := launch ++ [.mutate (.upsert (.all 100) [0x6B] [0x6E] 0 HostId.zero), .notify, .wake]
def waiting : Runtime := lastOf Runtime.step (.boot store disk) burst
def leaving : Runtime := lastOf Runtime.step waiting flush
def taken : Runtime := lastOf Runtime.step leaving [.resolve (some group)]

/-- The debounce ends right after the swap: the save comes before the load. -/
def earlySave : List RuntimeLabel :=
  [.swap, .debounced, .saveSnapshot 100, .saveWrite true, .read false, .apply 100, .loaded, .relock]
def lost : Runtime := lastOf Runtime.step taken earlySave

end TwoGroups

open TwoGroups in
open RuntimeSample (store) in
theorem reloaded_group_file_preserved : Preserved settled group.path kept := by
  have launching : Path Runtime.step (fun m label => Switching 100 label ∧ SwitchFits m label)
      (.boot store disk) launch launched := by
    apply path_to_lastOf
    · simp [launch, Switching, SwitchFits, readingOf]
    · decide +kernel
  have flushing : Path Runtime.step
      (fun m label => (Switching 100 label ∧ SwitchFits m label) ∧ ∀ result, label ≠ .resolve result)
      launched flush flushed := by
    apply path_to_lastOf
    · simp [flush, Switching, SwitchFits, readingOf]
    · decide +kernel
  have selects : Selects (fun m label => Switching 100 label ∧ SwitchFits m label) launched group swapping :=
    ⟨by decide +kernel, by decide +kernel, flush.tail, flushed, flushing, step_lastOf (by decide +kernel)⟩
  have reloading : Path Runtime.step (fun m label => Switching 100 label ∧ SwitchFits m label)
      swapping reload reloaded := by
    apply path_to_lastOf
    · simp [reload, Switching, SwitchFits, readingOf]
    · decide +kernel
  have idle : reloaded.control = .idle := by decide +kernel
  have elsewhere : SwitchFits reloaded (.saveWrite true) := by
    intro target records last loaded starting _ loading
    cases idle.symm.trans loading
  have saving : Path Runtime.step (fun m label => Switching 100 label ∧ SwitchFits m label)
      reloaded ([.saveWrite true] ++ [.relock]) settled := by
    apply Path.append
    · exact step_to_lastOf ⟨by decide, elsewhere⟩ (by decide +kernel)
    · exact step_to_lastOf ⟨by decide, trivial⟩ (by decide +kernel)
  have quiescent : Quiescent settled :=
    ⟨by decide +kernel, by decide +kernel, by decide +kernel, by decide +kernel⟩
  have intact : Intact launched group kept :=
    ⟨file, [kept], by decide +kernel, by decide +kernel, List.mem_singleton.mpr rfl⟩
  exact group_switch_preserves_registers HostId.zero RegisterStore.kDefaultTtlMs 8 8 {} disk 100 launch _
    launched swapping settled group kept launching selects (reloading.append saving) quiescent intact
    (by decide +kernel)

open TwoGroups in
open RuntimeSample (store) in
/-- A save that slips in between the swap and the load destroys the file of the group. -/
theorem early_save_destroys_group_file : ¬ SwitchPreserves (fun _ _ => True) store disk := by
  intro preserves
  have bursting : Path Runtime.step (fun _ label => Switching 100 label ∧ True) (.boot store disk) burst waiting := by
    apply path_to_lastOf
    · exact fun label member _ => ⟨by revert label; decide +kernel, trivial⟩
    · decide +kernel
  have flushing : Path Runtime.step
      (fun _ label => (Switching 100 label ∧ True) ∧ ∀ result, label ≠ .resolve result)
      waiting flush leaving := by
    apply path_to_lastOf
    · exact fun label member _ => ⟨⟨by revert label; decide +kernel, trivial⟩, by revert label; simp [flush]⟩
    · decide +kernel
  have selects : Selects (fun _ label => Switching 100 label ∧ True) waiting group taken :=
    ⟨by decide +kernel, by decide +kernel, flush.tail, leaving, flushing, step_lastOf (by decide +kernel)⟩
  have saving : Path Runtime.step (fun _ label => Switching 100 label ∧ True) taken earlySave lost := by
    apply path_to_lastOf
    · exact fun label member _ => ⟨by revert label; decide +kernel, trivial⟩
    · decide +kernel
  have quiescent : Quiescent lost := ⟨by decide +kernel, by decide +kernel, by decide +kernel, by decide +kernel⟩
  have intact : Intact waiting group kept :=
    ⟨file, [kept], by decide +kernel, by decide +kernel, List.mem_singleton.mpr rfl⟩
  obtain ⟨⟨q, found, _⟩, _⟩ := preserves 100 burst earlySave waiting taken lost group kept bursting selects saving
    quiescent intact (by decide +kernel)
  have missing : lost.store.records.find kept.name = none := by decide +kernel
  cases missing.symm.trans found

end ClippProof.Persistence
