import Clipp.Persistence.RuntimeEffects

open Foundation

namespace ClippProof.Persistence

open ClippModel.Registers ClippModel.Persistence SealedSnapshot ClippProof.Registers ClippProof.Wire

variable {m next : Runtime} {label : RuntimeLabel} {target : Target} {nowEnd ttlMs : UInt64} {path : Bytes}
  {q r : RegisterRecord} {file : SavedFile} {records : List RegisterRecord}

def readingOf : RuntimeLabel → UInt64
  | .apply now => now
  | .flushSnapshot now => now
  | .saveSnapshot now => now
  | .observe now => now
  | .mutate op => op.reading
  | _ => 0

/-- Key changes among store changes and saves: the session goes on, every file write succeeds, and
    no reading is past the end. -/
def Switching (nowEnd : UInt64) (label : RuntimeLabel) : Prop :=
  label ≠ .stop ∧ label ≠ .saveWrite false ∧ label ≠ .flushWrite false ∧ readingOf label ≤ nowEnd

instance (nowEnd : UInt64) (label : RuntimeLabel) : Decidable (Switching nowEnd label) :=
  inferInstanceAs (Decidable (_ ∧ _))

/-- Reads of the file work, no stamp is minted from an exhausted counter, and the writer writes no
    file that has been selected and is still to be loaded. -/
def SwitchFits (m : Runtime) : RuntimeLabel → Prop
  | .mutate op => ClockFits { store := m.store, seen := [] } op
  | .read failed => failed = false
  | .saveWrite _ => ∀ target records last loaded starting, m.writer = .writing target records last →
      m.control = .loading loaded starting → loaded.path ≠ target.path
  | _ => True

structure Lasts (nowEnd ttlMs : UInt64) (r : RegisterRecord) : Prop where
  alive : isExpired r nowEnd ttlMs = false
  named : r.name ≠ []
  caps : WithinCaps r

def CoveredBy (nowEnd ttlMs : UInt64) (s : RegisterStore) (records : List RegisterRecord) : Prop :=
  ∀ q ∈ records, Lasts nowEnd ttlMs q → Covers s q

def Coming (path : Bytes) (q : RegisterRecord) : ControlPc → Prop
  | .loading target _ => target.path = path
  | .applying rest _ _ => q ∈ rest
  | _ => False

/-- Whatever the file brings back is in the store or on its way there. -/
def Held (nowEnd ttlMs : UInt64) (m : Runtime) (path : Bytes) : Prop :=
  ∀ file, m.disk path = some file → ∀ q ∈ file.records, Lasts nowEnd ttlMs q →
    Covers m.store q ∨ Coming path q m.control

def ControlSound (nowEnd ttlMs : UInt64) (m : Runtime) : ControlPc → Prop
  | .idle => True
  | .resolving => m.running = false
  | .publishing _ => m.running = false
  | .loading target starting => m.running = !starting ∧ m.haveKey = true ∧ target = m.target
  | .applying _ _ starting => m.running = !starting
  | .launching => m.running = false
  | .capturing => m.running = true
  | .flushing old => m.running = true ∧ m.haveKey = true ∧ old = m.target
  | .flushWriting old records =>
    m.running = true ∧ m.haveKey = true ∧ old = m.target ∧ CoveredBy nowEnd ttlMs m.store records
  | .rekeying hadKey oldPath => m.running = true ∧ hadKey = m.haveKey ∧ oldPath = m.filePath
  | .swapping hadKey oldPath _ => m.running = true ∧ hadKey = m.haveKey ∧ oldPath = m.filePath
  | .stopping => False
  | .joining => False

structure Sound (nowEnd ttlMs : UInt64) (m : Runtime) : Prop where
  stamped : StampedStore m.store
  limit : m.store.ttlMs = ttlMs
  going : m.stop = false
  armed : m.running = true → m.listenerArmed = true
  control : ControlSound nowEnd ttlMs m m.control
  exclusive : ∀ target records last, m.writer = .writing target records last →
    ∀ old flushed, m.control ≠ .flushWriting old flushed
  written : ∀ target records last, m.writer = .writing target records last →
    CoveredBy nowEnd ttlMs m.store records
  file : m.haveKey = true → Held nowEnd ttlMs m m.filePath
  flight : ∀ target, inFlight m.writer = some target → Held nowEnd ttlMs m target.path

theorem sound_boot (localHost : HostId) (maxCount maxValueBytes : Nat) (floor : Hlc)
    (disk : Bytes → Option SavedFile) :
    Sound nowEnd ttlMs
      (.boot ((RegisterStore.create localHost ttlMs maxCount maxValueBytes).seedClockFloor floor) disk) where
  stamped _ _ found := by cases found
  limit := rfl
  going := rfl
  armed running := by cases running
  control := trivial
  exclusive _ _ _ impossible := by cases impossible
  written _ _ _ impossible := by cases impossible
  file impossible := by cases impossible
  flight _ impossible := by cases impossible

theorem mem_load (loaded : file.load target.key = some records) :
    q ∈ records ↔ q ∈ file.records ∧ WithinCaps q ∧ q.name ≠ [] := by
  unfold SavedFile.load readBack at loaded
  split_ifs at loaded
  cases loaded
  simp only [List.mem_filter, decide_eq_true_eq, WithinCaps, and_assoc]

theorem Takes.ascends (stamped : StampedStore m.store) (during : readingOf label ≤ nowEnd)
    (fits : SwitchFits m label) (taken : Takes m label next) : Ascends nowEnd m.store next.store := by
  have same : Ascends nowEnd m.store m.store := (Dropped.refl nowEnd m.store).ascends stamped
  cases taken with
  | apply now r rest starting _ => exact (applyRemote_ascends stamped).later during
  | flushSnapshot now _ _ _ => exact ((dropped_prune m.store now).ascends stamped).later during
  | saveSnapshot now _ _ _ _ => exact ((dropped_prune m.store now).ascends stamped).later during
  | observe now => exact ((dropped_prune m.store now).ascends stamped).later during
  | mutate op => exact (perform_ascends stamped fits).later during
  | _ => exact same

theorem pair_step (sound : ControlSound nowEnd ttlMs m m.control) (taken : Takes m label next)
    (key : next.haveKey = true) :
    m.haveKey = true ∧ next.filePath = m.filePath ∨ ∃ starting, next.control = .loading next.target starting := by
  cases taken with
  | publish target _ => exact .inr ⟨true, rfl⟩
  | swap hadKey oldPath target phase =>
    rw [phase] at sound
    obtain ⟨_, had, old⟩ := sound
    by_cases fresh : (!hadKey || target.path ≠ oldPath) = true
    · exact .inr ⟨false, if_pos fresh⟩
    · rw [Bool.or_eq_true, not_or] at fresh
      have same : target.path = oldPath := by simpa using fresh.2
      exact .inl ⟨by simpa [had] using fresh.1, same.trans old⟩
  | swapNone _ _ _ => cases key
  | _ => exact .inl ⟨key, rfl⟩

theorem Held.keep (held : Held nowEnd ttlMs m path)
    (covers : ∀ q, Lasts nowEnd ttlMs q → Covers m.store q → Covers next.store q)
    (disk : ∀ file, next.disk path = some file → m.disk path = some file)
    (coming : ∀ q, Lasts nowEnd ttlMs q → Coming path q m.control →
      Covers next.store q ∨ Coming path q next.control) : Held nowEnd ttlMs next path := by
  intro file found q member lasts
  rcases held file (disk file found) q member lasts with covered | arriving
  · exact .inl (covers q lasts covered)
  · exact coming q lasts arriving

theorem Held.save (held : Held nowEnd ttlMs m path) (covered : CoveredBy nowEnd ttlMs m.store records)
    {succeeded : Bool} (disk : next.disk = m.saved target records succeeded) (store : next.store = m.store)
    (coming : ∀ q, Coming path q m.control → Coming path q next.control) : Held nowEnd ttlMs next path := by
  intro file found q member lasts
  rw [disk] at found
  rw [store]
  rcases saved_find found with same | ⟨_, equal⟩
  · exact Or.imp_right (coming q) (held file same q member lasts)
  · rw [equal] at member
    exact .inl (covered q member lasts)

theorem Held.takes (held : Held nowEnd ttlMs m path) (inv : Sound nowEnd ttlMs m)
    (during : readingOf label ≤ nowEnd)
    (covers : ∀ q, Lasts nowEnd ttlMs q → Covers m.store q → Covers next.store q)
    (taken : Takes m label next) : Held nowEnd ttlMs next path := by
  have settled : ∀ {control : ControlPc}, m.control = control → (∀ q, ¬ Coming path q control) →
      (∀ file, next.disk path = some file → m.disk path = some file) → Held nowEnd ttlMs next path := by
    intro control phase away disk
    apply held.keep covers disk
    intro q _ arriving
    rw [phase] at arriving
    exact absurd arriving (away q)
  cases taken with
  | noFile target starting failed phase absent =>
    intro file found q member lasts
    rcases held file found q member lasts with covered | arriving
    · exact .inl covered
    · rw [phase] at arriving
      have here : target.path = path := arriving
      rw [here] at absent
      cases absent.symm.trans found
  | corrupt target starting failed file phase present _ =>
    intro kept found q member lasts
    change Function.update m.disk target.path none path = some kept at found
    by_cases here : path = target.path
    · rw [here, Function.update_self] at found
      cases found
    · rw [Function.update_of_ne here] at found
      rcases held kept found q member lasts with covered | arriving
      · exact .inl covered
      · rw [phase] at arriving
        exact absurd arriving.symm here
  | read target starting file records phase present loaded =>
    intro kept found q member lasts
    rcases held kept found q member lasts with covered | arriving
    · exact .inl covered
    · rw [phase] at arriving
      have here : target.path = path := arriving
      rw [here] at present
      cases present.symm.trans found
      exact .inr ((mem_load loaded).mpr ⟨member, lasts.caps, lasts.named⟩)
  | apply now r rest starting phase =>
    apply held.keep covers (fun _ same => same)
    intro q lasts arriving
    rw [phase] at arriving
    rcases List.mem_cons.mp arriving with same | later
    · rw [same] at lasts ⊢
      left
      apply applyRemote_covers lasts.named
      rw [inv.limit]
      exact unexpired_earlier during lasts.alive
    · exact .inr later
  | notifyApplied rest starting phase =>
    apply held.keep covers (fun _ same => same)
    intro q _ arriving
    rw [phase] at arriving
    exact .inr arriving
  | loaded starting phase => exact settled phase (fun _ => List.not_mem_nil) (fun _ same => same)
  | flushWrite succeeded old records phase =>
    have sound := inv.control
    rw [phase] at sound
    refine held.save sound.2.2.2 rfl rfl ?_
    intro q arriving
    rw [phase] at arriving
    cases arriving
  | saveWrite succeeded target records last at_ =>
    exact held.save (inv.written target records last at_) rfl rfl (fun _ arriving => arriving)
  | start phase _ => exact settled phase (fun _ => id) (fun _ same => same)
  | keyChanged phase _ => exact settled phase (fun _ => id) (fun _ same => same)
  | stop phase _ => exact settled phase (fun _ => id) (fun _ same => same)
  | resolved target phase => exact settled phase (fun _ => id) (fun _ same => same)
  | unresolved phase => exact settled phase (fun _ => id) (fun _ same => same)
  | rekeyed hadKey oldPath result phase => exact settled phase (fun _ => id) (fun _ same => same)
  | publish target phase => exact settled phase (fun _ => id) (fun _ same => same)
  | launch phase => exact settled phase (fun _ => id) (fun _ same => same)
  | capture phase _ => exact settled phase (fun _ => id) (fun _ same => same)
  | captureNone phase _ => exact settled phase (fun _ => id) (fun _ same => same)
  | flushSnapshot now old phase _ => exact settled phase (fun _ => id) (fun _ same => same)
  | swap hadKey oldPath target phase => exact settled phase (fun _ => id) (fun _ same => same)
  | swapNone hadKey oldPath phase => exact settled phase (fun _ => id) (fun _ same => same)
  | halt phase => exact settled phase (fun _ => id) (fun _ same => same)
  | join phase _ => exact settled phase (fun _ => id) (fun _ same => same)
  | _ => exact held.keep covers (fun _ same => same) (fun _ _ arriving => .inr arriving)

theorem CoveredBy.mono {s after : RegisterStore} (covered : CoveredBy nowEnd ttlMs s records)
    (covers : ∀ q, Lasts nowEnd ttlMs q → Covers s q → Covers after q) :
    CoveredBy nowEnd ttlMs after records :=
  fun q member lasts => covers q lasts (covered q member lasts)

theorem coveredBy_snapshot (s : RegisterStore) (now : UInt64) :
    CoveredBy nowEnd ttlMs s (s.snapshotForSync now).result :=
  fun _ member _ => covers_of_snapshot member

theorem ControlSound.keep {control : ControlPc} (sound : ControlSound nowEnd ttlMs m control)
    (running : next.running = m.running) (key : next.haveKey = m.haveKey) (target : next.target = m.target)
    (covers : ∀ q, Lasts nowEnd ttlMs q → Covers m.store q → Covers next.store q) :
    ControlSound nowEnd ttlMs next control := by
  have path : next.filePath = m.filePath := congrArg Target.path target
  cases control <;> simp only [ControlSound, running, key, target, path] at sound ⊢
  case flushWriting => exact ⟨sound.1, sound.2.1, sound.2.2.1, sound.2.2.2.mono covers⟩
  all_goals exact sound

theorem Sound.control_takes (inv : Sound nowEnd ttlMs m) (switching : Switching nowEnd label)
    (covers : ∀ q, Lasts nowEnd ttlMs q → Covers m.store q → Covers next.store q)
    (taken : Takes m label next) : ControlSound nowEnd ttlMs next next.control := by
  have sound := inv.control
  cases taken with
  | refused _ _ _ => exact sound
  | start _ off => exact off
  | keyChanged _ running => exact running
  | stop _ _ => exact absurd rfl switching.1
  | resolved target phase =>
    rw [phase] at sound
    exact sound
  | unresolved phase =>
    rw [phase] at sound
    exact sound
  | rekeyed hadKey oldPath result phase =>
    rw [phase] at sound
    exact sound
  | publish target phase =>
    rw [phase] at sound
    exact ⟨sound, rfl, rfl⟩
  | noFile target starting failed phase _ =>
    rw [phase] at sound
    exact sound.1
  | corrupt target starting failed file phase _ _ =>
    rw [phase] at sound
    exact sound.1
  | read target starting file records phase _ _ =>
    rw [phase] at sound
    exact sound.1
  | apply now r rest starting phase =>
    rw [phase] at sound
    exact sound
  | notifyApplied rest starting phase =>
    rw [phase] at sound
    exact sound
  | loaded starting phase =>
    rw [phase] at sound
    cases starting with
    | true => exact sound
    | false => exact trivial
  | launch _ => exact trivial
  | capture phase key =>
    rw [phase] at sound
    exact ⟨sound, key, rfl⟩
  | captureNone phase keyless =>
    rw [phase] at sound
    exact ⟨sound, keyless.symm, rfl⟩
  | flushSnapshot now old phase _ =>
    rw [phase] at sound
    exact ⟨sound.1, sound.2.1, sound.2.2, (coveredBy_snapshot m.store now).mono covers⟩
  | flushWrite succeeded old records phase =>
    rw [phase] at sound
    exact ⟨sound.1, sound.2.1.symm, congrArg Target.path sound.2.2.1⟩
  | swap hadKey oldPath target phase =>
    rw [phase] at sound
    change ControlSound nowEnd ttlMs _ (if !hadKey || target.path ≠ oldPath then .loading target false else .idle)
    split_ifs
    · exact ⟨sound.1, rfl, rfl⟩
    · exact trivial
  | swapNone _ _ _ => exact trivial
  | halt phase =>
    rw [phase] at sound
    cases sound
  | join phase _ =>
    rw [phase] at sound
    cases sound
  | _ => exact sound.keep rfl rfl rfl covers

theorem Sound.covers_takes (inv : Sound nowEnd ttlMs m) (switching : Switching nowEnd label)
    (fits : SwitchFits m label) (taken : Takes m label next) :
    ∀ q, Lasts nowEnd ttlMs q → Covers m.store q → Covers next.store q := by
  intro q lasts covered
  apply (taken.ascends inv.stamped switching.2.2.2 fits).covers q _ covered
  rw [inv.limit]
  exact lasts.alive

theorem going_step (switching : Switching nowEnd label) (inv : Sound nowEnd ttlMs m)
    (taken : Takes m label next) : next.stop = false := by
  cases taken with
  | launch _ => rfl
  | halt phase =>
    have sound := inv.control
    rw [phase] at sound
    cases sound
  | _ => exact inv.going

theorem armed_step (inv : Sound nowEnd ttlMs m) (taken : Takes m label next) (running : next.running = true) :
    next.listenerArmed = true := by
  cases taken with
  | launch _ => rfl
  | join _ _ => cases running
  | _ => exact inv.armed running

theorem exclusive_step {last : Bool} {old : Target} {flushed : List RegisterRecord} (inv : Sound nowEnd ttlMs m)
    (taken : Takes m label next) (writing : next.writer = .writing target records last) :
    next.control ≠ .flushWriting old flushed := by
  intro flushing
  rcases writing_step taken writing with before | ⟨_, free, same, _⟩
  · rcases flushing_step taken flushing with earlier | ⟨_, free, _⟩
    · exact inv.exclusive target records last before old flushed earlier
    · exact free_not_writing free before
  · rw [same] at flushing
    exact free_not_flushing free flushing

theorem Sound.takes (inv : Sound nowEnd ttlMs m) (switching : Switching nowEnd label) (fits : SwitchFits m label)
    (taken : Takes m label next) : Sound nowEnd ttlMs next := by
  have ascends := taken.ascends inv.stamped switching.2.2.2 fits
  have covers := inv.covers_takes switching fits taken
  have held : ∀ path, Held nowEnd ttlMs m path → Held nowEnd ttlMs next path :=
    fun path held => held.takes inv switching.2.2.2 covers taken
  refine ⟨ascends.stamped, ascends.ttlMs.trans inv.limit, going_step switching inv taken, armed_step inv taken,
    inv.control_takes switching covers taken, ?_, ?_, ?_, ?_⟩
  · intro target records last writing old flushed
    exact exclusive_step inv taken writing
  · intro target records last writing
    rcases writing_step taken writing with before | ⟨_, _, _, now, _, snapshot⟩
    · exact (inv.written target records last before).mono covers
    · rw [snapshot]
      exact (coveredBy_snapshot m.store now).mono covers
  · intro key
    rcases pair_step inv.control taken key with ⟨had, same⟩ | ⟨starting, loading⟩
    · rw [same]
      exact held m.filePath (inv.file had)
    · intro file _ q _ _
      right
      rw [loading]
      rfl
  · intro target carried
    rcases flight_step taken carried with before | ⟨had, current⟩
    · exact held target.path (inv.flight target before)
    · rw [current]
      exact held m.filePath (inv.file had)

end ClippProof.Persistence
