import Clipp.Persistence.RuntimeSteps

open Foundation

namespace ClippProof.Persistence

open ClippModel.Registers ClippModel.Persistence SealedSnapshot

variable {m next : Runtime} {label : RuntimeLabel} {target : Target} {resolved : Option Target}

def latest (resolved : Option Target) : RuntimeLabel → Option Target
  | .resolve result => result
  | _ => resolved

structure Watched where
  runtime : Runtime
  resolved : Option Target

def Watched.boot (store : RegisterStore) (disk : Bytes → Option SavedFile) : Watched where
  runtime := .boot store disk
  resolved := none

def Watched.step (w : Watched) (label : RuntimeLabel) : Option Watched :=
  (w.runtime.step label).map (fun next => { runtime := next, resolved := latest w.resolved label })

def writesTo (m : Runtime) : RuntimeLabel → Option Target
  | .saveWrite true =>
    match m.writer with
    | .writing target _ _ => some target
    | _ => none
  | .flushWrite true =>
    match m.control with
    | .flushWriting old _ => some old
    | _ => none
  | _ => none

/-- In every run, whatever is written is written under the latest resolution and a real key. -/
def WritesUnderOwnKey (ok : Watched → RuntimeLabel → Prop) (store : RegisterStore)
    (disk : Bytes → Option SavedFile) : Prop :=
  ∀ (labels : List RuntimeLabel) (w : Watched), Path Watched.step ok (.boot store disk) labels w →
    ∀ (label : RuntimeLabel) (target : Target), ok w label → writesTo w.runtime label = some target →
      w.resolved = some target ∧ target.key ≠ zeroKey

/-- A resolution yields a real key, or fails in a start that finds no key left over; it changes
    nothing for a save under way; and the writer takes no pair along that is about to be replaced. -/
def KeyFits (w : Watched) : RuntimeLabel → Prop
  | .resolve result =>
    (∀ target, result = some target → target.key ≠ zeroKey) ∧
    (w.runtime.control = .resolving → result = none → w.runtime.haveKey = false) ∧
    ∀ target, inFlight w.runtime.writer = some target → result = some target
  | .debounced => w.runtime.haveKey = true → ∀ hadKey oldPath result,
      w.runtime.control = .swapping hadKey oldPath result → result = some w.runtime.target
  | _ => True

/-- The globals hold what the latest resolution returned, as far as they claim to hold a key. -/
def Current (resolved : Option Target) (m : Runtime) : Prop :=
  m.haveKey = true → resolved = some m.target

def ControlPaired (resolved : Option Target) (running : Bool) (current : Prop) : ControlPc → Prop
  | .idle => running = true → current
  | .resolving => running = false
  | .publishing target => running = false ∧ resolved = some target
  | .flushing old => resolved = some old ∧ current
  | .flushWriting old _ => resolved = some old ∧ current
  | .swapping _ _ result => resolved = result
  | _ => current

structure Paired (resolved : Option Target) (m : Runtime) : Prop where
  key : ∀ target, resolved = some target → target.key ≠ zeroKey
  writer : ∀ target, inFlight m.writer = some target → resolved = some target
  alone : m.running = false → m.writer = .absent
  stopped : m.stop = true → m.running = true → m.control = .joining
  control : ControlPaired resolved m.running (Current resolved m) m.control

theorem paired_boot (store : RegisterStore) (disk : Bytes → Option SavedFile) :
    Paired none (.boot store disk) where
  key _ impossible := by cases impossible
  writer _ impossible := by cases impossible
  alone _ := rfl
  stopped impossible := by cases impossible
  control running := by cases running

theorem Paired.running_of_writer (inv : Paired resolved m) (there : m.writer ≠ .absent) : m.running = true := by
  rw [← Bool.not_eq_false]
  exact fun off => there (inv.alone off)

theorem Paired.current (inv : Paired resolved m) (running : m.running = true)
    (settled : ∀ hadKey oldPath result, m.control ≠ .swapping hadKey oldPath result) : Current resolved m := by
  have paired := inv.control
  cases phase : m.control <;> rw [phase] at paired
  case idle => exact paired running
  case resolving => cases running.symm.trans paired
  case publishing => cases running.symm.trans paired.1
  case flushing => exact paired.2
  case flushWriting => exact paired.2
  case swapping => exact absurd phase (settled _ _ _)
  all_goals exact paired

theorem latest_of_loopTop (top : AtLoopTop m label) : latest resolved label = resolved := by
  rcases top with ⟨rfl, _⟩ | ⟨rfl, _⟩ <;> rfl

theorem Paired.elsewhere {goal : Prop} {control : ControlPc} (inv : Paired resolved m)
    (phase : m.control = control) (other : control ≠ .joining) :
    m.stop = true → m.running = true → goal :=
  fun stop running => absurd (phase.symm.trans (inv.stopped stop running)) other

/-- A step of the control thread that leaves alone the writer and the flags that end it. -/
theorem Paired.goOn {control : ControlPc} (inv : Paired resolved m) (phase : m.control = control)
    (other : control ≠ .joining) (writer : next.writer = m.writer) (stop : next.stop = m.stop)
    (running : next.running = m.running)
    (paired : ControlPaired resolved m.running (Current resolved m) control →
      ControlPaired resolved next.running (Current resolved next) next.control) : Paired resolved next where
  key := inv.key
  writer target carried := inv.writer target (writer ▸ carried)
  alone off := writer.trans (inv.alone (running.symm.trans off))
  stopped halted going := inv.elsewhere phase other (stop.symm.trans halted) (running.symm.trans going)
  control := paired (phase ▸ inv.control)

/-- A step of the writer, which carries no pair but the one resolved last. -/
theorem Paired.writerGoesOn {after : WriterPc} {dirty : Bool} {store : RegisterStore} {disk : Bytes → Option SavedFile}
    (inv : Paired resolved m) (there : m.writer ≠ .absent)
    (carries : ∀ target, inFlight after = some target → resolved = some target) :
    Paired resolved { m with dirty := dirty, store := store, disk := disk, writer := after } :=
  ⟨inv.key, carries, fun off => absurd (inv.alone off) there, inv.stopped, inv.control⟩

theorem Paired.resolves {w : Watched} {result : Option Target} {after : ControlPc}
    (inv : Paired w.resolved w.runtime) (fits : KeyFits w (.resolve result)) (other : w.runtime.control ≠ .joining)
    (paired : ControlPaired result w.runtime.running (Current result w.runtime) after) :
    Paired result { w.runtime with control := after } :=
  ⟨fits.1, fits.2.2, inv.alone, inv.elsewhere rfl other, paired⟩

theorem Paired.launch (inv : Paired resolved m) (phase : m.control = .launching) :
    Paired resolved { m with
      listenerArmed := true, running := true, stop := false, writer := .waiting, control := .idle } where
  key := inv.key
  writer target carried := by cases carried
  alone off := by cases off
  stopped halted := by cases halted
  control := by
    have paired := inv.control
    rw [phase] at paired
    exact fun _ => paired

theorem Paired.swap {hadKey : Bool} {oldPath : Bytes} (inv : Paired resolved m)
    (phase : m.control = .swapping hadKey oldPath (some target)) :
    Paired resolved { m with
      haveKey := true, filePath := target.path, sealKey := target.key, dirty := true
      control := if !hadKey || target.path ≠ oldPath then .loading target false else .idle } := by
  refine inv.goOn phase nofun rfl rfl rfl ?_
  intro current
  dsimp only
  split_ifs
  · exact fun _ => current
  · exact fun _ _ => current

theorem Paired.join (inv : Paired resolved m) (absent : m.writer = .absent) :
    Paired resolved { m with running := false, sealKey := zeroKey, control := .idle } where
  key := inv.key
  writer := inv.writer
  alone _ := absent
  stopped _ running := by cases running
  control running := by cases running

theorem Paired.finalFlush (inv : Paired resolved m) (there : m.writer ≠ .absent) (stopped : m.stop = true)
    (key : m.haveKey = true) : Paired resolved { m with writer := .saving m.target true } := by
  have running := inv.running_of_writer there
  have joining := inv.stopped stopped running
  have current : resolved = some m.target :=
    inv.current running (fun _ _ _ swapping => by cases joining.symm.trans swapping) key
  exact inv.writerGoesOn there (fun target carried => current.trans carried)

theorem Paired.debounced {w : Watched} (inv : Paired w.resolved w.runtime) (fits : KeyFits w .debounced)
    (at_ : w.runtime.writer = .debouncing) (key : w.runtime.haveKey = true) :
    Paired w.resolved { w.runtime with dirty := false, writer := .saving w.runtime.target false } := by
  have there : w.runtime.writer ≠ .absent := by simp [at_]
  have current : w.resolved = some w.runtime.target := by
    by_cases swapping : ∃ hadKey oldPath result, w.runtime.control = .swapping hadKey oldPath result
    · obtain ⟨hadKey, oldPath, result, phase⟩ := swapping
      have paired := inv.control
      rw [phase] at paired
      exact Eq.trans paired (fits key hadKey oldPath result phase)
    · exact inv.current (inv.running_of_writer there)
        (fun hadKey oldPath result phase => swapping ⟨hadKey, oldPath, result, phase⟩) key
  exact inv.writerGoesOn there (fun target carried => current.trans carried)

theorem Paired.saveWrite {succeeded last : Bool} {records : List RegisterRecord} (inv : Paired resolved m)
    (at_ : m.writer = .writing target records last) :
    Paired resolved { m with
      disk := m.saved target records succeeded, writer := if last then .absent else .returning } := by
  apply inv.writerGoesOn (by simp [at_])
  intro carried same
  cases last <;> cases same

theorem Paired.takes {w : Watched} (inv : Paired w.resolved w.runtime) (fits : KeyFits w label)
    (taken : Takes w.runtime label next) : Paired (latest w.resolved label) next := by
  cases taken with
  | refused _ idle call =>
    have same : latest w.resolved label = w.resolved := by
      rcases call with ⟨rfl, _⟩ | ⟨rfl | rfl, _⟩ <;> rfl
    rw [same]
    exact inv
  | start idle off => exact inv.goOn idle nofun rfl rfl rfl (fun _ => off)
  | keyChanged idle running => exact inv.goOn idle nofun rfl rfl rfl (fun current => current running)
  | stop idle running => exact inv.goOn idle nofun rfl rfl rfl (fun current => current running)
  | resolved target phase =>
    have off := inv.control
    rw [phase] at off
    exact inv.resolves fits (by simp [phase]) ⟨off, rfl⟩
  | unresolved phase =>
    have keyless := fits.2.1 phase rfl
    exact inv.resolves fits (by simp [phase]) (fun key => by cases keyless.symm.trans key)
  | rekeyed hadKey oldPath result phase => exact inv.resolves fits (by simp [phase]) rfl
  | publish target phase => exact inv.goOn phase nofun rfl rfl rfl (fun paired _ => paired.2)
  | noFile target starting failed phase _ => exact inv.goOn phase nofun rfl rfl rfl id
  | corrupt target starting failed file phase _ _ => exact inv.goOn phase nofun rfl rfl rfl id
  | read target starting file records phase _ _ => exact inv.goOn phase nofun rfl rfl rfl id
  | apply now r rest starting phase => exact inv.goOn phase nofun rfl rfl rfl id
  | notifyApplied rest starting phase => exact inv.goOn phase nofun rfl rfl rfl id
  | loaded starting phase =>
    cases starting with
    | true => exact inv.goOn phase nofun rfl rfl rfl id
    | false => exact inv.goOn phase nofun rfl rfl rfl (fun current _ => current)
  | launch phase => exact inv.launch phase
  | capture phase key => exact inv.goOn phase nofun rfl rfl rfl (fun current => ⟨current key, current⟩)
  | captureNone phase _ => exact inv.goOn phase nofun rfl rfl rfl id
  | flushSnapshot now old phase _ => exact inv.goOn phase nofun rfl rfl rfl id
  | flushWrite succeeded old records phase => exact inv.goOn phase nofun rfl rfl rfl And.right
  | swap hadKey oldPath target phase => exact inv.swap phase
  | swapNone hadKey oldPath phase => exact inv.goOn phase nofun rfl rfl rfl (fun _ _ key => by cases key)
  | halt phase =>
    have paired := inv.control
    rw [phase] at paired
    exact ⟨inv.key, inv.writer, inv.alone, fun _ _ => rfl, paired⟩
  | join phase absent => exact inv.join absent
  | finalFlush _ top stopped dirty key =>
    rw [latest_of_loopTop top]
    exact inv.finalFlush (there_of_loopTop top) stopped key
  | leave _ top _ _ =>
    rw [latest_of_loopTop top]
    exact ⟨inv.key, nofun, fun _ => rfl, inv.stopped, inv.control⟩
  | absorbBurst _ top _ _ =>
    rw [latest_of_loopTop top]
    exact inv.writerGoesOn (there_of_loopTop top) nofun
  | waitAgain at_ _ _ => exact inv.writerGoesOn (by simp [at_]) nofun
  | debounced at_ key => exact inv.debounced fits at_ key
  | unpaired at_ _ =>
    apply inv.writerGoesOn (by simp [at_])
    intro target carried
    split_ifs at carried <;> cases carried
  | saveSnapshot now target last at_ _ =>
    apply inv.writerGoesOn (by simp [at_])
    intro carried same
    exact inv.writer carried (by rw [at_]; exact same)
  | saveWrite succeeded target records last at_ => exact inv.saveWrite at_
  | mutate op => exact ⟨inv.key, inv.writer, inv.alone, inv.stopped, inv.control⟩
  | observe now => exact ⟨inv.key, inv.writer, inv.alone, inv.stopped, inv.control⟩
  | notify _ => exact ⟨inv.key, inv.writer, inv.alone, inv.stopped, inv.control⟩

theorem Paired.step {w after : Watched} (inv : Paired w.resolved w.runtime) (fits : KeyFits w label)
    (taken : w.step label = some after) : Paired after.resolved after.runtime := by
  obtain ⟨next, went, rfl⟩ := Option.map_eq_some_iff.mp taken
  exact inv.takes fits (takes_of_step went)

theorem Paired.write {w : Watched} (inv : Paired w.resolved w.runtime)
    (wrote : writesTo w.runtime label = some target) : w.resolved = some target := by
  cases label with
  | saveWrite succeeded =>
    cases at_ : w.runtime.writer <;> cases succeeded <;> simp only [writesTo, at_] at wrote <;> cases wrote
    exact inv.writer target (by rw [at_]; rfl)
  | flushWrite succeeded =>
    have paired := inv.control
    cases phase : w.runtime.control <;> cases succeeded <;> simp only [writesTo, phase] at wrote <;>
      cases wrote
    rw [phase] at paired
    exact paired.1
  | _ => cases wrote

/-- In every run whose resolutions fit, each file is written under the pair resolved last. -/
theorem register_file_written_under_own_key (store : RegisterStore) (disk : Bytes → Option SavedFile) :
    WritesUnderOwnKey KeyFits store disk := by
  intro labels w path label target _ wrote
  have inv : Paired w.resolved w.runtime :=
    path.invariant (fun w => Paired w.resolved w.runtime) (fun _ _ _ inv fits taken => inv.step fits taken)
      (paired_boot store disk)
  have current := inv.write wrote
  exact ⟨current, inv.key target current⟩

namespace PairedSessions

open RuntimeSample

def session : List RuntimeLabel :=
  [.publish, .read false, .loaded, .launch, .mutate (.upsert (.all 100) [0x6B] [0x6E] 0 HostId.zero), .notify, .wake]

def booted : Watched := .boot store (fun _ => none)
def starting : Watched := lastOf Watched.step booted [.start]
def paired : Watched := lastOf Watched.step starting [.resolve (some group)]
def awake : Watched := lastOf Watched.step paired session
def saving : Watched := lastOf Watched.step (lastOf Watched.step awake [.debounced]) [.saveSnapshot 100]

/-- A paired session is stopped, the key is gone at the next start, and a register changes. -/
def labels : List RuntimeLabel :=
  [.start, .resolve (some group), .publish, .read false, .loaded, .launch, .stop, .halt, .wake, .join,
   .start, .resolve none, .launch, .mutate (.upsert (.all 100) [0x6B] [0x6E] 0 HostId.zero), .notify,
   .wake, .debounced, .saveSnapshot 100]

end PairedSessions

open PairedSessions RuntimeSample in
theorem register_file_of_session_under_own_key : saving.resolved = some group ∧ group.key ≠ zeroKey := by
  have start : Path Watched.step KeyFits booted [.start] starting :=
    step_to_lastOf trivial (by decide +kernel)
  have resolve : Path Watched.step KeyFits starting [.resolve (some group)] paired := by
    refine step_to_lastOf ⟨?_, nofun, ?_⟩ (by decide +kernel)
    · intro target same
      cases same
      decide +kernel
    · intro target carried
      cases carried
  have run : Path Watched.step KeyFits paired session awake :=
    path_to_lastOf (by simp [session, KeyFits]) (by decide +kernel)
  have settled : awake.runtime.control = .idle := by decide +kernel
  have save : Path Watched.step KeyFits awake ([.debounced] ++ [.saveSnapshot 100]) saving := by
    apply Path.append
    · apply step_to_lastOf _ (by decide +kernel)
      intro _ hadKey oldPath result phase
      cases settled.symm.trans phase
    · exact step_to_lastOf trivial (by decide +kernel)
  exact register_file_written_under_own_key store (fun _ => none) _ saving
    (((start.append resolve).append run).append save) (.saveWrite true) group trivial (by decide +kernel)

open PairedSessions RuntimeSample in
/-- After a failed restart the writer seals the old group's file with the wiped key. -/
theorem failed_restart_writes_under_wiped_key : ¬ WritesUnderOwnKey (fun _ _ => True) store (fun _ => none) := by
  intro own
  have run : (runLabels Watched.step (.boot store (fun _ => none)) labels).map
      (fun w => writesTo w.runtime (.saveWrite true)) = some (some { group with key := zeroKey }) := by
    decide +kernel
  obtain ⟨w, ran, wrote⟩ := Option.map_eq_some_iff.mp run
  exact (own _ w (path_of_run (fun _ _ _ => trivial) ran) (.saveWrite true) _ trivial wrote).2 rfl

end ClippProof.Persistence
