import Mathlib.Logic.Function.Basic
import Clipp.Foundation.FixedWidth
import Clipp.Foundation.Machine

open Foundation

namespace ClippModel.Settings

def originSequenceBatchSize : UInt64 := 500

/-- What the settings object of one process keeps to number the clipboard events of its device. -/
structure OriginSequence where
  originSequenceCounter : UInt64
  originSequencePersistedFloor : UInt64

namespace OriginSequence

/-- A floor that was never stored leaves the default. -/
def loadCache (stored : Option UInt64) : OriginSequence :=
  let originSequenceFloor := stored.getD 0
  { originSequenceCounter := originSequenceFloor, originSequencePersistedFloor := originSequenceFloor }

def nextOriginSequenceNumber (s : OriginSequence) : OriginSequence × UInt64 × Option UInt64 :=
  let next := s.originSequenceCounter + 1
  if s.originSequencePersistedFloor ≤ next then
    let floor := next + originSequenceBatchSize
    ({ originSequenceCounter := next, originSequencePersistedFloor := floor }, next, some floor)
  else ({ s with originSequenceCounter := next }, next, none)

end OriginSequence

/-- The settings are locked for a whole call, so a process has at most one that has yet to write its floor. -/
structure Process where
  settings : OriginSequence
  writing : Option (UInt64 × UInt64)

/-- The processes share the stored floor; `returned` lists what all calls so far returned, the last one first. -/
structure Device (ι : Type) where
  stored : Option UInt64
  processes : ι → Option Process
  returned : List UInt64

inductive Program where
  | daemon
  | cli
deriving DecidableEq

inductive DeviceStep (ι : Type) where
  | start (id : ι)
  | call (id : ι)
  | persist (id : ι)
  | stop (id : ι)

namespace Device

variable {ι : Type} [DecidableEq ι]

def boot (stored : Option UInt64) : Device ι := { stored := stored, processes := fun _ => none, returned := [] }

def storedFloor (s : Device ι) : UInt64 := s.stored.getD 0

def put (s : Device ι) (id : ι) (process : Option Process) : Device ι :=
  { s with processes := Function.update s.processes id process }

/-- A crash is a `stop`, which may come between a call and its write. -/
def step (s : Device ι) : DeviceStep ι → Option (Device ι)
  | .start id =>
    match s.processes id with
    | none => some (s.put id (some { settings := .loadCache s.stored, writing := none }))
    | some _ => none
  | .call id =>
    match s.processes id with
    | some { settings, writing := none } =>
      match settings.nextOriginSequenceNumber with
      | (settings, next, none) =>
        some { s.put id (some { settings, writing := none }) with returned := next :: s.returned }
      | (settings, next, some floor) => some (s.put id (some { settings, writing := some (next, floor) }))
    | _ => none
  | .persist id =>
    match s.processes id with
    | some { settings, writing := some (next, floor) } =>
      some { s.put id (some { settings, writing := none }) with stored := some floor, returned := next :: s.returned }
    | _ => none
  | .stop id => some (s.put id none)

end Device

end ClippModel.Settings

namespace ClippProof.Settings

open ClippModel.Settings ClippModel.Settings.Device

variable {ι : Type} [DecidableEq ι] {s next : Device ι} {id : ι} {process : Process} {number floor : UInt64}

/-- A floor is written only while the stored one has not passed the number handed out, and no counter wraps. -/
def BatchFits (s : Device ι) : DeviceStep ι → Prop
  | .call id => ∀ process ∈ s.processes id, process.settings.originSequenceCounter ≠ maxWord
  | .persist id => ∀ process ∈ s.processes id, ∀ write ∈ process.writing,
      s.storedFloor ≤ write.1 ∧ write.1 ≤ maxWord - originSequenceBatchSize
  | .start _ | .stop _ => True

instance batchFitsDecidable (s : Device ι) : ∀ event, Decidable (BatchFits s event)
  | .call id => inferInstanceAs (Decidable (∀ process ∈ s.processes id, _ ≠ _))
  | .persist id =>
    have (process : Process) (p : UInt64 × UInt64 → Prop) [DecidablePred p] :
        Decidable (∀ write ∈ process.writing, p write) := Option.decidableForallMem process.writing
    inferInstanceAs (Decidable (∀ process ∈ s.processes id, ∀ write ∈ process.writing, _ ∧ _))
  | .start _ | .stop _ => isTrue trivial

structure Holds (process : Process) (number : UInt64) : Prop where
  written : process.writing = none
  above : process.settings.originSequenceCounter < number
  below : number < process.settings.originSequencePersistedFloor

/-- What holds of each process: its floor is stored, or is the one it is about to write. -/
structure Reserved (stored : UInt64) (process : Process) : Prop where
  idle : process.writing = none → process.settings.originSequencePersistedFloor ≤ stored
  writing : ∀ number floor, process.writing = some (number, floor) →
    process.settings = { originSequenceCounter := number, originSequencePersistedFloor := floor } ∧
      floor = number + originSequenceBatchSize

structure Numbered (s : Device ι) : Prop where
  distinct : s.returned.Nodup
  below : ∀ number ∈ s.returned, number < s.storedFloor
  reserved : ∀ id process, s.processes id = some process → Reserved s.storedFloor process
  unused : ∀ id process number, s.processes id = some process → Holds process number → number ∉ s.returned
  apart : ∀ id other process rival number, s.processes id = some process → s.processes other = some rival →
    Holds process number → Holds rival number → id = other

theorem Reserved.mono {stored later : UInt64} (reserved : Reserved stored process) (rises : stored ≤ later) :
    Reserved later process :=
  ⟨fun idle => (reserved.idle idle).trans rises, reserved.writing⟩

omit [DecidableEq ι] in
theorem numbered_boot (stored : Option UInt64) : Numbered (Device.boot stored : Device ι) where
  distinct := List.nodup_nil
  below _ member := nomatch member
  reserved _ _ running := nomatch running
  unused _ _ _ running := nomatch running
  apart _ _ _ _ _ running := nomatch running

theorem running_update {processes : ι → Option Process} {after : Option Process} {other : ι}
    (running : Function.update processes id after other = some process) :
    other = id ∧ after = some process ∨ other ≠ id ∧ processes other = some process := by
  by_cases same : other = id
  · subst same
    exact .inl ⟨rfl, (Function.update_self other after processes).symm.trans running⟩
  · exact .inr ⟨same, (Function.update_of_ne same after processes).symm.trans running⟩

theorem Numbered.put {stored : Option UInt64} {returned : List UInt64} {after : Option Process}
    (numbered : Numbered s) (rises : s.storedFloor ≤ stored.getD 0) (distinct : returned.Nodup)
    (below : ∀ number ∈ returned, number < stored.getD 0)
    (reserved : ∀ process, after = some process → Reserved (stored.getD 0) process)
    (unused : ∀ process number, after = some process → Holds process number → number ∉ returned)
    (others : ∀ other rival number, other ≠ id → s.processes other = some rival → Holds rival number →
      number ∉ returned ∧ ∀ process, after = some process → ¬ Holds process number) :
    Numbered { stored := stored, processes := Function.update s.processes id after, returned := returned } := by
  refine ⟨distinct, below, fun other process running => ?_, fun other process number running holds => ?_,
    fun one other process rival number running alongside holds rivals => ?_⟩
  · rcases running_update running with ⟨_, here⟩ | ⟨_, before⟩
    · exact reserved process here
    · exact (numbered.reserved other process before).mono rises
  · rcases running_update running with ⟨_, here⟩ | ⟨apart, before⟩
    · exact unused process number here holds
    · exact (others other process number apart before holds).1
  · rcases running_update running with ⟨first, here⟩ | ⟨first, here⟩ <;>
      rcases running_update alongside with ⟨second, there⟩ | ⟨second, there⟩
    · rw [first, second]
    · exact absurd holds ((others other rival number second there rivals).2 process here)
    · exact absurd rivals ((others one process number first here holds).2 rival there)
    · exact numbered.apart one other process rival number here there holds rivals

theorem Numbered.idle {after : Option Process} (numbered : Numbered s)
    (reserved : ∀ process, after = some process → Reserved s.storedFloor process)
    (empty : ∀ process number, after = some process → ¬ Holds process number) : Numbered (s.put id after) := by
  have same : s.storedFloor ≤ s.stored.getD 0 := le_rfl
  refine numbered.put same numbered.distinct numbered.below reserved
    (fun process number here holds => absurd holds (empty process number here)) (fun other rival number _ running holds => ?_)
  exact ⟨numbered.unused other rival number running holds, fun process here => empty process number here⟩

theorem Numbered.start (numbered : Numbered s) :
    Numbered (s.put id (some { settings := .loadCache s.stored, writing := none })) := by
  refine numbered.idle (fun process here => ?_) (fun process number here holds => ?_)
  · cases here
    exact ⟨fun _ => le_rfl, nofun⟩
  · cases here
    exact absurd (holds.above.trans holds.below) (lt_irrefl _)

theorem Numbered.issue {settings : OriginSequence} (numbered : Numbered s)
    (running : s.processes id = some { settings, writing := none }) (counts : settings.originSequenceCounter ≠ maxWord)
    (batch : settings.originSequenceCounter + 1 < settings.originSequencePersistedFloor) :
    Numbered { stored := s.stored, returned := (settings.originSequenceCounter + 1) :: s.returned,
               processes := Function.update s.processes id (some
                 { settings := { settings with originSequenceCounter := settings.originSequenceCounter + 1 },
                   writing := none }) } := by
  have advances : settings.originSequenceCounter < settings.originSequenceCounter + 1 := word_lt_succ counts
  have handed : Holds { settings, writing := none } (settings.originSequenceCounter + 1) := ⟨rfl, advances, batch⟩
  have stored := (numbered.reserved id _ running).idle rfl
  have earlier : ∀ {number}, Holds { settings := { settings with originSequenceCounter :=
      settings.originSequenceCounter + 1 }, writing := none } number → Holds { settings, writing := none } number :=
    fun holds => ⟨rfl, advances.trans holds.above, holds.below⟩
  have same : s.storedFloor ≤ s.stored.getD 0 := le_rfl
  refine numbered.put same ?_ ?_ ?_ ?_ ?_
  · exact List.nodup_cons.mpr ⟨numbered.unused id _ _ running handed, numbered.distinct⟩
  · intro number member
    rcases List.mem_cons.mp member with rfl | member
    · exact batch.trans_le stored
    · exact numbered.below number member
  · rintro _ ⟨⟩
    exact ⟨fun _ => stored, nofun⟩
  · rintro _ number ⟨⟩ holds member
    rcases List.mem_cons.mp member with rfl | member
    · exact lt_irrefl _ holds.above
    · exact numbered.unused id _ number running (earlier holds) member
  · intro other rival number apart alongside holds
    refine ⟨fun member => ?_, ?_⟩
    · rcases List.mem_cons.mp member with rfl | member
      · exact apart (numbered.apart other id rival _ _ alongside running holds handed)
      · exact numbered.unused other rival number alongside holds member
    · rintro _ ⟨⟩ taken
      exact apart (numbered.apart other id rival _ number alongside running holds (earlier taken))

theorem Numbered.persist {settings : OriginSequence} (numbered : Numbered s)
    (running : s.processes id = some { settings, writing := some (number, floor) })
    (fresh : s.storedFloor ≤ number) (fits : number ≤ maxWord - originSequenceBatchSize) :
    Numbered { stored := some floor, returned := number :: s.returned,
               processes := Function.update s.processes id (some { settings, writing := none }) } := by
  obtain ⟨rfl, rfl⟩ := (numbered.reserved id _ running).writing number floor rfl
  have advances : number < number + originSequenceBatchSize := word_lt_add fits (by decide)
  have passed : ∀ {earlier}, earlier < s.storedFloor → earlier < number := fun before => before.trans_le fresh
  have rises : s.storedFloor ≤ (some (number + originSequenceBatchSize)).getD 0 := fresh.trans advances.le
  refine numbered.put rises ?_ ?_ ?_ ?_ ?_
  · exact List.nodup_cons.mpr ⟨fun member => lt_irrefl _ (passed (numbered.below number member)), numbered.distinct⟩
  · intro earlier member
    rcases List.mem_cons.mp member with rfl | member
    · exact advances
    · exact (passed (numbered.below earlier member)).trans advances
  · rintro _ ⟨⟩
    exact ⟨fun _ => le_rfl, nofun⟩
  · rintro _ later ⟨⟩ holds member
    rcases List.mem_cons.mp member with rfl | member
    · exact lt_irrefl _ holds.above
    · exact lt_irrefl _ (holds.above.trans (passed (numbered.below later member)))
  · intro other rival held apart alongside holds
    have reached : held < number := by
      have below := (numbered.reserved other rival alongside).idle holds.written
      exact passed (holds.below.trans_le below)
    refine ⟨fun member => ?_, ?_⟩
    · rcases List.mem_cons.mp member with rfl | member
      · exact lt_irrefl _ reached
      · exact numbered.unused other rival held alongside holds member
    · rintro _ ⟨⟩ taken
      exact lt_irrefl _ (reached.trans taken.above)

theorem Numbered.step {event : DeviceStep ι} (numbered : Numbered s) (fits : BatchFits s event)
    (taken : s.step event = some next) : Numbered next := by
  cases event with
  | start id =>
    cases running : s.processes id with
    | none =>
      simp only [Device.step, running, Option.some.injEq] at taken
      exact taken ▸ numbered.start
    | some process => simp [Device.step, running] at taken
  | call id =>
    rcases running : s.processes id with _ | ⟨settings, _ | write⟩
    · simp [Device.step, running] at taken
    · have counts := fits _ running
      simp only [Device.step, running, OriginSequence.nextOriginSequenceNumber] at taken
      by_cases spent : settings.originSequencePersistedFloor ≤ settings.originSequenceCounter + 1
      · rw [if_pos spent] at taken
        cases taken
        refine numbered.idle (fun process here => ?_) (fun process number here holds => ?_)
        · cases here
          exact ⟨nofun, fun _ _ same => by cases same; exact ⟨rfl, rfl⟩⟩
        · cases here
          exact nomatch holds.written
      · rw [if_neg spent] at taken
        cases taken
        exact numbered.issue running counts (not_le.mp spent)
    · simp [Device.step, running] at taken
  | persist id =>
    rcases running : s.processes id with _ | ⟨settings, _ | ⟨number, floor⟩⟩
    · simp [Device.step, running] at taken
    · simp [Device.step, running] at taken
    · obtain ⟨fresh, room⟩ := fits _ running _ rfl
      simp only [Device.step, running, Option.some.injEq] at taken
      exact taken ▸ numbered.persist running fresh room
  | stop id =>
    cases taken
    exact numbered.idle nofun nofun

theorem run_numbered {stored : Option UInt64} {events : List (DeviceStep ι)}
    (path : Path Device.step BatchFits (Device.boot stored) events s) : Numbered s :=
  path.invariant Numbered (fun _ _ _ numbered fits taken => numbered.step fits taken) (numbered_boot stored)

theorem origin_sequence_numbers_distinct (stored : Option UInt64) (events : List (DeviceStep ι)) (s : Device ι)
    (path : Path Device.step BatchFits (Device.boot stored) events s) : s.returned.Nodup :=
  (run_numbered path).distinct

def restarted : List (DeviceStep Program) :=
  [.start .daemon, .call .daemon, .persist .daemon, .call .daemon, .stop .daemon,
   .start .daemon, .call .daemon, .persist .daemon]

theorem restarted_numbers_distinct : (lastOf Device.step (Device.boot none) restarted).returned.Nodup :=
  origin_sequence_numbers_distinct none restarted _ (fitting_to_lastOf (by decide +kernel))

/-- Both programs load the floor before either has written one. -/
def overlapping : List (DeviceStep Program) :=
  [.start .daemon, .start .cli, .call .daemon, .persist .daemon, .call .cli, .persist .cli]

theorem overlapping_programs_repeat_a_number :
    ¬ ∀ events (s : Device Program), Path Device.step (fun _ _ => True) (Device.boot none) events s →
      s.returned.Nodup := by
  intro always
  have run : Path Device.step (fun _ _ => True) (Device.boot none) overlapping
      (lastOf Device.step (Device.boot none) overlapping) :=
    path_to_lastOf (fun _ _ _ => trivial) (by decide +kernel)
  have returned : (lastOf Device.step (Device.boot none) overlapping).returned = [1, 1] := by decide +kernel
  have distinct := always overlapping _ run
  rw [returned] at distinct
  exact absurd distinct (by decide)

end ClippProof.Settings
