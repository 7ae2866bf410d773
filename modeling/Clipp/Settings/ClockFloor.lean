import Mathlib.Logic.Function.Basic
import Clipp.Foundation.Machine
import Clipp.Registers.StoreLaws

open Foundation

namespace ClippModel.Settings

open ClippModel.Registers

def registerHlcFloorBatchMs : UInt64 := 60 * 1000

def noteRegisterHlcWallMs (registerHlcFloorMs wallMs : UInt64) : UInt64 × Option UInt64 :=
  if registerHlcFloorMs ≤ wallMs then (wallMs + registerHlcFloorBatchMs, some (wallMs + registerHlcFloorBatchMs))
  else (registerHlcFloorMs, none)

inductive AnnouncementStage where
  | changed
  | measured (wallMs : UInt64)
  | noted

/-- What a thread has yet to do once it gave a register a stamp. The mirror of the clipboard is noted like any
    other register and has no name to broadcast. -/
structure Announcement where
  name : Option Bytes
  given : Hlc
  stage : AnnouncementStage

def Announcement.reading (a : Announcement) : Option UInt64 :=
  match a.stage with
  | .measured wallMs => some wallMs
  | .changed | .noted => none

structure RegisterSession (ι : Type) where
  registerHlcFloorMs : UInt64
  store : RegisterStore
  threads : ι → Option Announcement

/-- The calls to the register store and the clock. Whatever lists the registers, compares digests or takes a
    snapshot is a `prune`, since it only drops what has expired. -/
inductive SessionWork (ι : Type) where
  | upsertWithFlags (id : ι) (t : Readings) (name value : Bytes) (valueFlags : UInt8) (origin : HostId)
  | delete (id : ι) (t : Readings) (name : Bytes) (origin : HostId)
  | mirrorDefault (id : ι) (t : Readings) (value : Bytes)
  | read (t : Readings) (name : Bytes)
  | applyRemote (now : UInt64) (incoming : RegisterRecord)
  | prune (now : UInt64)
  | clockHighWater (id : ι)

/-- A register frame that was handed to the peers: the session, the stamp its write gave and the one it carries. -/
structure SentRegister where
  session : Nat
  given : Hlc
  written : Hlc
  deriving DecidableEq

def SentRegister.carrying (session : Nat) (given : Hlc) (r : RegisterRecord) : SentRegister where
  session := session
  given := given
  written := r.written

/-- The stored floor outlives the sessions, which are numbered from one; `broadcasts` has the last frame first. -/
structure ClockedDevice (ι : Type) where
  stored : Option UInt64
  session : Nat
  running : Option (RegisterSession ι)
  broadcasts : List SentRegister

inductive SessionEvent (ι : Type) where
  | start (localHost : HostId) (registerTtlSeconds registerMaxCount : UInt64)
  | stop
  | work (work : SessionWork ι)
  | note (id : ι)
  | broadcast (id : ι) (now : UInt64)

section

variable {ι : Type} [DecidableEq ι]

namespace RegisterSession

def put (live : RegisterSession ι) (id : ι) (announcement : Option Announcement) : RegisterSession ι :=
  { live with threads := Function.update live.threads id announcement }

def changed (live : RegisterSession ι) (id : ι) (name : Option Bytes) (store : RegisterStore) : RegisterSession ι :=
  { live with store := store }.put id (some { name := name, given := store.clockHighWater, stage := .changed })

/-- A thread writes a register once it has announced the one before; a write that was refused is not announced. -/
def write {α : Type} [DecidableEq α] (live : RegisterSession ι) (id : ι) (name : Bytes) (success : α)
    (call : Call α) : Option (RegisterSession ι) :=
  match live.threads id with
  | some _ => none
  | none =>
    if call.result = success then some (live.changed id (some name) call.store)
    else some { live with store := call.store }

def work (live : RegisterSession ι) : SessionWork ι → Option (RegisterSession ι)
  | .upsertWithFlags id t name value valueFlags origin =>
    live.write id name .ok (live.store.upsertWithFlags t name value valueFlags origin)
  | .delete id t name origin => live.write id name .deleted (live.store.deleteFrom t name origin)
  | .mirrorDefault id t value =>
    match live.threads id with
    | some _ => none
    | none => some (live.changed id none (live.store.mirrorDefault t value))
  | .read t name => some { live with store := (live.store.read t name).store }
  | .applyRemote now incoming => some { live with store := (live.store.applyRemote now incoming).store }
  | .prune now => some { live with store := live.store.pruneExpiredLocked now }
  | .clockHighWater id =>
    match live.threads id with
    | some { name, given, stage := .changed } =>
      some (live.put id (some { name, given, stage := .measured live.store.clockHighWater.wallMs }))
    | _ => none

end RegisterSession

namespace ClockedDevice

def boot (stored : Option UInt64) : ClockedDevice ι where
  stored := stored
  session := 0
  running := none
  broadcasts := []

def storedFloor (s : ClockedDevice ι) : UInt64 := s.stored.getD 0

def begin (s : ClockedDevice ι) (localHost : HostId) (registerTtlSeconds registerMaxCount : UInt64) :
    RegisterSession ι where
  registerHlcFloorMs := s.storedFloor
  store :=
    let made := RegisterStore.create .zero RegisterStore.kDefaultTtlMs RegisterStore.kDefaultMaxCount
      RegisterStore.kDefaultMaxValueBytes
    ((made.setLocalHost localHost).setLimits (registerTtlSeconds * 1000) registerMaxCount.toNat
      RegisterStore.kDefaultMaxValueBytes).seedClockFloor { wallMs := s.storedFloor, counter := 0 }
  threads := fun _ => none

/-- Floor writes succeed; a crash is a `stop`, which may come between any two steps of a thread. -/
def step (s : ClockedDevice ι) : SessionEvent ι → Option (ClockedDevice ι)
  | .start localHost registerTtlSeconds registerMaxCount =>
    match s.running with
    | some _ => none
    | none => some { s with session := s.session + 1
                            running := some (s.begin localHost registerTtlSeconds registerMaxCount) }
  | .stop => some { s with running := none }
  | .work work =>
    match s.running.bind (·.work work) with
    | some after => some { s with running := some after }
    | none => none
  | .note id =>
    match s.running with
    | none => none
    | some live =>
      match live.threads id with
      | some { name, given, stage := .measured wallMs } =>
        let (floor, writes) := noteRegisterHlcWallMs live.registerHlcFloorMs wallMs
        let left : Option Announcement := name.map (fun name => { name := some name, given, stage := .noted })
        some { s with stored := writes.or s.stored
                      running := some { live.put id left with registerHlcFloorMs := floor } }
      | _ => none
  | .broadcast id now =>
    match s.running with
    | none => none
    | some live =>
      match live.threads id with
      | some { name := some name, given, stage := .noted } =>
        let call := live.store.getForBroadcast now name
        some { s with running := some { live.put id none with store := call.store }
                      broadcasts := call.result.toList.map (SentRegister.carrying s.session given) ++ s.broadcasts }
      | _ => none

end ClockedDevice

end

end ClippModel.Settings

namespace ClippProof.Settings

open ClippModel.Registers ClippModel.Registers.RegisterStore ClippModel.Settings ClippModel.Settings.ClockedDevice
  ClippProof.Registers

section

variable {ι : Type} [DecidableEq ι] {s next : ClockedDevice ι} {live after : RegisterSession ι} {id : ι}
  {low : UInt64} {store : RegisterStore}

/-- A stamp that a session gives to a register it broadcasts is above all that earlier sessions broadcast. -/
def StampsRise (s : ClockedDevice ι) : Prop :=
  ∀ earlier ∈ s.broadcasts, ∀ later ∈ s.broadcasts, earlier.session < later.session → earlier.written < later.given

/-- Should the session crash now, the next one gives stamps above all that was broadcast, whatever it does. -/
def Outlives (s : ClockedDevice ι) : Prop :=
  ∀ localHost registerTtlSeconds registerMaxCount events last,
    Path ClockedDevice.step (fun _ _ => True) s
      (.stop :: .start localHost registerTtlSeconds registerMaxCount :: events) last →
    ∀ earlier ∈ s.broadcasts, ∀ later ∈ last.broadcasts, later.session = s.session + 1 →
      earlier.written < later.given

/-- A floor that is written does not wrap, or only to what nothing broadcast has reached. A record goes out while its
    wall reading is below the stored floor, so none from beyond it took the place of the record that was written. -/
def FloorFits (s : ClockedDevice ι) : SessionEvent ι → Prop
  | .note id => ∀ live ∈ s.running, ∀ announcement ∈ live.threads id, ∀ wallMs ∈ announcement.reading,
      live.registerHlcFloorMs ≤ wallMs → wallMs ≤ maxWord - registerHlcFloorBatchMs ∨
        ∀ sent ∈ s.broadcasts, sent.written.wallMs < wallMs + registerHlcFloorBatchMs
  | .broadcast id now => ∀ live ∈ s.running, ∀ announcement ∈ live.threads id, ∀ name ∈ announcement.name,
      ∀ r ∈ (live.store.getForBroadcast now name).result, r.written.wallMs < s.storedFloor
  | .start _ _ _ | .stop | .work _ => True

instance floorFitsDecidable (s : ClockedDevice ι) : ∀ event, Decidable (FloorFits s event)
  | .note id =>
    have (announcement : Announcement) (p : UInt64 → Prop) [DecidablePred p] :
        Decidable (∀ wallMs ∈ announcement.reading, p wallMs) := Option.decidableForallMem announcement.reading
    inferInstanceAs (Decidable (∀ live ∈ s.running, ∀ announcement ∈ live.threads id,
      ∀ wallMs ∈ announcement.reading, _ → _ ∨ _))
  | .broadcast id now => inferInstanceAs (Decidable (∀ live ∈ s.running, ∀ announcement ∈ live.threads id,
      ∀ name ∈ announcement.name, ∀ r ∈ (live.store.getForBroadcast now name).result, _ < _))
  | .start _ _ _ | .stop | .work _ => isTrue trivial

theorem now_wall (c : HlcClock) (phys : UInt64) : c.last.wallMs ≤ (c.now phys).1.wallMs := by
  by_cases lifted : phys > c.last.wallMs
  · simpa [HlcClock.now, lifted] using lifted.le
  · simp [HlcClock.now, lifted]

theorem applyRemote_wall (s : RegisterStore) (now : UInt64) (incoming : RegisterRecord) :
    s.clock.last.wallMs ≤ (s.applyRemote now incoming).store.clock.last.wallMs := by
  change s.clock.last.wallMs ≤ (s.applyRemoteLocked now incoming).2.clock.last.wallMs
  by_cases named : incoming.name = []
  · rw [applyRemote_nameless s now named]
  · rw [applyRemote_clock s now named]
    exact Hlc.wall_mono ((le_max_left _ _).trans (le_max_left _ _))

theorem upsert_wall (s : RegisterStore) (t : Readings) (name value : Bytes) (valueFlags : UInt8) (origin : HostId) :
    s.clock.last.wallMs ≤ (s.upsertWithFlags t name value valueFlags origin).store.clock.last.wallMs := by
  change s.clock.last.wallMs ≤ (s.upsertLocked t name value valueFlags origin).2.clock.last.wallMs
  rcases upsertLocked_cases s t name value valueFlags origin with ⟨_, drop⟩ | ⟨_, equal⟩
  · rw [drop.clock]
  · rw [equal]
    exact now_wall s.clock t.mint

theorem delete_wall (s : RegisterStore) (t : Readings) (name : Bytes) (origin : HostId) :
    s.clock.last.wallMs ≤ (s.deleteFrom t name origin).store.clock.last.wallMs := by
  change s.clock.last.wallMs ≤ (s.deleteLocked t name origin).2.clock.last.wallMs
  rcases deleteLocked_cases s t name origin with ⟨_, drop⟩ | ⟨_, _, _, equal⟩
  · rw [drop.clock]
  · rw [equal]
    exact now_wall s.clock t.mint

theorem read_wall (s : RegisterStore) (t : Readings) (name : Bytes) :
    s.clock.last.wallMs ≤ (s.read t name).store.clock.last.wallMs := by
  rcases read_cases s t name with ⟨_, _, drop⟩ | ⟨_, _, _, equal⟩
  · rw [drop.clock]
  · rw [equal]
    exact now_wall s.clock t.mint

inductive Comes (live : RegisterSession ι) (store : RegisterStore) (id : ι) : Announcement → Prop where
  | kept {announcement : Announcement} : live.threads id = some announcement → Comes live store id announcement
  | changed {name : Option Bytes} :
    Comes live store id { name := name, given := store.clockHighWater, stage := .changed }
  | measured {name : Option Bytes} {given : Hlc} :
    live.threads id = some { name := name, given := given, stage := .changed } →
    Comes live store id { name := name, given := given, stage := .measured live.store.clockHighWater.wallMs }

structure Proceeds (live after : RegisterSession ι) : Prop where
  floor : after.registerHlcFloorMs = live.registerHlcFloorMs
  clock : live.store.clock.last.wallMs ≤ after.store.clock.last.wallMs
  comes : ∀ id announcement, after.threads id = some announcement → Comes live after.store id announcement

omit [DecidableEq ι] in
theorem Proceeds.unannounced (clock : live.store.clock.last.wallMs ≤ store.clock.last.wallMs) :
    Proceeds live { live with store := store } := ⟨rfl, clock, fun _ _ here => .kept here⟩

theorem Proceeds.put {announcement : Option Announcement}
    (clock : live.store.clock.last.wallMs ≤ store.clock.last.wallMs)
    (comes : ∀ present ∈ announcement, Comes live store id present) :
    Proceeds live { live.put id announcement with store := store } := by
  refine ⟨rfl, clock, fun other present here => ?_⟩
  dsimp only [RegisterSession.put] at here
  by_cases same : other = id
  · subst same
    rw [Function.update_self] at here
    exact comes present here
  · rw [Function.update_of_ne same] at here
    exact .kept here

theorem Proceeds.changed {name : Option Bytes} (clock : live.store.clock.last.wallMs ≤ store.clock.last.wallMs) :
    Proceeds live (live.changed id name store) := by
  apply Proceeds.put clock
  rintro _ ⟨⟩
  exact .changed

omit [DecidableEq ι] in
theorem Proceeds.given {announcement : Announcement} (proceeds : Proceeds live after)
    (present : after.threads id = some announcement) :
    (∃ before, live.threads id = some before ∧ before.given = announcement.given) ∨
      live.store.clock.last.wallMs ≤ announcement.given.wallMs := by
  cases proceeds.comes id announcement present with
  | kept waiting => exact .inl ⟨_, waiting, rfl⟩
  | changed => exact .inr proceeds.clock
  | measured waiting => exact .inl ⟨_, waiting, rfl⟩

theorem write_proceeds {α : Type} [DecidableEq α] {name : Bytes} {success : α} {call : Call α}
    (clock : live.store.clock.last.wallMs ≤ call.store.clock.last.wallMs)
    (taken : live.write id name success call = some after) : Proceeds live after := by
  cases busy : live.threads id with
  | some announcement => simp [RegisterSession.write, busy] at taken
  | none =>
    simp only [RegisterSession.write, busy] at taken
    split_ifs at taken
    · cases taken
      exact Proceeds.changed clock
    · cases taken
      exact Proceeds.unannounced clock

theorem work_proceeds {work : SessionWork ι} (taken : live.work work = some after) : Proceeds live after := by
  cases work with
  | upsertWithFlags id t name value valueFlags origin =>
    exact write_proceeds (upsert_wall live.store t name value valueFlags origin) taken
  | delete id t name origin => exact write_proceeds (delete_wall live.store t name origin) taken
  | mirrorDefault id t value =>
    cases busy : live.threads id with
    | some announcement => simp [RegisterSession.work, busy] at taken
    | none =>
      simp only [RegisterSession.work, busy, Option.some.injEq] at taken
      exact taken ▸ Proceeds.changed (now_wall live.store.clock t.mint)
  | read t name =>
    cases taken
    exact Proceeds.unannounced (read_wall live.store t name)
  | applyRemote now incoming =>
    cases taken
    exact Proceeds.unannounced (applyRemote_wall live.store now incoming)
  | prune now =>
    cases taken
    exact Proceeds.unannounced le_rfl
  | clockHighWater id =>
    rcases waiting : live.threads id with _ | ⟨name, given, _ | wallMs | _⟩ <;>
      simp only [RegisterSession.work, waiting, reduceCtorEq] at taken
    cases taken
    apply Proceeds.put le_rfl
    rintro _ ⟨⟩
    exact .measured waiting

theorem start_takes {localHost : HostId} {registerTtlSeconds registerMaxCount : UInt64}
    (taken : s.step (.start localHost registerTtlSeconds registerMaxCount) = some next) :
    next = { s with session := s.session + 1
                    running := some (s.begin localHost registerTtlSeconds registerMaxCount) } := by
  cases running : s.running with
  | some live => simp [ClockedDevice.step, running] at taken
  | none =>
    simp only [ClockedDevice.step, running, Option.some.injEq] at taken
    exact taken.symm

theorem work_takes {work : SessionWork ι} (taken : s.step (.work work) = some next) :
    ∃ live after, s.running = some live ∧ Proceeds live after ∧ next = { s with running := some after } := by
  rcases running : s.running with _ | live
  · simp [ClockedDevice.step, running] at taken
  · rcases worked : live.work work with _ | after
    · simp [ClockedDevice.step, running, worked] at taken
    · simp only [ClockedDevice.step, running, Option.bind_some, worked, Option.some.injEq] at taken
      exact ⟨live, after, rfl, work_proceeds worked, taken.symm⟩

def afterNote (live : RegisterSession ι) (id : ι) (name : Option Bytes) (given : Hlc) (wallMs : UInt64) :
    RegisterSession ι :=
  { live.put id (name.map (fun name => { name := some name, given, stage := .noted })) with
    registerHlcFloorMs := (noteRegisterHlcWallMs live.registerHlcFloorMs wallMs).1 }

theorem note_takes (taken : s.step (.note id) = some next) :
    ∃ live name given wallMs, s.running = some live ∧
      live.threads id = some { name, given, stage := .measured wallMs } ∧
      next = { s with stored := (noteRegisterHlcWallMs live.registerHlcFloorMs wallMs).2.or s.stored
                      running := some (afterNote live id name given wallMs) } := by
  rcases running : s.running with _ | live
  · simp [ClockedDevice.step, running] at taken
  · rcases waiting : live.threads id with _ | ⟨name, given, _ | wallMs | _⟩ <;>
      simp only [ClockedDevice.step, running, waiting, reduceCtorEq, Option.some.injEq] at taken
    exact ⟨live, name, given, wallMs, rfl, waiting, taken.symm⟩

theorem afterNote_threads {name : Option Bytes} {given : Hlc} {wallMs : UInt64} {other : ι}
    {announcement : Announcement} (present : (afterNote live id name given wallMs).threads other = some announcement) :
    other ≠ id ∧ live.threads other = some announcement ∨
      other = id ∧ announcement = { name := name, given := given, stage := .noted } := by
  change Function.update live.threads id _ other = some announcement at present
  by_cases same : other = id
  · subst same
    rw [Function.update_self] at present
    obtain ⟨_, rfl, rfl⟩ := Option.map_eq_some_iff.mp present
    exact .inr ⟨rfl, rfl⟩
  · rw [Function.update_of_ne same] at present
    exact .inl ⟨same, present⟩

theorem broadcast_takes {now : UInt64} (taken : s.step (.broadcast id now) = some next) :
    ∃ live name given after, s.running = some live ∧
      live.threads id = some { name := some name, given, stage := .noted } ∧ Proceeds live after ∧
      next = { s with
        running := some after
        broadcasts := (live.store.getForBroadcast now name).result.toList.map (.carrying s.session given) ++
          s.broadcasts } := by
  rcases running : s.running with _ | live
  · simp [ClockedDevice.step, running] at taken
  · rcases waiting : live.threads id with _ | ⟨_ | name, given, _ | wallMs | _⟩ <;>
      simp only [ClockedDevice.step, running, waiting, reduceCtorEq, Option.some.injEq] at taken
    have same : (live.store.getForBroadcast now name).store.clock = live.store.clock :=
      (getForBroadcast_dropped live.store now name).clock
    let after := { live.put id none with store := (live.store.getForBroadcast now name).store }
    have proceeds : Proceeds live after := Proceeds.put (by rw [same]) (fun _ absent => nomatch absent)
    exact ⟨live, name, given, after, rfl, waiting, proceeds, taken.symm⟩

/-- Whatever session `session` gives, its wall reading is no lower than `low`. -/
structure Lifted (low : UInt64) (session : Nat) (s : ClockedDevice ι) : Prop where
  begun : session ≤ s.session
  sent : ∀ later ∈ s.broadcasts, later.session = session → low ≤ later.given.wallMs
  clock : s.session = session → ∀ live, s.running = some live → low ≤ live.store.clock.last.wallMs
  waiting : s.session = session → ∀ live, s.running = some live → ∀ id announcement,
    live.threads id = some announcement → low ≤ announcement.given.wallMs

omit [DecidableEq ι] in
theorem Lifted.proceed {session : Nat} {stored : Option UInt64} {broadcasts : List SentRegister}
    (lifted : Lifted low session s) (running : s.running = some live)
    (clock : live.store.clock.last.wallMs ≤ after.store.clock.last.wallMs)
    (given : ∀ id announcement, after.threads id = some announcement →
      (∃ before, live.threads id = some before ∧ before.given = announcement.given) ∨
        live.store.clock.last.wallMs ≤ announcement.given.wallMs)
    (sent : ∀ later ∈ broadcasts, later ∈ s.broadcasts ∨
      later.session = s.session ∧ ∃ id announcement, live.threads id = some announcement ∧
        announcement.given = later.given) :
    Lifted low session
      { stored := stored, session := s.session, running := some after, broadcasts := broadcasts } := by
  refine ⟨lifted.begun, fun later member same => ?_, fun now _ here => ?_,
    fun now _ here id announcement present => ?_⟩
  · rcases sent later member with old | ⟨recent, id, announcement, waiting, given⟩
    · exact lifted.sent later old same
    · rw [← given]
      exact lifted.waiting (recent.symm.trans same) live running id announcement waiting
  · cases here
    exact (lifted.clock now live running).trans clock
  · cases here
    rcases given id announcement present with ⟨before, waiting, same⟩ | above
    · rw [← same]
      exact lifted.waiting now live running id before waiting
    · exact (lifted.clock now live running).trans above

theorem Lifted.step {session : Nat} {event : SessionEvent ι} (lifted : Lifted low session s)
    (taken : s.step event = some next) : Lifted low session next := by
  cases event with
  | start localHost registerTtlSeconds registerMaxCount =>
    cases start_takes taken
    have passed : s.session + 1 ≠ session := by
      have := lifted.begun
      omega
    exact ⟨lifted.begun.trans (Nat.le_succ _), lifted.sent, fun now => absurd now passed, fun now => absurd now passed⟩
  | stop =>
    cases taken
    exact ⟨lifted.begun, lifted.sent, (fun _ _ here => nomatch here), (fun _ _ here => nomatch here)⟩
  | work work =>
    obtain ⟨live, after, running, proceeds, rfl⟩ := work_takes taken
    exact lifted.proceed running proceeds.clock (fun _ _ => proceeds.given) (fun _ => .inl)
  | note id =>
    obtain ⟨live, name, given, wallMs, running, waiting, rfl⟩ := note_takes taken
    refine lifted.proceed running le_rfl (fun other announcement present => ?_) (fun _ => .inl)
    rcases afterNote_threads present with ⟨_, kept⟩ | ⟨rfl, rfl⟩
    · exact .inl ⟨_, kept, rfl⟩
    · exact .inl ⟨_, waiting, rfl⟩
  | broadcast id now =>
    obtain ⟨live, name, given, after, running, waiting, proceeds, rfl⟩ := broadcast_takes taken
    refine lifted.proceed running proceeds.clock (fun _ _ => proceeds.given) fun later member => ?_
    rcases List.mem_append.mp member with fresh | old
    · obtain ⟨r, _, rfl⟩ := List.mem_map.mp fresh
      exact .inr ⟨rfl, id, _, waiting, rfl⟩
    · exact .inl old

/-- All that was broadcast is below the floor that the next session starts from. -/
def Below (s : ClockedDevice ι) : Prop := ∀ sent ∈ s.broadcasts, sent.written.wallMs < s.storedFloor

structure Ahead (s : ClockedDevice ι) : Prop where
  below : Below s
  cached : ∀ live, s.running = some live → live.registerHlcFloorMs = s.storedFloor
  begun : ∀ sent ∈ s.broadcasts, sent.session ≤ s.session
  lifted : ∀ sent ∈ s.broadcasts, ∀ session, sent.session < session → session ≤ s.session →
    ∃ low, sent.written.wallMs < low ∧ Lifted low session s

omit [DecidableEq ι] in
theorem ahead_boot (stored : Option UInt64) : Ahead (ClockedDevice.boot stored : ClockedDevice ι) where
  below _ member := nomatch member
  cached _ running := nomatch running
  begun _ member := nomatch member
  lifted _ member := nomatch member

omit [DecidableEq ι] in
theorem Ahead.stampsRise (ahead : Ahead s) : StampsRise s := by
  intro earlier before later member order
  obtain ⟨low, below, lifted⟩ := ahead.lifted earlier before later.session order (ahead.begun later member)
  rw [Hlc.lt_iff]
  exact .inl (below.trans_le (lifted.sent later member rfl))

omit [DecidableEq ι] in
theorem Ahead.start_lifted (ahead : Ahead s) (localHost : HostId) (registerTtlSeconds registerMaxCount : UInt64) :
    Lifted s.storedFloor (s.session + 1) { s with
      session := s.session + 1
      running := some (s.begin localHost registerTtlSeconds registerMaxCount) } := by
  refine ⟨le_rfl, fun later member same => ?_, fun _ _ here => ?_, fun _ _ here id announcement present => ?_⟩
  · have := ahead.begun later member
    omega
  · cases here
    have seeded : ({ wallMs := s.storedFloor, counter := 0 } : Hlc) ≤
        (s.begin localHost registerTtlSeconds registerMaxCount).store.clock.last := le_max_right _ _
    exact Hlc.wall_mono seeded
  · cases here
    cases present

theorem Ahead.carry {event : SessionEvent ι} (ahead : Ahead s) (taken : s.step event = some next) (below : Below next)
    (same : next.session = s.session)
    (cached : ∀ live, next.running = some live → live.registerHlcFloorMs = next.storedFloor)
    (sent : ∀ later ∈ next.broadcasts, later ∈ s.broadcasts ∨ later.session = s.session) : Ahead next := by
  refine ⟨below, cached, fun later member => ?_, fun earlier member session order reached => ?_⟩
  · rw [same]
    rcases sent later member with old | recent
    · exact ahead.begun later old
    · exact recent.le
  · rw [same] at reached
    rcases sent earlier member with old | recent
    · obtain ⟨low, passed, lifted⟩ := ahead.lifted earlier old session order reached
      exact ⟨low, passed, lifted.step taken⟩
    · omega

theorem note_floor {stored : Option UInt64} {floor wallMs : UInt64} (cached : floor = stored.getD 0) :
    ((noteRegisterHlcWallMs floor wallMs).2.or stored).getD 0 = (noteRegisterHlcWallMs floor wallMs).1 := by
  by_cases crosses : floor ≤ wallMs
  · simp [noteRegisterHlcWallMs, crosses]
  · simp only [noteRegisterHlcWallMs, crosses, if_false, Option.none_or]
    exact cached.symm

/-- The condition on a step is what keeps all that was broadcast below the floor. -/
theorem Ahead.fits_iff {event : SessionEvent ι} (ahead : Ahead s) (taken : s.step event = some next) :
    FloorFits s event ↔ Below next := by
  have kept : ∀ after : ClockedDevice ι, after.broadcasts = s.broadcasts → after.stored = s.stored → Below after := by
    intro after broadcasts stored sent member
    rw [storedFloor, stored]
    exact ahead.below sent (broadcasts ▸ member)
  cases event with
  | start localHost registerTtlSeconds registerMaxCount =>
    cases start_takes taken
    exact ⟨fun _ => kept _ rfl rfl, fun _ => trivial⟩
  | stop =>
    cases taken
    exact ⟨fun _ => kept _ rfl rfl, fun _ => trivial⟩
  | work work =>
    obtain ⟨_, _, _, _, rfl⟩ := work_takes taken
    exact ⟨fun _ => kept _ rfl rfl, fun _ => trivial⟩
  | note id =>
    obtain ⟨live, name, given, wallMs, running, waiting, rfl⟩ := note_takes taken
    have cached := ahead.cached live running
    simp only [FloorFits, running, waiting, Announcement.reading, Option.mem_def, Option.some.injEq, forall_eq',
      Below, storedFloor, note_floor cached]
    by_cases crosses : live.registerHlcFloorMs ≤ wallMs
    · simp only [noteRegisterHlcWallMs, crosses, if_true, true_implies]
      refine ⟨?_, .inr⟩
      rintro (room | above) sent member
      · have earlier : sent.written.wallMs < live.registerHlcFloorMs := cached ▸ ahead.below sent member
        have rises : wallMs < wallMs + registerHlcFloorBatchMs := word_lt_add room (by decide)
        exact (earlier.trans_le crosses).trans rises
      · exact above sent member
    · simp only [noteRegisterHlcWallMs, crosses, if_false, false_implies, true_iff]
      exact fun sent member => cached ▸ ahead.below sent member
  | broadcast id now =>
    obtain ⟨live, name, given, after, running, waiting, _, rfl⟩ := broadcast_takes taken
    simp only [FloorFits, running, waiting, Option.mem_def, Option.some.injEq, forall_eq']
    refine ⟨fun below sent member => ?_, fun below r fetched => ?_⟩
    · rcases List.mem_append.mp member with fresh | old
      · obtain ⟨r, fetched, rfl⟩ := List.mem_map.mp fresh
        exact below r (Option.mem_toList.mp fetched)
      · exact ahead.below sent old
    · have inside := List.mem_map_of_mem (f := SentRegister.carrying s.session given) (Option.mem_toList.mpr fetched)
      exact below _ (List.mem_append_left _ inside)

theorem Ahead.step {event : SessionEvent ι} (ahead : Ahead s) (fits : FloorFits s event)
    (taken : s.step event = some next) : Ahead next := by
  have below := (ahead.fits_iff taken).mp fits
  cases event with
  | start localHost registerTtlSeconds registerMaxCount =>
    have begun := ahead.start_lifted localHost registerTtlSeconds registerMaxCount
    obtain rfl := start_takes taken
    refine ⟨below, fun _ here => ?_, fun sent member => ?_, fun sent member session order reached => ?_⟩
    · cases here
      rfl
    · exact (ahead.begun sent member).trans (Nat.le_succ _)
    · rcases Nat.le_succ_iff.mp reached with earlier | rfl
      · obtain ⟨low, passed, lifted⟩ := ahead.lifted sent member session order earlier
        exact ⟨low, passed, lifted.step taken⟩
      · exact ⟨s.storedFloor, ahead.below sent member, begun⟩
  | stop =>
    have unfolded := taken
    cases unfolded
    exact ahead.carry taken below rfl (fun _ here => nomatch here) (fun _ => .inl)
  | work work =>
    obtain ⟨live, after, running, proceeds, rfl⟩ := work_takes taken
    refine ahead.carry taken below rfl (fun _ here => ?_) (fun _ => .inl)
    cases here
    exact proceeds.floor.trans (ahead.cached live running)
  | note id =>
    obtain ⟨live, name, given, wallMs, running, waiting, rfl⟩ := note_takes taken
    refine ahead.carry taken below rfl (fun _ here => ?_) (fun _ => .inl)
    cases here
    exact (note_floor (ahead.cached live running)).symm
  | broadcast id now =>
    obtain ⟨live, name, given, after, running, waiting, proceeds, rfl⟩ := broadcast_takes taken
    refine ahead.carry taken below rfl (fun _ here => ?_) (fun later member => ?_)
    · cases here
      exact proceeds.floor.trans (ahead.cached live running)
    · rcases List.mem_append.mp member with fresh | old
      · obtain ⟨r, _, rfl⟩ := List.mem_map.mp fresh
        exact .inr rfl
      · exact .inl old

theorem run_ahead {stored : Option UInt64} {events : List (SessionEvent ι)}
    (path : Path ClockedDevice.step FloorFits (ClockedDevice.boot stored) events s) : Ahead s :=
  path.invariant Ahead (fun _ _ _ ahead fits taken => ahead.step fits taken) (ahead_boot stored)

/-- No floor wraps where it is written. -/
def Unwrapped (s : ClockedDevice ι) : SessionEvent ι → Prop
  | .note id => ∀ live ∈ s.running, ∀ announcement ∈ live.threads id, ∀ wallMs ∈ announcement.reading,
      live.registerHlcFloorMs ≤ wallMs → wallMs ≤ maxWord - registerHlcFloorBatchMs
  | .start _ _ _ | .stop | .work _ | .broadcast _ _ => True

/-- The stamp that is announced stays below the reading that is noted for it, and then below the floor. -/
def Promised (clock floor : UInt64) (announcement : Announcement) : Prop :=
  match announcement.stage with
  | .changed => announcement.given.wallMs ≤ clock
  | .measured wallMs => announcement.given.wallMs ≤ wallMs
  | .noted => announcement.given.wallMs < floor

structure Punctual (s : ClockedDevice ι) : Prop where
  cached : ∀ live, s.running = some live → live.registerHlcFloorMs = s.storedFloor
  promised : ∀ live, s.running = some live → ∀ id announcement, live.threads id = some announcement →
    Promised live.store.clock.last.wallMs s.storedFloor announcement

theorem Promised.mono {clock later floor higher : UInt64} {announcement : Announcement}
    (promised : Promised clock floor announcement) (clocks : clock ≤ later) (floors : floor ≤ higher) :
    Promised later higher announcement := by
  rcases announcement with ⟨name, given, _ | wallMs | _⟩
  · exact le_trans promised clocks
  · exact promised
  · exact lt_of_lt_of_le promised floors

omit [DecidableEq ι] in
theorem Promised.proceed {floor : UInt64} {announcement : Announcement} (proceeds : Proceeds live after)
    (promised : ∀ id announcement, live.threads id = some announcement →
      Promised live.store.clock.last.wallMs floor announcement)
    (present : after.threads id = some announcement) : Promised after.store.clock.last.wallMs floor announcement := by
  cases proceeds.comes id announcement present with
  | kept waiting => exact (promised id _ waiting).mono proceeds.clock le_rfl
  | changed => exact le_refl after.store.clock.last.wallMs
  | measured waiting => exact promised id _ waiting

theorem note_rises {floor wallMs : UInt64} (unwrapped : floor ≤ wallMs → wallMs ≤ maxWord - registerHlcFloorBatchMs) :
    wallMs < (noteRegisterHlcWallMs floor wallMs).1 ∧ floor ≤ (noteRegisterHlcWallMs floor wallMs).1 := by
  by_cases crosses : floor ≤ wallMs
  · have rises : wallMs < wallMs + registerHlcFloorBatchMs := word_lt_add (unwrapped crosses) (by decide)
    simp only [noteRegisterHlcWallMs, crosses, if_true]
    exact ⟨rises, crosses.trans rises.le⟩
  · simp only [noteRegisterHlcWallMs, crosses, if_false, le_refl, and_true]
    exact not_le.mp crosses

omit [DecidableEq ι] in
theorem Punctual.proceed {stored : Option UInt64} {broadcasts : List SentRegister} (punctual : Punctual s)
    (running : s.running = some live) (proceeds : Proceeds live after) (kept : stored = s.stored) :
    Punctual { stored := stored, session := s.session, running := some after, broadcasts := broadcasts } := by
  subst kept
  refine ⟨fun _ here => ?_, fun _ here id announcement present => ?_⟩
  · cases here
    exact proceeds.floor.trans (punctual.cached live running)
  · cases here
    exact Promised.proceed proceeds (punctual.promised live running) present

theorem Punctual.step {event : SessionEvent ι} (punctual : Punctual s) (unwrapped : Unwrapped s event)
    (taken : s.step event = some next) : Punctual next := by
  cases event with
  | start localHost registerTtlSeconds registerMaxCount =>
    cases start_takes taken
    refine ⟨fun _ here => ?_, fun _ here id announcement present => ?_⟩
    · cases here
      rfl
    · cases here
      cases present
  | stop =>
    cases taken
    exact ⟨nofun, nofun⟩
  | work work =>
    obtain ⟨live, after, running, proceeds, rfl⟩ := work_takes taken
    exact punctual.proceed running proceeds rfl
  | note id =>
    obtain ⟨live, name, given, wallMs, running, waiting, rfl⟩ := note_takes taken
    have cached := punctual.cached live running
    have promised := punctual.promised live running
    obtain ⟨above, rises⟩ := note_rises (unwrapped live running _ waiting wallMs rfl)
    refine ⟨fun _ here => ?_, fun _ here other announcement present => ?_⟩
    · cases here
      exact (note_floor cached).symm
    · cases here
      rw [storedFloor, note_floor cached]
      rcases afterNote_threads present with ⟨_, kept⟩ | ⟨_, rfl⟩
      · exact (promised other announcement kept).mono le_rfl (cached.symm.le.trans rises)
      · have below : given.wallMs ≤ wallMs := promised id _ waiting
        exact below.trans_lt above
  | broadcast id now =>
    obtain ⟨live, name, given, after, running, waiting, proceeds, rfl⟩ := broadcast_takes taken
    exact punctual.proceed running proceeds rfl

theorem Ahead.outlives (ahead : Ahead s) : Outlives s := by
  intro localHost registerTtlSeconds registerMaxCount events last path earlier before later member session
  obtain _ | ⟨_, stopped, path⟩ := path
  cases stopped
  obtain _ | ⟨_, started, path⟩ := path
  cases started
  have begun := ahead.start_lifted localHost registerTtlSeconds registerMaxCount
  have lifted : Lifted s.storedFloor (s.session + 1) last :=
    path.invariant (Lifted s.storedFloor (s.session + 1)) (fun _ _ _ lifted _ taken => lifted.step taken) begun
  rw [Hlc.lt_iff]
  exact .inl ((ahead.below earlier before).trans_le (lifted.sent later member session))

def returning (floor : UInt64) : RegisterRecord where
  name := [0x61]
  value := []
  written := { wallMs := floor, counter := maxWord }
  touched := { wallMs := floor, counter := maxWord }
  originHostId := .zero
  flags := 0

def relapse (id : ι) (floor : UInt64) : List (SessionEvent ι) :=
  [.work (.applyRemote 0 (returning floor)), .work (.delete id (.all 0) [0x61] .zero), .work (.clockHighWater id),
   .note id, .broadcast id 0]

theorem unexpired_at_zero {r : RegisterRecord} {ttlMs : UInt64} (positive : 0 < ttlMs) :
    isExpired r 0 ttlMs = false := by
  rw [Bool.eq_false_iff]
  intro expired
  rw [isExpired_iff] at expired
  rw [UInt64.lt_iff_toNat_lt] at positive
  change 0 < ttlMs.toNat at positive
  change _ ≤ 0 at expired
  omega

theorem returning_removed {floor : UInt64} (clock : store.clock.last = { wallMs := floor, counter := 0 })
    (ttl : 0 < store.ttlMs) (empty : store.records.find [0x61] = none) :
    let call := (store.applyRemote 0 (returning floor)).store.deleteFrom (.all 0) [0x61] .zero
    call.result = .deleted ∧ call.store.clockHighWater = { wallMs := floor, counter := 0 } ∧
      ∃ r, (call.store.getForBroadcast 0 [0x61]).result = some r := by
  let applied := (store.applyRemoteLocked 0 (returning floor)).2
  have named : (returning floor).name ≠ [] := List.cons_ne_nil _ _
  have found : applied.records.find [0x61] = some (returning floor) := by
    have resident := applyRemote_find store 0 [0x61] named (unexpired_at_zero ttl)
    have same : (returning floor).name = [0x61] := rfl
    rw [if_pos same] at resident
    simpa [unexpired, same, empty, absorb] using resident
  have top : applied.clock.last = { wallMs := floor, counter := maxWord } := by
    have below : ({ wallMs := floor, counter := 0 } : Hlc) ≤ { wallMs := floor, counter := maxWord } :=
      (Hlc.le_iff _ _).mpr (.inr ⟨rfl, le_maxWord 0⟩)
    have witnessed := congrArg HlcClock.last (applyRemote_clock store 0 named)
    rw [witnessed]
    simp [witnessAll, returning, clock, below]
  have lives : 0 < applied.ttlMs := (applyRemote_ttlMs store 0 (returning floor)).symm ▸ ttl
  let minted := applied.clock.now 0
  let tombstone := tombstoneRecord (returning floor) .zero minted.1
  have wraps : minted.1 = { wallMs := floor, counter := 0 } := by
    have held : ¬ (0 : UInt64) > floor := not_lt.mpr UInt64.zero_le
    simp [minted, HlcClock.now, top, held, maxWord_succ]
  have removed : applied.deleteLocked (.all 0) [0x61] .zero = (.deleted, install applied minted.2 tombstone) := by
    have fresh : isExpired (returning floor) 0 applied.ttlMs = false := unexpired_at_zero lives
    have alive : (returning floor).isTombstone = false := by
      change decide ((0 : UInt8) &&& RegisterFlags.tombstone ≠ 0) = false
      decide
    simp [deleteLocked, found, Readings.all, fresh, alive, install, minted, tombstone]
  have call : (store.applyRemote 0 (returning floor)).store.deleteFrom (.all 0) [0x61] .zero =
      { result := .deleted, store := install applied minted.2 tombstone, notified := true } := by
    change RegisterStore.deleteFrom applied (.all 0) [0x61] .zero = _
    simp [deleteFrom, removed]
  simp only [call]
  refine ⟨trivial, wraps, ?_⟩
  rw [getForBroadcast_result]
  refine ⟨tombstone, unexpired_eq_some.mpr ⟨?_, ?_⟩⟩
  · exact install_find_self _
  · exact unexpired_at_zero lives

theorem relapse_runs (s : ClockedDevice ι) (id : ι) :
    ∃ last, Path ClockedDevice.step (fun _ _ => True) s
        (.stop :: .start .zero 1 0 :: relapse id s.storedFloor) last ∧
      ∃ later ∈ last.broadcasts, later.session = s.session + 1 ∧
        later.given = { wallMs := s.storedFloor, counter := 0 } := by
  let live := s.begin .zero 1 0
  have clock : live.store.clock.last = { wallMs := s.storedFloor, counter := 0 } := max_eq_right (Hlc.zero_le _)
  have ttl : 0 < live.store.ttlMs := by
    change (0 : UInt64) < 1 * 1000
    decide
  obtain ⟨deleted, given, r, fetched⟩ := returning_removed clock ttl rfl
  let received := { live with store := (live.store.applyRemote 0 (returning s.storedFloor)).store }
  let call := received.store.deleteFrom (.all 0) [0x61] .zero
  let announced (stage : AnnouncementStage) : Announcement :=
    { name := some [0x61], given := call.store.clockHighWater, stage := stage }
  let removed := received.changed id (some [0x61]) call.store
  let wallMs := call.store.clockHighWater.wallMs
  let measured := removed.put id (some (announced (.measured wallMs)))
  let noted := afterNote measured id (some [0x61]) call.store.clockHighWater wallMs
  let stored := (noteRegisterHlcWallMs live.registerHlcFloorMs wallMs).2.or s.stored
  let begun : ClockedDevice ι := { s with session := s.session + 1, running := some live }
  have removes : received.work (.delete id (.all 0) [0x61] .zero) = some removed := if_pos deleted
  have changed : removed.threads id = some (announced .changed) := Function.update_self ..
  have measures : removed.work (.clockHighWater id) = some measured := by
    simp only [RegisterSession.work, changed, announced]
    rfl
  have reading : measured.threads id = some (announced (.measured wallMs)) := Function.update_self ..
  have ready : noted.threads id = some (announced .noted) := Function.update_self ..
  have deletes : ({ begun with running := some received } : ClockedDevice ι).step
      (.work (.delete id (.all 0) [0x61] .zero)) = some { begun with running := some removed } := by
    simp only [ClockedDevice.step, Option.bind_some, removes]
  have reads : ({ begun with running := some removed } : ClockedDevice ι).step (.work (.clockHighWater id)) =
      some { begun with running := some measured } := by
    simp only [ClockedDevice.step, Option.bind_some, measures]
  have notes : ({ begun with running := some measured } : ClockedDevice ι).step (.note id) =
      some { begun with stored := stored, running := some noted } := by
    simp only [ClockedDevice.step, reading, announced]
    rfl
  have sends : ({ begun with stored := stored, running := some noted } : ClockedDevice ι).step (.broadcast id 0) =
      some { begun with
        stored := stored
        running := some { noted.put id none with store := (call.store.getForBroadcast 0 [0x61]).store }
        broadcasts := .carrying (s.session + 1) call.store.clockHighWater r :: s.broadcasts } := by
    have fetches : (noted.store.getForBroadcast 0 [0x61]).result = some r := fetched
    simp only [ClockedDevice.step, ready, announced, fetches]
    rfl
  refine ⟨_, .cons trivial rfl (.cons trivial rfl (.cons trivial rfl (.cons trivial deletes (.cons trivial reads
    (.cons trivial notes (.cons trivial sends (.nil _))))))), _, List.mem_cons_self, rfl, given⟩

/-- A record at or above the floor has nothing to stop the next session from giving a stamp below it. -/
theorem outlives_below (id : ι) (outlives : Outlives s) : Below s := by
  intro sent member
  obtain ⟨last, path, later, inside, session, given⟩ := relapse_runs s id
  have above := outlives _ _ _ _ _ path sent member later inside session
  rw [given, Hlc.lt_iff] at above
  rcases above with below | ⟨_, negative⟩
  · exact below
  · exact absurd negative (not_lt.mpr UInt64.zero_le)

theorem Ahead.fits_iff_outlives {event : SessionEvent ι} (ahead : Ahead s) (taken : s.step event = some next) :
    FloorFits s event ↔ Outlives next := by
  refine ⟨fun fits => (ahead.step fits taken).outlives, fun outlives => ?_⟩
  cases event with
  | note id => exact (ahead.fits_iff taken).mpr (outlives_below id outlives)
  | broadcast id now => exact (ahead.fits_iff taken).mpr (outlives_below id outlives)
  | _ => trivial

/-- Stamps rise over any number of sessions and crashes while the steps fit, and a step does exactly when a crash
    right after it is harmless. -/
theorem register_stamps_rise_across_sessions (stored : Option UInt64) (events : List (SessionEvent ι))
    (s : ClockedDevice ι) (path : Path ClockedDevice.step FloorFits (ClockedDevice.boot stored) events s) :
    StampsRise s ∧ ∀ event next, s.step event = some next → (FloorFits s event ↔ Outlives next) :=
  ⟨(run_ahead path).stampsRise, fun _ _ taken => (run_ahead path).fits_iff_outlives taken⟩

end

inductive DaemonThread where
  | ui
  | peer (logId : Nat)
  deriving DecidableEq

def saveRegister (now : UInt64) : List (SessionEvent DaemonThread) :=
  [.work (.upsertWithFlags .ui (.all now) [0x61] [] 0 .zero), .work (.clockHighWater .ui), .note .ui,
   .broadcast .ui now]

def setBack : List (SessionEvent DaemonThread) :=
  .start .zero 3600 1024 :: saveRegister 1000000 ++ .stop :: .start .zero 3600 1024 :: saveRegister 500

theorem set_back_stamps_rise :
    StampsRise (lastOf ClockedDevice.step (ClockedDevice.boot none) setBack) ∧
      ∀ event next, (lastOf ClockedDevice.step (ClockedDevice.boot none) setBack).step event = some next →
        (FloorFits (lastOf ClockedDevice.step (ClockedDevice.boot none) setBack) event ↔ Outlives next) :=
  register_stamps_rise_across_sessions none setBack _ (fitting_to_lastOf (by decide +kernel))

def farAhead : RegisterRecord where
  name := [0x62]
  value := []
  written := { wallMs := maxWord - 1000, counter := 0 }
  touched := { wallMs := maxWord - 1000, counter := 0 }
  originHostId := .zero
  flags := 0

def wrapped : List (SessionEvent DaemonThread) :=
  .start .zero 3600 1024 :: .work (.applyRemote 1000000 farAhead) :: saveRegister 1000000 ++
    .stop :: .start .zero 3600 1024 :: saveRegister 2000000

theorem wrapped_floor_lowers_stamps :
    ¬ ∀ events (s : ClockedDevice DaemonThread),
      Path ClockedDevice.step (fun _ _ => True) (ClockedDevice.boot none) events s → StampsRise s := by
  intro always
  have run : Path ClockedDevice.step (fun _ _ => True) (ClockedDevice.boot none) wrapped
      (lastOf ClockedDevice.step (ClockedDevice.boot none) wrapped) :=
    path_to_lastOf (fun _ _ _ => trivial) (by decide +kernel)
  have sent : (lastOf ClockedDevice.step (ClockedDevice.boot none) wrapped).broadcasts =
      [{ session := 2, given := { wallMs := 2000000, counter := 0 }, written := { wallMs := 2000000, counter := 0 } },
       { session := 1, given := { wallMs := maxWord - 1000, counter := 1 },
         written := { wallMs := maxWord - 1000, counter := 1 } }] := by decide +kernel
  have rises := always wrapped _ run
  rw [StampsRise, sent] at rises
  exact absurd rises (by decide)

end ClippProof.Settings
