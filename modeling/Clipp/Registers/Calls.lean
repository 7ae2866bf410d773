import Clipp.Registers.History

open Foundation

namespace ClippModel.Registers

/-- Every call of the store that a thread can make once it is configured. -/
inductive StoreCall where
  | operation (op : StoreOp)
  | mirrorDefault (t : Readings) (value : Bytes)
  | list (t : Readings)
  | listNames (t : Readings)
  | digest (now : UInt64)
  | snapshotForSync (now : UInt64)
  | getForBroadcast (now : UInt64) (name : Bytes)
  | recordsToPush (now : UInt64) (remoteDigest : List RegisterDigestEntry)
  | planPush (now : UInt64) (remoteDigest : List RegisterDigestEntry)
  deriving DecidableEq

namespace StoreCall

def after (s : RegisterStore) : StoreCall → RegisterStore
  | .operation op => perform s op
  | .mirrorDefault t value => s.mirrorDefault t value
  | .list t => (s.list t).store
  | .listNames t => (s.listNames t).store
  | .digest now => (s.digest now).store
  | .snapshotForSync now => (s.snapshotForSync now).store
  | .getForBroadcast now name => (s.getForBroadcast now name).store
  | .recordsToPush now remoteDigest => (s.recordsToPush now remoteDigest).store
  | .planPush now remoteDigest => (s.planPush now remoteDigest).store

def notified (s : RegisterStore) : StoreCall → Bool
  | .operation op => notifies s op
  | .mirrorDefault _ _ => false
  | .list t => (s.list t).notified
  | .listNames t => (s.listNames t).notified
  | .digest now => (s.digest now).notified
  | .snapshotForSync now => (s.snapshotForSync now).notified
  | .getForBroadcast now name => (s.getForBroadcast now name).notified
  | .recordsToPush now remoteDigest => (s.recordsToPush now remoteDigest).notified
  | .planPush now remoteDigest => (s.planPush now remoteDigest).notified

def reading : StoreCall → UInt64
  | .operation op => op.reading
  | .mirrorDefault t _ => t.expiry
  | .list t => t.expiry
  | .listNames t => t.expiry
  | .digest now => now
  | .snapshotForSync now => now
  | .getForBroadcast now _ => now
  | .recordsToPush now _ => now
  | .planPush now _ => now

def step (s : RegisterStore) (call : StoreCall) : Option RegisterStore := some (call.after s)

end StoreCall

def configured (localHost : HostId) (ttlMs : UInt64) (maxCount maxValueBytes : Nat) (floor : Hlc) : RegisterStore :=
  (RegisterStore.create localHost ttlMs maxCount maxValueBytes).seedClockFloor floor

end ClippModel.Registers

namespace ClippProof.Registers

open ClippModel.Registers ClippModel.Registers.RegisterStore

variable {s after : RegisterStore} {call : StoreCall} {fired : Bool} {phys : UInt64} {name : Bytes}
  {r q : RegisterRecord} {β : Type} [LinearOrder β] {f : Hlc → β}

def mirrorRecord (s : RegisterStore) (value : Bytes) (ts : Hlc) : RegisterRecord where
  name := []
  value := value
  written := ts
  touched := ts
  originHostId := s.localHost
  flags := 0

/-- All that a call can do to the store, and whether it calls the listeners. -/
inductive Effect (s : RegisterStore) : StoreCall → RegisterStore → Bool → Prop where
  | dropped (call : StoreCall) (after : RegisterStore) (drop : Dropped call.reading s after) : Effect s call after false
  | mirrored (t : Readings) (value : Bytes) : Effect s (.mirrorDefault t value)
      (install s (s.clock.now t.mint).2 (mirrorRecord s value (s.clock.now t.mint).1)) false
  | stored (t : Readings) (name value : Bytes) (valueFlags : UInt8) (origin : HostId)
      (admitted : Admitted s t name value) : Effect s (.operation (.upsert t name value valueFlags origin))
      (install (s.pruneExpiredLocked t.expiry) (s.clock.now t.mint).2
        (writtenRecord name value valueFlags origin (s.clock.now t.mint).1)) true
  | touched (t : Readings) (name : Bytes) (r : RegisterRecord) (live : unexpired s t.expiry name = some r)
      (value : r.isTombstone = false) : Effect s (.operation (.read t name))
      (install s (s.clock.now t.mint).2 { r with touched := (s.clock.now t.mint).1 }) true
  | buried (t : Readings) (name : Bytes) (origin : HostId) (r : RegisterRecord)
      (live : unexpired s t.expiry name = some r) (value : r.isTombstone = false) :
      Effect s (.operation (.delete t name origin))
        (install s (s.clock.now t.mint).2 (tombstoneRecord r origin (s.clock.now t.mint).1)) true
  | received (now : UInt64) (incoming : RegisterRecord) : Effect s (.operation (.applyRemote now incoming))
      (s.applyRemoteLocked now incoming).2 (s.applyRemoteLocked now incoming).1

theorem effect_of_upsert (s : RegisterStore) (t : Readings) (name value : Bytes) (valueFlags : UInt8)
    (origin : HostId) : Effect s (.operation (.upsert t name value valueFlags origin))
      (s.upsertWithFlags t name value valueFlags origin).store
      (s.upsertWithFlags t name value valueFlags origin).notified := by
  have shape : s.upsertWithFlags t name value valueFlags origin =
      { result := (s.upsertLocked t name value valueFlags origin).1
        store := (s.upsertLocked t name value valueFlags origin).2
        notified := (s.upsertLocked t name value valueFlags origin).1 = .ok } := rfl
  rw [shape]
  rcases upsertLocked_cases s t name value valueFlags origin with ⟨refused, drop⟩ | ⟨admitted, equal⟩
  · simp only [refused, decide_false]
    exact .dropped _ _ drop
  · rw [equal]
    exact .stored t name value valueFlags origin admitted

theorem effect_of_delete (s : RegisterStore) (t : Readings) (name : Bytes) (origin : HostId) :
    Effect s (.operation (.delete t name origin)) (s.deleteFrom t name origin).store
      (s.deleteFrom t name origin).notified := by
  have shape : s.deleteFrom t name origin =
      { result := (s.deleteLocked t name origin).1
        store := (s.deleteLocked t name origin).2
        notified := (s.deleteLocked t name origin).1 = .deleted } := rfl
  rw [shape]
  rcases deleteLocked_cases s t name origin with ⟨missed, drop⟩ | ⟨r, live, value, equal⟩
  · rw [missed]
    exact .dropped _ _ drop
  · rw [equal]
    exact .buried t name origin r live value

theorem effect_of_read (s : RegisterStore) (t : Readings) (name : Bytes) :
    Effect s (.operation (.read t name)) (s.read t name).store (s.read t name).notified := by
  rcases read_cases s t name with ⟨_, quiet, drop⟩ | ⟨r, live, value, equal⟩
  · rw [quiet]
    exact .dropped _ _ drop
  · rw [equal]
    exact .touched t name r live value

theorem getForBroadcast_quiet (s : RegisterStore) (now : UInt64) (name : Bytes) :
    (s.getForBroadcast now name).notified = false := by
  unfold getForBroadcast
  cases s.records.find name with
  | none => rfl
  | some r =>
    dsimp only
    split_ifs <;> rfl

theorem call_effect (s : RegisterStore) (call : StoreCall) : Effect s call (call.after s) (call.notified s) := by
  cases call with
  | operation op =>
    cases op with
    | upsert t name value valueFlags origin => exact effect_of_upsert s t name value valueFlags origin
    | delete t name origin => exact effect_of_delete s t name origin
    | read t name => exact effect_of_read s t name
    | applyRemote now incoming => exact .received now incoming
  | mirrorDefault t value => exact .mirrored t value
  | list t => exact .dropped (.list t) _ (dropped_prune s t.expiry)
  | listNames t => exact .dropped (.listNames t) _ (dropped_prune s t.expiry)
  | digest now => exact .dropped (.digest now) _ (dropped_prune s now)
  | snapshotForSync now => exact .dropped (.snapshotForSync now) _ (dropped_prune s now)
  | getForBroadcast now name =>
    have quiet : (StoreCall.getForBroadcast now name).notified s = false := getForBroadcast_quiet s now name
    rw [quiet]
    exact .dropped (.getForBroadcast now name) _ (getForBroadcast_dropped s now name)
  | recordsToPush now remoteDigest => exact .dropped (.recordsToPush now remoteDigest) _ (dropped_prune s now)
  | planPush now remoteDigest => exact .dropped (.planPush now remoteDigest) _ (dropped_prune s now)

def Mints (s : RegisterStore) (phys : UInt64) : StoreCall → Prop
  | .operation (.upsert t name value _ _) => Admitted s t name value ∧ t.mint = phys
  | .operation (.delete t name _) => Living s t name ∧ t.mint = phys
  | .operation (.read t name) => Living s t name ∧ t.mint = phys
  | .mirrorDefault t _ => t.mint = phys
  | _ => False

/-- No stamp is minted from an exhausted counter. -/
def MintFits (s : RegisterStore) (call : StoreCall) : Prop := ∀ phys, Mints s phys call → ¬ s.clock.Exhausted phys

/-- What the stamp measure has of a resident never passes what it has of the clock. -/
def SeenBy (f : Hlc → β) (s : RegisterStore) : Prop :=
  ∀ name r, s.records.find name = some r → f r.written ≤ f s.clock.last ∧ f r.touched ≤ f s.clock.last

/-- Stamps the call mints are not below the clock in the measure. -/
def LiftsBy (f : Hlc → β) (s : RegisterStore) (call : StoreCall) : Prop :=
  ∀ phys, Mints s phys call → f s.clock.last ≤ f (s.clock.now phys).1

theorem wall_now_mono (c : HlcClock) (phys : UInt64) : c.last.wallMs ≤ (c.now phys).1.wallMs := by
  unfold HlcClock.now
  split_ifs with lifted
  · exact lifted.le
  · exact le_rfl

theorem liftsBy_wall (s : RegisterStore) (call : StoreCall) : LiftsBy Hlc.wallMs s call :=
  fun phys _ => wall_now_mono s.clock phys

theorem MintFits.lifts (fits : MintFits s call) : LiftsBy id s call :=
  fun phys mints => (HlcClock.now_above (fits phys mints)).le

theorem wall_monotone : Monotone Hlc.wallMs := fun _ _ le => Hlc.wall_mono le

theorem Dropped.seenBy {expiry : UInt64} (drop : Dropped expiry s after) (seen : SeenBy f s) : SeenBy f after := by
  intro name r found
  rw [drop.clock]
  exact seen name r (drop.find_of_some found)

theorem install_seenBy (seen : SeenBy f s) (lifted : f s.clock.last ≤ f (s.clock.now phys).1)
    (stamps : f r.written ≤ f (s.clock.now phys).1 ∧ f r.touched ≤ f (s.clock.now phys).1) :
    SeenBy f (install s (s.clock.now phys).2 r) := by
  intro name q found
  rw [install_find] at found
  split_ifs at found
  · cases found
    exact stamps
  · exact ⟨(seen name q found).1.trans lifted, (seen name q found).2.trans lifted⟩

theorem witness_seen (mono : Monotone f) (c : HlcClock) (r : RegisterRecord) :
    f r.written ≤ f (witnessAll c r).last ∧ f r.touched ≤ f (witnessAll c r).last :=
  ⟨mono (stamped_witnessAll c r).1, mono (stamped_witnessAll c r).2⟩

theorem applyRemote_seenBy (mono : Monotone f) (seen : SeenBy f s) (now : UInt64) (incoming : RegisterRecord) :
    SeenBy f (s.applyRemoteLocked now incoming).2 := by
  by_cases named : incoming.name = []
  · rw [applyRemote_nameless s now named]
    exact seen
  have clock := applyRemote_clock s now named
  have closed : MergeClosed (fun r => f r.written ≤ f (witnessAll s.clock incoming).last ∧
      f r.touched ≤ f (witnessAll s.clock incoming).last) := by
    intro a b _ left right
    constructor
    · rcases written_mergeRecords a b with same | same
      · exact same ▸ left.1
      · exact same ▸ right.1
    · rcases max_choice a.touched b.touched with same | same
      · exact (congrArg f same).trans_le left.2
      · exact (congrArg f same).trans_le right.2
  intro name r found
  rw [clock]
  refine applyRemote_residents closed ?_ (witness_seen mono s.clock incoming) found
  intro other p resident
  have lifted := mono (witnessAll_mono s.clock incoming)
  exact ⟨(seen other p resident).1.trans lifted, (seen other p resident).2.trans lifted⟩

theorem Effect.seenBy (effect : Effect s call after fired) (mono : Monotone f) (lifts : LiftsBy f s call)
    (seen : SeenBy f s) : SeenBy f after := by
  cases effect with
  | dropped _ _ drop => exact drop.seenBy seen
  | mirrored t value => exact install_seenBy seen (lifts t.mint rfl) ⟨le_rfl, le_rfl⟩
  | stored t name value valueFlags origin admitted =>
    have pruned := (dropped_prune s t.expiry).seenBy seen
    exact install_seenBy pruned (lifts t.mint ⟨admitted, rfl⟩) ⟨le_rfl, le_rfl⟩
  | touched t name r live value =>
    have lifted := lifts t.mint ⟨⟨r, live, value⟩, rfl⟩
    have stamps := seen name r (unexpired_eq_some.mp live).1
    exact install_seenBy seen lifted ⟨stamps.1.trans lifted, le_rfl⟩
  | buried t name origin r live value =>
    exact install_seenBy seen (lifts t.mint ⟨⟨r, live, value⟩, rfl⟩) ⟨le_rfl, le_rfl⟩
  | received now incoming => exact applyRemote_seenBy mono seen now incoming

theorem Effect.clock_mono (effect : Effect s call after fired) (fits : MintFits s call) :
    s.clock.last ≤ after.clock.last := by
  cases effect with
  | dropped _ _ drop => rw [drop.clock]
  | mirrored t value => exact (HlcClock.now_above (fits t.mint rfl)).le
  | stored t name value valueFlags origin admitted => exact (HlcClock.now_above (fits t.mint ⟨admitted, rfl⟩)).le
  | touched t name r live value => exact (HlcClock.now_above (fits t.mint ⟨⟨r, live, value⟩, rfl⟩)).le
  | buried t name origin r live value => exact (HlcClock.now_above (fits t.mint ⟨⟨r, live, value⟩, rfl⟩)).le
  | received now incoming =>
    by_cases named : incoming.name = []
    · rw [applyRemote_nameless s now named]
    · rw [applyRemote_clock s now named]
      exact witnessAll_mono _ _

theorem seenBy_configured (localHost : HostId) (ttlMs : UInt64) (maxCount maxValueBytes : Nat) (floor : Hlc) :
    SeenBy f (configured localHost ttlMs maxCount maxValueBytes floor) := by
  intro name r found
  cases found

theorem Effect.limits (effect : Effect s call after fired) :
    after.ttlMs = s.ttlMs ∧ after.maxCount = s.maxCount ∧ after.maxValueBytes = s.maxValueBytes ∧
      after.localHost = s.localHost := by
  cases effect with
  | dropped _ _ drop =>
    rw [drop.rest]
    exact ⟨rfl, rfl, rfl, rfl⟩
  | mirrored t value => exact ⟨rfl, rfl, rfl, rfl⟩
  | stored t name value valueFlags origin admitted => exact ⟨rfl, rfl, rfl, rfl⟩
  | touched t name r live value => exact ⟨rfl, rfl, rfl, rfl⟩
  | buried t name origin r live value => exact ⟨rfl, rfl, rfl, rfl⟩
  | received now incoming =>
    rw [applyRemote_rest]
    exact ⟨rfl, rfl, rfl, rfl⟩

end ClippProof.Registers
