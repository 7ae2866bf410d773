import Clipp.Clipboard.ReadModifyWrite
import Clipp.Registers.Listeners

open Foundation

namespace ClippProof.Clipboard

open ClippModel.Registers ClippModel.Registers.RegisterStore ClippModel.Clipboard ClippProof.Registers

variable {s : RegisterStore} {d after : Desktop} {l : DesktopStep} {t : Readings} {clock : ActivityClock}
  {name : Bytes} {r found : RegisterRecord}

/-- The live record that a delete turned into a tombstone, and the stamp of the tombstone. -/
structure Burial where
  record : RegisterRecord
  stamp : Hlc

def burialBy (s : RegisterStore) (t : Readings) (name : Bytes) : Option Burial :=
  match unexpired s t.expiry name with
  | some r => if r.isTombstone then none else some { record := r, stamp := (s.clock.now t.mint).1 }
  | none => none

/-- A desktop beside the burial that its undo slot stands for. -/
structure Undoable where
  desktop : Desktop
  armed : Option Burial

namespace Undoable

def start (d : Desktop) : Undoable := { desktop := d, armed := none }

def rearmed (st : Undoable) : DesktopStep → Option Burial
  | .start .disarmUndoDelete => none
  | .next t _ =>
    match st.desktop.doing with
    | .deleteWrites name _ => (burialBy st.desktop.registers t name).or st.armed
    | .activityRemoves itemID _ => if (st.desktop.activity.remove itemID).removed then none else st.armed
    | .disarms => none
    | _ => st.armed
  | _ => st.armed

def step (st : Undoable) (l : DesktopStep) : Option Undoable :=
  (st.desktop.step l).map fun after => { desktop := after, armed := st.rearmed l }

/-- The slot holds a register exactly where a delete of the user stands to be undone, and then that register. -/
structure SlotHolds (st : Undoable) : Prop where
  armed : ∀ b, st.armed = some b → st.desktop.undoSlot = snapshotSlot b.record
  empty : st.armed = none → ∀ name value valueFlags origin,
    st.desktop.undoSlot ≠ .register name value valueFlags origin

/-- The delete buries what its snapshot shows, and no stamp is minted from an exhausted counter. -/
structure SnapshotCurrent (st : Undoable) (l : DesktopStep) : Prop where
  current : ∀ t clock name found, l = .next t clock → st.desktop.doing = .deleteWrites name found →
    ∀ r, unexpired st.desktop.registers t.expiry name = some r → r.isTombstone = false →
      found.map snapshotSlot = some (snapshotSlot r)
  fits : ∀ call, st.desktop.callOf l = some call → MintFits st.desktop.registers call

end Undoable

theorem burialBy_eq_some {b : Burial} : burialBy s t name = some b ↔
    unexpired s t.expiry name = some b.record ∧ b.record.isTombstone = false ∧
      b.stamp = (s.clock.now t.mint).1 := by
  unfold burialBy
  cases live : unexpired s t.expiry name with
  | none => simp
  | some r =>
    dsimp only
    split_ifs with dead
    · constructor
      · intro equal
        cases equal
      · rintro ⟨same, value, _⟩
        cases same
        rw [dead] at value
        cases value
    · constructor
      · intro equal
        cases equal
        exact ⟨rfl, by simpa using dead, rfl⟩
      · rintro ⟨same, _, stamp⟩
        cases same
        rw [← stamp]

theorem burialBy_isSome : (burialBy s t name).isSome = true ↔ Living s t name := by
  rw [Option.isSome_iff_exists]
  constructor
  · rintro ⟨b, buried⟩
    obtain ⟨live, value, _⟩ := burialBy_eq_some.mp buried
    exact ⟨b.record, live, value⟩
  · rintro ⟨r, live, value⟩
    exact ⟨{ record := r, stamp := (s.clock.now t.mint).1 }, burialBy_eq_some.mpr ⟨live, value, rfl⟩⟩

theorem delete_stamp {b : Burial} (buried : burialBy s t name = some b) :
    (s.delete t name).store.clock.last = b.stamp ∧
      (s.delete t name).store.records.find name = some (tombstoneRecord b.record s.localHost b.stamp) := by
  obtain ⟨live, value, stamp⟩ := burialBy_eq_some.mp buried
  have key : b.record.name = name := unexpired_name live
  change (s.deleteLocked t name s.localHost).2.clock.last = _ ∧ _
  rcases deleteLocked_cases s t name s.localHost with ⟨missed, _⟩ | ⟨q, other, _, equal⟩
  · have deleted := delete_deleted_iff.mpr ⟨b.record, live, value⟩
    change (s.deleteLocked t name s.localHost).1 = .deleted at deleted
    rw [missed] at deleted
    cases deleted
  · rw [live] at other
    cases other
    rw [stamp]
    refine ⟨congrArg (fun pair => pair.2.clock.last) equal, ?_⟩
    change (s.deleteLocked t name s.localHost).2.records.find name = _
    rw [equal, ← key]
    exact install_find_self (r := tombstoneRecord b.record s.localHost (s.clock.now t.mint).1) _

def slotAfter (d : Desktop) (t : Readings) : UndoSlot :=
  match d.doing with
  | .deleteWrites name found =>
    if (d.registers.delete t name).result = .deleted then slotAfterDelete d.undoSlot found else d.undoSlot
  | .activityRemoves itemID stored =>
    if (d.activity.remove itemID).removed then .activity stored else d.undoSlot
  | .disarms => .none
  | _ => d.undoSlot

theorem next_slot (taken : d.next t clock = some after) : after.undoSlot = slotAfter d t := by
  unfold Desktop.next at taken
  unfold slotAfter
  cases doing : d.doing with
  | returned result =>
    rw [doing] at taken
    cases taken
  | activityReads itemID =>
    rw [doing] at taken
    dsimp only at taken
    split at taken <;> cases taken <;> rfl
  | activityRemoves itemID stored =>
    rw [doing] at taken
    cases taken
    unfold Desktop.deleteActivity
    dsimp only
    split_ifs <;> rfl
  | deleteWrites name found =>
    rw [doing] at taken
    dsimp only at taken ⊢
    split_ifs at taken ⊢ <;> cases taken <;> rfl
  | privateReads name isPrivate =>
    rw [doing] at taken
    dsimp only at taken
    split at taken <;> cases taken <;> rfl
  | undoWrites =>
    rw [doing] at taken
    have same : after.undoSlot = d.undoSlot := by
      dsimp only at taken
      split at taken <;> cases taken <;> rfl
    exact same
  | renameReads oldName newName =>
    rw [doing] at taken
    dsimp only at taken
    split at taken <;> cases taken <;> rfl
  | _ =>
    rw [doing] at taken
    cases taken
    rfl

theorem start_slot (verb : Verb) (other : verb ≠ .disarmUndoDelete) : (d.start verb).undoSlot = d.undoSlot := by
  cases verb with
  | disarmUndoDelete => exact absurd rfl other
  | renameRegister oldName newName =>
    unfold Desktop.start
    dsimp only
    split_ifs <;> rfl
  | _ => rfl

namespace Undoable

variable {st later : Undoable}

theorem SlotHolds.same (inv : st.SlotHolds) (slot : later.desktop.undoSlot = st.desktop.undoSlot)
    (armed : later.armed = st.armed) : later.SlotHolds where
  armed := fun b standing => slot.trans (inv.armed b (armed ▸ standing))
  empty := fun none_armed name value valueFlags origin held =>
    inv.empty (armed ▸ none_armed) name value valueFlags origin (slot ▸ held)

theorem slotHolds_unarmed (armed : later.armed = none)
    (slot : ∀ name value valueFlags origin, later.desktop.undoSlot ≠ .register name value valueFlags origin) :
    later.SlotHolds where
  armed := by
    intro b standing
    rw [armed] at standing
    cases standing
  empty := fun _ => slot

theorem slotHolds_armed {b : Burial} (armed : later.armed = some b)
    (slot : later.desktop.undoSlot = snapshotSlot b.record) : later.SlotHolds where
  armed := by
    intro other standing
    rw [armed] at standing
    cases standing
    exact slot
  empty := by
    intro none_armed
    rw [armed] at none_armed
    cases none_armed

theorem slotAfterDelete_current {slot : UndoSlot} {found : Option RegisterRecord}
    (current : found.map snapshotSlot = some (snapshotSlot r)) : slotAfterDelete slot found = snapshotSlot r := by
  obtain ⟨q, rfl, same⟩ := Option.map_eq_some_iff.mp current
  exact same

theorem SlotHolds.called (inv : st.SlotHolds) (current : st.SnapshotCurrent (.next t clock))
    (taken : st.desktop.next t clock = some later.desktop) (armed : later.armed = st.rearmed (.next t clock)) :
    later.SlotHolds := by
  have slot : later.desktop.undoSlot = slotAfter st.desktop t := next_slot taken
  unfold slotAfter at slot
  unfold rearmed at armed
  cases doing : st.desktop.doing with
  | deleteWrites name found =>
    rw [doing] at slot armed
    dsimp only at slot armed
    cases buried : burialBy st.desktop.registers t name with
    | none =>
      have living : ¬ Living st.desktop.registers t name := by
        rw [← burialBy_isSome, buried]
        decide
      rw [if_neg (mt delete_deleted_iff.mp living)] at slot
      rw [buried, Option.none_or] at armed
      exact inv.same slot armed
    | some b =>
      have living : Living st.desktop.registers t name := burialBy_isSome.mp (by rw [buried]; rfl)
      obtain ⟨live, value, _⟩ := burialBy_eq_some.mp buried
      rw [if_pos (delete_deleted_iff.mpr living)] at slot
      rw [buried, Option.some_or] at armed
      refine slotHolds_armed armed (slot.trans ?_)
      exact slotAfterDelete_current (current.current t clock name found rfl doing b.record live value)
  | activityRemoves itemID stored =>
    rw [doing] at slot armed
    dsimp only at slot armed
    split_ifs at slot armed with removed
    · refine slotHolds_unarmed armed fun name value valueFlags origin held => ?_
      cases slot.symm.trans held
    · exact inv.same slot armed
  | disarms =>
    rw [doing] at slot armed
    refine slotHolds_unarmed armed fun name value valueFlags origin held => ?_
    cases slot.symm.trans held
  | _ =>
    rw [doing] at slot armed
    exact inv.same slot armed

theorem rearmed_start {verb : Verb} (other : verb ≠ .disarmUndoDelete) : st.rearmed (.start verb) = st.armed := by
  cases verb with
  | disarmUndoDelete => exact absurd rfl other
  | _ => rfl

theorem SlotHolds.step (inv : st.SlotHolds) (current : st.SnapshotCurrent l) (taken : st.step l = some later) :
    later.SlotHolds := by
  obtain ⟨after, moved, rfl⟩ := Option.map_eq_some_iff.mp taken
  cases l with
  | next t clock => exact inv.called current moved rfl
  | start verb =>
    unfold Desktop.step at moved
    dsimp only at moved
    split at moved
    · cases moved
      by_cases disarms : verb = .disarmUndoDelete
      · subst disarms
        exact slotHolds_unarmed rfl fun _ _ _ _ held => by cases held
      · exact inv.same (start_slot verb disarms) (rearmed_start disarms)
    · cases moved
  | network call =>
    cases moved
    exact inv.same rfl rfl
  | history event =>
    cases moved
    exact inv.same rfl rfl

structure Standing (st : Undoable) : Prop where
  slot : st.SlotHolds
  seen : SeenBy id st.desktop.registers
  lifetime : st.desktop.registers.ttlMs ≠ 0
  stamped : ∀ b, st.armed = some b → b.stamp ≤ st.desktop.registers.clock.last

theorem seen_step (seen : SeenBy id d.registers) (fits : ∀ call, d.callOf l = some call → MintFits d.registers call)
    (taken : d.step l = some after) : SeenBy id after.registers ∧
      d.registers.clock.last ≤ after.registers.clock.last ∧ after.registers.ttlMs = d.registers.ttlMs := by
  have registers := step_registers taken
  cases called : d.callOf l with
  | none =>
    rw [called] at registers
    rw [show after.registers = d.registers from registers]
    exact ⟨seen, le_rfl, rfl⟩
  | some call =>
    rw [called] at registers
    have effect := call_effect d.registers call
    rw [show after.registers = call.after d.registers from registers]
    have fit := fits call called
    exact ⟨effect.seenBy monotone_id fit.lifts seen, effect.clock_mono fit, effect.limits.1⟩

theorem rearmed_cases (st : Undoable) (l : DesktopStep) : st.rearmed l = none ∨ st.rearmed l = st.armed ∨
    ∃ t clock name found, l = .next t clock ∧ st.desktop.doing = .deleteWrites name found ∧
      st.rearmed l = (burialBy st.desktop.registers t name).or st.armed := by
  cases l with
  | start verb =>
    by_cases disarms : verb = .disarmUndoDelete
    · exact .inl (by rw [disarms]; rfl)
    · exact .inr (.inl (rearmed_start disarms))
  | next t clock =>
    unfold rearmed
    cases doing : st.desktop.doing with
    | deleteWrites name found => exact .inr (.inr ⟨t, clock, name, found, rfl, rfl, rfl⟩)
    | activityRemoves itemID stored =>
      dsimp only
      split_ifs
      · exact .inl rfl
      · exact .inr (.inl rfl)
    | disarms => exact .inl rfl
    | _ => exact .inr (.inl rfl)
  | network call => exact .inr (.inl rfl)
  | history event => exact .inr (.inl rfl)

theorem deleteWrites_registers {found : Option RegisterRecord} (doing : d.doing = .deleteWrites name found)
    (taken : d.next t clock = some after) : after.registers = (d.registers.delete t name).store := by
  have registers := next_registers taken
  unfold Desktop.storeCall at registers
  rw [doing] at registers
  exact registers

theorem Standing.step (inv : st.Standing) (current : st.SnapshotCurrent l) (taken : st.step l = some later) :
    later.Standing := by
  have slot := inv.slot.step current taken
  obtain ⟨after, moved, rfl⟩ := Option.map_eq_some_iff.mp taken
  obtain ⟨seen, clock_mono, ttl⟩ := seen_step inv.seen current.fits moved
  refine ⟨slot, seen, by rw [ttl]; exact inv.lifetime, ?_⟩
  intro b standing
  change st.rearmed l = some b at standing
  rcases rearmed_cases st l with disarmed | kept | ⟨t, clock, name, found, rfl, doing, armed⟩
  · rw [disarmed] at standing
    cases standing
  · rw [kept] at standing
    exact (inv.stamped b standing).trans clock_mono
  · rw [armed] at standing
    rcases Option.or_eq_some_iff.mp standing with buried | ⟨_, before⟩
    · change b.stamp ≤ after.registers.clock.last
      rw [deleteWrites_registers doing moved, (delete_stamp buried).1]
    · exact (inv.stamped b before).trans clock_mono

/-- What a step of the two verbs does to the slot and to the register. -/
structure UndoContract (st : Undoable) (l : DesktopStep) (later : Undoable) : Prop where
  deleted : ∀ t clock name found, l = .next t clock → st.desktop.doing = .deleteWrites name found →
    later.desktop.doing ≠ .returned false →
      ∃ r stamp, unexpired st.desktop.registers t.expiry name = some r ∧ r.isTombstone = false ∧
        later.desktop.registers.records.find name =
          some (tombstoneRecord r st.desktop.registers.localHost stamp) ∧
        later.desktop.undoSlot = snapshotSlot r ∧ later.armed = some { record := r, stamp := stamp }
  restored : ∀ t clock name value valueFlags origin, l = .next t clock → st.desktop.doing = .undoWrites →
    st.desktop.undoSlot = .register name value valueFlags origin → later.desktop.doing ≠ .returned false →
      ∃ b r, st.armed = some b ∧ st.desktop.undoSlot = snapshotSlot b.record ∧
        later.desktop.registers.records.find name = some r ∧ r.isTombstone = false ∧
        r.value = value ∧ r.flags = valueFlags ∧ r.originHostId = origin ∧ b.stamp < r.written ∧
        LiveAt later.desktop.registers t.mint name ∧
        ∀ now, now.toNat < t.mint.toNat + st.desktop.registers.ttlMs.toNat →
          unexpired later.desktop.registers now name = some r
  refused : ∀ t clock name value valueFlags origin, l = .next t clock → st.desktop.doing = .undoWrites →
    st.desktop.undoSlot = .register name value valueFlags origin → later.desktop.doing = .returned false →
      later.desktop.undoSlot = st.desktop.undoSlot ∧ later.armed = st.armed ∧
        ∀ now, t.expiry ≤ now → ∀ other,
          unexpired later.desktop.registers now other = unexpired st.desktop.registers now other

theorem undo_next {value : Bytes} {valueFlags : UInt8} {origin : HostId} (doing : d.doing = .undoWrites)
    (slot : d.undoSlot = .register name value valueFlags origin) (taken : d.next t clock = some after) :
    after = d.settled (d.registers.upsertWithFlags t name value valueFlags origin) name .disarms := by
  unfold Desktop.next at taken
  rw [doing, slot] at taken
  exact (Option.some.inj taken).symm

theorem Standing.deleted (inv : st.Standing) (current : st.SnapshotCurrent (.next t clock))
    (moved : st.desktop.next t clock = some later.desktop) (armed : later.armed = st.rearmed (.next t clock))
    {found : Option RegisterRecord} (doing : st.desktop.doing = .deleteWrites name found)
    (going : later.desktop.doing ≠ .returned false) :
    ∃ r stamp, unexpired st.desktop.registers t.expiry name = some r ∧ r.isTombstone = false ∧
      later.desktop.registers.records.find name = some (tombstoneRecord r st.desktop.registers.localHost stamp) ∧
      later.desktop.undoSlot = snapshotSlot r ∧ later.armed = some { record := r, stamp := stamp } := by
  have living : Living st.desktop.registers t name := by
    by_contra dead
    unfold Desktop.next at moved
    rw [doing] at moved
    dsimp only at moved
    rw [if_neg (mt delete_deleted_iff.mp dead)] at moved
    exact going (congrArg Desktop.doing (Option.some.inj moved)).symm
  obtain ⟨b, buried⟩ := Option.isSome_iff_exists.mp (burialBy_isSome.mpr living)
  obtain ⟨live, value, _⟩ := burialBy_eq_some.mp buried
  have standing : later.armed = some b := by
    rw [armed]
    unfold rearmed
    rw [doing]
    dsimp only
    rw [buried, Option.some_or]
  refine ⟨b.record, b.stamp, live, value, ?_, (inv.slot.called current moved armed).armed b standing, standing⟩
  rw [deleteWrites_registers doing moved]
  exact (delete_stamp buried).2

theorem Standing.restored (inv : st.Standing) (current : st.SnapshotCurrent (.next t clock))
    (moved : st.desktop.next t clock = some after) {value : Bytes} {valueFlags : UInt8} {origin : HostId}
    (doing : st.desktop.doing = .undoWrites)
    (slot : st.desktop.undoSlot = .register name value valueFlags origin)
    (going : after.doing ≠ .returned false) :
    ∃ b r, st.armed = some b ∧ st.desktop.undoSlot = snapshotSlot b.record ∧
      after.registers.records.find name = some r ∧ r.isTombstone = false ∧
      r.value = value ∧ r.flags = valueFlags ∧ r.originHostId = origin ∧ b.stamp < r.written ∧
      LiveAt after.registers t.mint name ∧
      ∀ now, now.toNat < t.mint.toNat + st.desktop.registers.ttlMs.toNat →
        unexpired after.registers now name = some r := by
  have settled := undo_next doing slot moved
  have admitted : Admitted st.desktop.registers t name value := by
    by_contra refused
    rw [settled] at going
    exact going (if_neg (mt upsert_accepted_iff.mp refused))
  have accepted := verdict_iff.mpr admitted
  have registers : after.registers = settle st.desktop.registers t name value valueFlags origin .ok := by
    rw [settled]
    change (st.desktop.registers.upsertWithFlags t name value valueFlags origin).store = _
    rw [upsertWithFlags_eq, accepted]
  obtain ⟨b, standing⟩ : ∃ b, st.armed = some b := by
    cases armed : st.armed with
    | none => exact absurd slot (inv.slot.empty armed _ _ _ _)
    | some b => exact ⟨b, rfl⟩
  have snapshot := inv.slot.armed b standing
  have flags : valueFlags = b.record.flags &&& keptValueFlags := by
    rw [slot] at snapshot
    unfold snapshotSlot at snapshot
    exact (UndoSlot.register.inj snapshot).2.2.1
  have fresh : ¬ st.desktop.registers.clock.Exhausted t.mint := by
    refine current.fits (.operation (.upsert t name value valueFlags origin)) ?_ t.mint ⟨admitted, rfl⟩
    change st.desktop.storeCall t = _
    unfold Desktop.storeCall
    rw [doing, slot]
  have shown : ∀ now, now.toNat < t.mint.toNat + st.desktop.registers.ttlMs.toNat →
      unexpired after.registers now name =
        some (writtenRecord name value valueFlags origin (st.desktop.registers.clock.now t.mint).1) := by
    intro now before
    rw [registers]
    exact settle_written now before
  have positive : 0 < st.desktop.registers.ttlMs.toNat := UInt64.pos_iff_ne_zero.mpr inv.lifetime
  refine ⟨b, _, standing, snapshot, ?_, writtenRecord_value _ _ _ _ _, rfl, ?_, rfl, ?_,
    ⟨_, shown t.mint (by omega), writtenRecord_value _ _ _ _ _⟩, shown⟩
  · rw [registers]
    exact install_find_self
      (r := writtenRecord name value valueFlags origin (st.desktop.registers.clock.now t.mint).1) _
  · change valueFlags &&& ~~~RegisterFlags.tombstone = valueFlags
    rw [flags, keptValueFlags_value]
  · exact (inv.stamped b standing).trans_lt (HlcClock.now_above fresh)

theorem Standing.contract (inv : st.Standing) (current : st.SnapshotCurrent l) (taken : st.step l = some later) :
    UndoContract st l later := by
  obtain ⟨after, moved, rfl⟩ := Option.map_eq_some_iff.mp taken
  constructor
  · rintro t clock name found rfl doing going
    exact inv.deleted current moved rfl doing going
  · rintro t clock name value valueFlags origin rfl doing slot going
    exact inv.restored current moved doing slot going
  · rintro t clock name value valueFlags origin rfl doing slot stopped
    have settled := undo_next doing slot moved
    have refused : (st.desktop.registers.upsertWithFlags t name value valueFlags origin).result ≠ .ok := by
      intro accepted
      rw [settled] at stopped
      cases (if_pos accepted).symm.trans stopped
    refine ⟨by rw [settled]; rfl, ?_, ?_⟩
    · change st.rearmed (.next t clock) = st.armed
      unfold rearmed
      rw [doing]
    · intro now judged other
      rw [settled]
      exact ((local_write st.desktop.registers t name value valueFlags origin).refused refused).2 now judged other

/-- Where each delete buries what its snapshot shows and no counter is exhausted, the slot holds what was deleted and
    the undo brings it back above its tombstone, or changes nothing. -/
theorem undo_restores_what_was_deleted (localHost : HostId) (ttlMs : UInt64) (maxCount maxValueBytes : Nat)
    (floor : Hlc) (lifetime : ttlMs ≠ 0) (activity : ClipboardActivityStore) (result : Bool) :
    ∀ steps st, Path Undoable.step SnapshotCurrent (.start
        { registers := configured localHost ttlMs maxCount maxValueBytes floor
          activity := activity
          undoSlot := .none
          localHost := localHost
          sent := []
          doing := .returned result }) steps st →
      st.SlotHolds ∧ ∀ l later, st.SnapshotCurrent l → st.step l = some later → UndoContract st l later := by
  intro steps st path
  have inv : st.Standing := by
    refine path.invariant Standing (fun _ _ _ inv current taken => inv.step current taken) ?_
    refine ⟨slotHolds_unarmed rfl (fun _ _ _ _ held => by cases held), seenBy_configured _ _ _ _ _, lifetime, ?_⟩
    intro b standing
    cases standing
  exact ⟨inv.slot, fun l later current taken => inv.contract current taken⟩

end Undoable

namespace Regret

def registers : RegisterStore := configured HostId.zero RegisterStore.kDefaultTtlMs 8 8 {}
def fresh : Desktop where
  registers := registers
  activity := {}
  undoSlot := .none
  localHost := HostId.zero
  sent := []
  doing := .returned true

def arrives (name : Bytes) (value : UInt8) (stamp : UInt64) : DesktopStep :=
  .network (.operation (.applyRemote 100 (writtenRecord name [value] 0 HostId.zero { wallMs := stamp, counter := 0 })))

def call : DesktopStep := .next (.all 100) ⟨0, 0⟩

/-- A register arrives, and between the snapshot and the tombstone of its delete another value for a register. -/
def steps (name : Bytes) : List DesktopStep :=
  [arrives [0x6B] 0x61 50, .start (.deleteRegisterEverywhere [0x6B]), call, arrives name 0x62 200, call]

def before (name : Bytes) : Undoable := lastOf Undoable.step (.start fresh) ((steps name).take 4)
def ran (name : Bytes) : Undoable := lastOf Undoable.step (.start fresh) (steps name)

def snapshot : RegisterRecord :=
  { writtenRecord [0x6B] [0x61] 0 HostId.zero { wallMs := 50, counter := 0 } with touched := { wallMs := 100, counter := 0 } }

end Regret

theorem storeCall_mints {call : StoreCall} {phys : UInt64} (called : d.storeCall t = some call)
    (mints : Mints s phys call) : t.mint = phys := by
  unfold Desktop.storeCall at called
  split at called
  case h_5 =>
    split at called
    · cases called
      exact mints.2
    · cases called
  all_goals cases called
  all_goals first | exact mints.2 | exact mints.elim

theorem current_next {st : Undoable} (fresh : ¬ st.desktop.registers.clock.Exhausted t.mint)
    (current : ∀ name found, st.desktop.doing = .deleteWrites name found → ∀ r,
      unexpired st.desktop.registers t.expiry name = some r → found.map snapshotSlot = some (snapshotSlot r)) :
    st.SnapshotCurrent (.next t clock) where
  current := by
    intro t' clock' name found same doing r live _
    cases same
    exact current name found doing r live
  fits := fun call called phys mints => storeCall_mints called mints ▸ fresh

theorem current_start (st : Undoable) (verb : Verb) : st.SnapshotCurrent (.start verb) where
  current := by
    intro t clock name found same
    cases same
  fits := by
    intro call called
    cases called

theorem current_arrival (st : Undoable) (now : UInt64) (incoming : RegisterRecord) :
    st.SnapshotCurrent (.network (.operation (.applyRemote now incoming))) where
  current := by
    intro t clock name found same
    cases same
  fits := by
    intro call called phys mints
    cases called
    exact mints.elim

open Regret in
theorem undo_after_other_arrival : (ran [0x6C]).SlotHolds := by
  have path : Path Undoable.step Undoable.SnapshotCurrent (.start fresh) (steps [0x6C]) (ran [0x6C]) := by
    refine .cons (current_arrival _ _ _) rfl (.cons (current_start _ _) rfl (.cons ?_ rfl
      (.cons (current_arrival _ _ _) rfl (.single ?_ rfl))))
    · exact current_next (by decide +kernel) (fun _ _ doing => by cases doing)
    · have snapshots : (before [0x6C]).desktop.doing = .deleteWrites [0x6B] (some snapshot) := by decide +kernel
      have holds : unexpired (before [0x6C]).desktop.registers 100 [0x6B] = some snapshot := by decide +kernel
      refine current_next (by decide +kernel) fun name found doing r live => ?_
      obtain ⟨rfl, rfl⟩ := Doing.deleteWrites.inj (doing.symm.trans snapshots)
      rw [← Option.some.inj (holds.symm.trans live)]
      rfl
  exact (Undoable.undo_restores_what_was_deleted HostId.zero RegisterStore.kDefaultTtlMs 8 8 {} (by decide) {} true
    _ _ path).1

open Regret in
/-- A value that arrives between the snapshot and the tombstone is buried, and the slot holds the value before it. -/
theorem undo_misses_buried_value :
    ¬ ∀ steps st, Path Undoable.step (fun _ _ => True) (.start fresh) steps st → st.SlotHolds := by
  intro all
  have path : Path Undoable.step (fun _ _ => True) (.start fresh) (steps [0x6B]) (ran [0x6B]) :=
    .cons trivial rfl (.cons trivial rfl (.cons trivial rfl (.cons trivial rfl (.single trivial rfl))))
  have holds := all _ _ path
  have slot : (ran [0x6B]).desktop.undoSlot = .register [0x6B] [0x61] 0 HostId.zero := by decide +kernel
  have buried : (ran [0x6B]).armed.map (fun b => b.record.value) = some [0x62] := by decide +kernel
  obtain ⟨b, armed, value⟩ := Option.map_eq_some_iff.mp buried
  have snapshot := slot.symm.trans (holds.armed b armed)
  have same := (UndoSlot.register.inj snapshot).2.1
  rw [value] at same
  exact absurd same (by decide)

end ClippProof.Clipboard
