import Clipp.Clipboard.Actions

open Foundation

namespace ClippProof.Clipboard

open ClippModel.Registers ClippModel.Registers.RegisterStore ClippModel.Clipboard ClippProof.Registers

variable {s : RegisterStore} {d : Desktop} {l : DesktopStep} {t : Readings} {clock : ActivityClock}
  {name value : Bytes} {r found : RegisterRecord} {isPrivate : Bool}

abbrev Holding := Bytes × UInt8

def holdingOf (r : RegisterRecord) : Holding := (r.value, r.flags)

/-- The value resident under the name, if it is not a tombstone. -/
def heldIn (s : RegisterStore) (name : Bytes) : Option Holding :=
  ((s.records.find name).filter (fun r => !r.isTombstone)).map holdingOf

def withPrivacy (isPrivate : Bool) (h : Holding) : Holding :=
  (h.1, (h.2 &&& ~~~RegisterFlags.private_) ||| (if isPrivate then RegisterFlags.private_ else 0))

def carried (h : Holding) : Holding := (h.1, h.2 &&& keptValueFlags)

theorem heldIn_of_value (resident : s.records.find name = some r) (value : r.isTombstone = false) :
    heldIn s name = some (holdingOf r) := by simp [heldIn, resident, value]

theorem heldIn_of_tombstone (resident : s.records.find name = some r) (dead : r.isTombstone = true) :
    heldIn s name = none := by simp [heldIn, resident, dead]

theorem or_and_flags (a b c : UInt8) : (a ||| b) &&& c = (a &&& c) ||| (b &&& c) :=
  UInt8.toBitVec_inj.1 BitVec.and_or_distrib_right

theorem or_private_and (a : UInt8) (isPrivate : Bool) :
    (a ||| (if isPrivate then RegisterFlags.private_ else 0)) &&& ~~~RegisterFlags.private_ =
      a &&& ~~~RegisterFlags.private_ := by
  have cleared : (if isPrivate then RegisterFlags.private_ else 0) &&& ~~~RegisterFlags.private_ = 0 := by
    cases isPrivate <;> decide
  rw [or_and_flags, cleared, UInt8.or_zero]

theorem privacyFlags_eq_iff {flags other : UInt8} :
    privacyFlags flags isPrivate = (withPrivacy isPrivate (value, other)).2 ↔
      other &&& ~~~RegisterFlags.private_ = flags &&& RegisterFlags.binaryHeader := by
  have binary : flags &&& RegisterFlags.binaryHeader &&& ~~~RegisterFlags.private_ =
      flags &&& RegisterFlags.binaryHeader := by
    have apart : RegisterFlags.binaryHeader &&& ~~~RegisterFlags.private_ = RegisterFlags.binaryHeader := by decide
    rw [UInt8.and_assoc, apart]
  have twice : other &&& ~~~RegisterFlags.private_ &&& ~~~RegisterFlags.private_ =
      other &&& ~~~RegisterFlags.private_ := by rw [UInt8.and_assoc, UInt8.and_self]
  unfold privacyFlags withPrivacy
  constructor
  · intro same
    have masked := congrArg (· &&& ~~~RegisterFlags.private_) same
    simp only [or_private_and, binary, twice] at masked
    exact masked.symm
  · intro same
    simp only [same]

theorem privacyFlags_value (flags : UInt8) (isPrivate : Bool) :
    privacyFlags flags isPrivate &&& ~~~RegisterFlags.tombstone = privacyFlags flags isPrivate := by
  have binary : RegisterFlags.binaryHeader &&& ~~~RegisterFlags.tombstone = RegisterFlags.binaryHeader := by decide
  have privacy : (if isPrivate then RegisterFlags.private_ else 0) &&& ~~~RegisterFlags.tombstone =
      (if isPrivate then RegisterFlags.private_ else 0) := by
    cases isPrivate <;> decide
  rw [privacyFlags, or_and_flags, UInt8.and_assoc, binary, privacy]

theorem keptValueFlags_value (flags : UInt8) :
    flags &&& keptValueFlags &&& ~~~RegisterFlags.tombstone = flags &&& keptValueFlags := by
  have kept : keptValueFlags &&& ~~~RegisterFlags.tombstone = keptValueFlags := by decide
  rw [UInt8.and_assoc, kept]

theorem upsert_held (valueFlags : UInt8) (origin : HostId) (accepted : Admitted s t name value) :
    heldIn (s.upsertWithFlags t name value valueFlags origin).store name =
      some (value, valueFlags &&& ~~~RegisterFlags.tombstone) := by
  rw [upsertWithFlags_eq, verdict_iff.mpr accepted]
  let r := writtenRecord name value valueFlags origin (s.clock.now t.mint).1
  exact heldIn_of_value (install_find_self (r := r) _) (writtenRecord_value _ _ _ _ _)

theorem delete_held (living : Living s t name) : heldIn (s.delete t name).store name = none := by
  obtain ⟨r, live, value⟩ := living
  obtain ⟨found, alive⟩ := unexpired_eq_some.mp live
  have key : r.name = name := KeyedMap.find_key found
  change heldIn (s.deleteLocked t name s.localHost).2 name = none
  rcases deleteLocked_cases s t name s.localHost with ⟨missed, _⟩ | ⟨q, live, _, equal⟩
  · simp [deleteLocked, found, alive, value] at missed
  · rw [equal]
    have same : q.name = name := unexpired_name live
    subst same
    exact heldIn_of_tombstone
      (install_find_self (r := tombstoneRecord q s.localHost (s.clock.now t.mint).1) _) (tombstoneRecord_dead _ _ _)

/-- A desktop beside the newest value of every register, as it would be if each verb were one step. -/
structure Ledger where
  desktop : Desktop
  newest : Bytes → Option Holding

namespace Ledger

def start (d : Desktop) : Ledger := { desktop := d, newest := heldIn d.registers }

/-- The verbs' writes change the newest value by what the verb is for; every other step installs what it leaves. -/
def owed (st : Ledger) (t : Readings) (after : RegisterStore) (name : Bytes) : Option Holding :=
  match st.desktop.doing with
  | .privateWrites target isPrivate found =>
    if name = target ∧ (st.desktop.registers.upsertWithFlags t target found.value
        (privacyFlags found.flags isPrivate) st.desktop.localHost).result = .ok then
      (st.newest target).map (withPrivacy isPrivate)
    else heldIn after name
  | .renameWrites oldName newName found =>
    if name = newName ∧ (st.desktop.registers.upsertWithFlags t newName found.value
        (found.flags &&& keptValueFlags) st.desktop.localHost).result = .ok then
      (st.newest oldName).map carried
    else heldIn after name
  | .renameDeletes oldName _ found =>
    -- a value that was not carried must not be buried
    if name = oldName ∧ (st.desktop.registers.delete t oldName).result = .deleted ∧
        (st.newest oldName).map carried ≠ some (carried (holdingOf found)) then st.newest oldName
    else heldIn after name
  | _ => heldIn after name

def step (st : Ledger) (l : DesktopStep) : Option Ledger :=
  (st.desktop.step l).map fun after =>
    { desktop := after
      newest := match l with
        | .next t _ => st.owed t after.registers
        | _ => heldIn after.registers }

/-- No register holds anything but its newest value. -/
def Unreverted (st : Ledger) : Prop := ∀ name, heldIn st.desktop.registers name = st.newest name

/-- Where a verb writes, the register still holds what the verb has read. -/
def ReadsNewest (st : Ledger) : DesktopStep → Prop
  | .next t _ =>
    match st.desktop.doing with
    | .privateWrites target _ found => Admitted st.desktop.registers t target found.value →
      ∃ h, heldIn st.desktop.registers target = some h ∧ h.1 = found.value ∧
        h.2 &&& ~~~RegisterFlags.private_ = found.flags &&& RegisterFlags.binaryHeader
    | .renameWrites oldName newName found => Admitted st.desktop.registers t newName found.value →
      (heldIn st.desktop.registers oldName).map carried = some (carried (holdingOf found))
    | .renameDeletes oldName _ found => Living st.desktop.registers t oldName →
      (heldIn st.desktop.registers oldName).map carried = some (carried (holdingOf found))
    | _ => True
  | _ => True

end Ledger

theorem owed_iff {after : RegisterStore} {target : Bytes} {wrote : Prop} [Decidable wrote] {due : Option Holding} :
    (∀ name, heldIn after name = if name = target ∧ wrote then due else heldIn after name) ↔
      (wrote → heldIn after target = due) := by
  constructor
  · intro all accepted
    simpa [accepted] using all target
  · intro here name
    split_ifs with meant
    · rw [meant.1]
      exact here meant.2
    · rfl

theorem toggled_iff {held : Option Holding} :
    some (found.value, privacyFlags found.flags isPrivate &&& ~~~RegisterFlags.tombstone) =
        held.map (withPrivacy isPrivate) ↔
      ∃ h, held = some h ∧ h.1 = found.value ∧
        h.2 &&& ~~~RegisterFlags.private_ = found.flags &&& RegisterFlags.binaryHeader := by
  rw [privacyFlags_value, eq_comm, Option.map_eq_some_iff]
  refine exists_congr fun h => and_congr_right fun _ => ?_
  rw [Prod.ext_iff, eq_comm (a := (withPrivacy isPrivate h).2)]
  exact and_congr_right fun _ => privacyFlags_eq_iff

theorem renamed_iff {held : Option Holding} :
    some (found.value, found.flags &&& keptValueFlags &&& ~~~RegisterFlags.tombstone) = held.map carried ↔
      held.map carried = some (carried (holdingOf found)) := by
  rw [keptValueFlags_value, eq_comm]
  rfl

theorem buried_iff {held : Option Holding} (living : held.isSome = true) :
    (held.map carried ≠ some (carried (holdingOf found)) → none = held) ↔
      held.map carried = some (carried (holdingOf found)) := by
  constructor
  · intro lost
    by_contra differs
    rw [← lost differs] at living
    cases living
  · intro same differs
    exact absurd same differs

theorem living_held (living : Living s t name) : (heldIn s name).isSome = true := by
  obtain ⟨r, live, value⟩ := living
  rw [heldIn_of_value (unexpired_eq_some.mp live).1 value]
  rfl

/-- A step keeps every newest value exactly when its verb, if it writes, has read the newest value. -/
theorem Ledger.step_exact {st next : Ledger} (inv : st.Unreverted) (taken : st.step l = some next) :
    next.Unreverted ↔ st.ReadsNewest l := by
  unfold Ledger.step at taken
  obtain ⟨after, moved, rfl⟩ := Option.map_eq_some_iff.mp taken
  cases l with
  | next t clock =>
    change (∀ name, heldIn after.registers name = st.owed t after.registers name) ↔ _
    have registers : after.registers =
        ((st.desktop.storeCall t).map fun call => call.after st.desktop.registers).getD st.desktop.registers :=
      next_registers moved
    unfold Ledger.owed Ledger.ReadsNewest
    unfold Desktop.storeCall at registers
    cases doing : st.desktop.doing with
    | privateWrites target isPrivate found =>
      rw [doing] at registers
      dsimp only
      rw [owed_iff, upsert_accepted_iff]
      refine forall_congr' fun accepted => ?_
      have held := upsert_held (privacyFlags found.flags isPrivate) st.desktop.localHost accepted
      rw [registers, ← inv target]
      exact held ▸ toggled_iff
    | renameWrites oldName newName found =>
      rw [doing] at registers
      dsimp only
      rw [owed_iff, upsert_accepted_iff]
      refine forall_congr' fun accepted => ?_
      have held := upsert_held (found.flags &&& keptValueFlags) st.desktop.localHost accepted
      rw [registers, ← inv oldName]
      exact held ▸ renamed_iff
    | renameDeletes oldName newName found =>
      rw [doing] at registers
      dsimp only
      rw [owed_iff, and_imp, delete_deleted_iff]
      refine forall_congr' fun living => ?_
      have held : heldIn after.registers oldName = none := by
        rw [registers]
        exact delete_held living
      rw [held, ← inv oldName]
      exact buried_iff (living_held living)
    | _ => exact iff_of_true (fun name => rfl) trivial
  | _ => exact iff_of_true (fun name => rfl) trivial

theorem Ledger.unreverted_start (d : Desktop) : (Ledger.start d).Unreverted := fun _ => rfl

/-- In every run whose verbs write what they have read of the newest value no newer value is reverted, and the
    condition is exact at each step. -/
theorem verbs_keep_newest (d : Desktop) :
    (∀ steps st, Path Ledger.step Ledger.ReadsNewest (.start d) steps st → st.Unreverted) ∧
      ∀ (st next : Ledger) l, st.Unreverted → st.step l = some next → (next.Unreverted ↔ st.ReadsNewest l) := by
  refine ⟨fun steps st path => ?_, fun _ _ _ inv taken => Ledger.step_exact inv taken⟩
  exact path.invariant Ledger.Unreverted (fun _ _ _ inv reads taken => (Ledger.step_exact inv taken).mpr reads)
    (Ledger.unreverted_start d)

namespace Overtaken

def host : HostId := HostId.zero
def registers : RegisterStore :=
  perform (configured host RegisterStore.kDefaultTtlMs 8 8 {}) (.upsert (.all 100) [0x6B] [0x61] 0 host)

def desktop : Desktop where
  registers := registers
  activity := {}
  undoSlot := .none
  localHost := host
  sent := []
  doing := .returned true

def newer (name : Bytes) : DesktopStep :=
  .network (.operation (.applyRemote 100 (writtenRecord name [0x62] 0 host { wallMs := 200, counter := 0 })))

/-- A privacy toggle with another thread's write between its read and its own write. -/
def steps (name : Bytes) : List DesktopStep :=
  [.start (.setRegisterPrivate [0x6B] true), .next (.all 100) ⟨0, 0⟩, newer name, .next (.all 100) ⟨0, 0⟩]

end Overtaken

open Overtaken in
theorem other_register_overtakes_nothing : (lastOf Ledger.step (.start desktop) (steps [0x6C])).Unreverted := by
  have path : Path Ledger.step Ledger.ReadsNewest (.start desktop) (steps [0x6C])
      (lastOf Ledger.step (.start desktop) (steps [0x6C])) := by
    refine .cons trivial rfl (.cons trivial rfl (.cons trivial rfl (.single ?_ rfl)))
    exact fun _ => ⟨([0x61], 0), by decide +kernel, by decide +kernel, by decide +kernel⟩
  exact (verbs_keep_newest desktop).1 _ _ path

open Overtaken in
/-- A newer value that arrives between the toggle's read and its write is replaced by the older one. -/
theorem toggle_reverts_newer_value :
    ¬ ∀ steps st, Path Ledger.step (fun _ _ => True) (.start desktop) steps st → st.Unreverted := by
  intro all
  have path : Path Ledger.step (fun _ _ => True) (.start desktop) (steps [0x6B])
      (lastOf Ledger.step (.start desktop) (steps [0x6B])) :=
    .cons trivial rfl (.cons trivial rfl (.cons trivial rfl (.single trivial rfl)))
  have here := all _ _ path [0x6B]
  have held : heldIn (lastOf Ledger.step (.start desktop) (steps [0x6B])).desktop.registers [0x6B] =
      some ([0x61], RegisterFlags.private_) := by decide +kernel
  have newest : (lastOf Ledger.step (.start desktop) (steps [0x6B])).newest [0x6B] =
      some ([0x62], RegisterFlags.private_) := by decide +kernel
  rw [held, newest] at here
  exact absurd here (by decide)

end ClippProof.Clipboard
