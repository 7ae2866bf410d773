import Clipp.Clipboard.ReadModifyWrite
import Clipp.Registers.Expiry

open Foundation

namespace ClippModel.Clipboard

open ClippModel.Registers

namespace Desktop

/-- The verb alone, with no other thread between its calls and one reading of the clock for all of them. -/
def renameRegister (d : Desktop) (now : UInt64) (oldName newName : Bytes) : Bool × Desktop :=
  if newName = oldName then (true, d)
  else if !isValidRegisterName newName then (false, d)
  else
    let read := d.registers.read (.all now) oldName
    match read.result with
    | none => (false, { d with registers := read.store })
    | some found =>
      let wrote := read.store.upsertWithFlags (.all now) newName found.value (found.flags &&& keptValueFlags) d.localHost
      if wrote.result ≠ .ok then (false, { d with registers := wrote.store })
      else
        let sent := broadcastRegisterRecord wrote.store now newName
        let deleted := sent.1.delete (.all now) oldName
        let told := if deleted.result = .deleted then broadcastRegisterRecord deleted.store now oldName
          else (deleted.store, [])
        (true, { d with registers := told.1, undoSlot := .none, sent := d.sent ++ sent.2 ++ told.2 })

end Desktop

end ClippModel.Clipboard

namespace ClippProof.Clipboard

open ClippModel.Registers ClippModel.Registers.RegisterStore ClippModel.Clipboard ClippProof.Registers

variable {s after : RegisterStore} {d : Desktop} {now : UInt64} {t : Readings} {clock : ActivityClock}
  {name oldName newName value : Bytes} {q r : RegisterRecord}

def liveHolding (s : RegisterStore) (now : UInt64) (name : Bytes) : Option Holding :=
  ((unexpired s now name).filter (fun r => !r.isTombstone)).map holdingOf

def liveNames (s : RegisterStore) (now : UInt64) : List Bytes :=
  (s.records.entries.filter (countsAt now s.ttlMs)).map RegisterRecord.name

theorem mem_liveNames : name ∈ liveNames s now ↔ name ≠ [] ∧ LiveAt s now name := by
  unfold liveNames LiveAt
  rw [List.mem_map]
  constructor
  · rintro ⟨r, member, key⟩
    obtain ⟨resident, counts⟩ := List.mem_filter.mp member
    simp only [countsAt, Bool.and_eq_true, Bool.not_eq_true', List.isEmpty_eq_false_iff] at counts
    subst key
    exact ⟨counts.1, r, unexpired_eq_some.mpr ⟨KeyedMap.find_self resident, counts.2.2⟩, counts.2.1⟩
  · rintro ⟨named, r, live, value⟩
    obtain ⟨found, alive⟩ := unexpired_eq_some.mp live
    have key : r.name = name := KeyedMap.find_key found
    refine ⟨r, List.mem_filter.mpr ⟨(KeyedMap.find_eq_some.mp found).1, ?_⟩, key⟩
    simp [countsAt, key, named, value, alive]

theorem liveNames_nodup : (liveNames s now).Nodup :=
  s.records.keys_nodup.sublist (List.filter_sublist.map RegisterRecord.name)

theorem liveCount_liveNames (s : RegisterStore) (now : UInt64) : s.liveCount now = (liveNames s now).length := by
  rw [liveCount_eq, liveNames, List.length_map, List.countP_eq_length_filter]

theorem liveCount_congr (same : ∀ name, LiveAt after now name ↔ LiveAt s now name) :
    after.liveCount now = s.liveCount now := by
  rw [liveCount_liveNames, liveCount_liveNames]
  refine ((List.perm_ext_iff_of_nodup liveNames_nodup liveNames_nodup).mpr fun name => ?_).length_eq
  rw [mem_liveNames, mem_liveNames, same]

theorem liveAt_congr (same : unexpired after now name = unexpired s now name) :
    LiveAt after now name ↔ LiveAt s now name := by rw [LiveAt, LiveAt, same]

theorem admitted_all_iff : Admitted s (.all now) name value ↔
    isValidRegisterName name = true ∧ value.length ≤ s.maxValueBytes ∧
      (LiveAt s now name ∨ s.liveCount now < s.maxCount) := by
  have pruned : (s.pruneExpiredLocked now).liveCount now = s.liveCount now :=
    liveCount_congr fun name => liveAt_congr ((dropped_prune s now).unexpired_later le_rfl name)
  unfold Admitted
  change _ ∧ _ ∧ ((s.pruneExpiredLocked now).currentlyLiveValue name = true ∨
    (s.pruneExpiredLocked now).liveCount now < s.maxCount) ↔ _
  rw [currentlyLiveValue_iff, pruned]

theorem unexpired_install (c : HlcClock) (alive : isExpired r now s.ttlMs = false) (name : Bytes) :
    unexpired (install s c r) now name = if r.name = name then some r else unexpired s now name := by
  split_ifs with same
  · subst same
    exact unexpired_eq_some.mpr ⟨install_find_self c, alive⟩
  · refine unexpired_congr rfl ?_
    rw [install_find, if_neg same]

theorem delete_unexpired (s : RegisterStore) (now : UInt64) (name : Bytes) :
    (∀ other, other ≠ name →
      unexpired (s.delete (.all now) name).store now other = unexpired s now other) ∧
    ¬ LiveAt (s.delete (.all now) name).store now name := by
  change (∀ other, other ≠ name → unexpired (s.deleteLocked (.all now) name s.localHost).2 now other = _) ∧
    ¬ LiveAt (s.deleteLocked (.all now) name s.localHost).2 now name
  rcases deleteLocked_cases s (.all now) name s.localHost with ⟨missed, drop⟩ | ⟨r, live, value, equal⟩
  · refine ⟨fun other _ => drop.unexpired_later le_rfl other, ?_⟩
    have kept : unexpired (s.deleteLocked (.all now) name s.localHost).2 now name = unexpired s now name :=
      drop.unexpired_later le_rfl name
    rw [liveAt_congr kept]
    rintro ⟨q, live, value⟩
    have living : Living s (.all now) name := ⟨q, live, value⟩
    have deleted := delete_deleted_iff.mpr living
    change (s.deleteLocked (.all now) name s.localHost).1 = .deleted at deleted
    rw [missed] at deleted
    cases deleted
  · have key : r.name = name := unexpired_name live
    rw [equal]
    constructor
    · intro other differs
      refine unexpired_congr rfl ?_
      rw [install_find]
      exact if_neg (fun same => differs (same.symm.trans key))
    · rintro ⟨q, shown, value⟩
      have found := (unexpired_eq_some.mp shown).1
      rw [← key] at found
      have buried := install_find_self (s := s) (r := tombstoneRecord r s.localHost (s.clock.now now).1)
        (s.clock.now now).2
      have same := Option.some.inj (buried.symm.trans found)
      rw [← same, tombstoneRecord_dead] at value
      cases value

structure Touched (s : RegisterStore) (now : UInt64) (name : Bytes) (q found : RegisterRecord)
    (after : RegisterStore) : Prop where
  same : found.name = q.name ∧ found.value = q.value ∧ found.flags = q.flags
  here : unexpired after now name = some found
  others : ∀ other, other ≠ name → unexpired after now other = unexpired s now other
  limits : after.maxCount = s.maxCount ∧ after.maxValueBytes = s.maxValueBytes
  lifetime : ∀ r : RegisterRecord, after.clock.last.wallMs ≤ r.touched.wallMs → isExpired r now after.ttlMs = false

theorem read_touches (seen : SeenBy Hlc.wallMs s) (live : unexpired s now name = some q) (value : q.isTombstone = false) :
    ∃ found, (s.read (.all now) name).result = some found ∧
      Touched s now name q found (s.read (.all now) name).store := by
  obtain ⟨resident, alive⟩ := unexpired_eq_some.mp live
  have key : q.name = name := KeyedMap.find_key resident
  rcases read_cases s (.all now) name with ⟨missed, _⟩ | ⟨p, other, _, equal⟩
  · rw [read_of_live resident alive value] at missed
    cases missed
  · have same : p = q := Option.some.inj (other.symm.trans live)
    subst same
    have younger : ∀ r : RegisterRecord, (s.clock.now now).1.wallMs ≤ r.touched.wallMs →
        isExpired r now s.ttlMs = false := by
      intro r above
      rw [Bool.eq_false_iff]
      intro expired
      have walls := ((seen name p resident).2.trans (wall_now_mono s.clock now)).trans above
      rw [isExpired_of_wall walls expired] at alive
      cases alive
    rw [equal]
    refine ⟨_, rfl, ⟨rfl, rfl, rfl⟩, ?_, ?_, ⟨rfl, rfl⟩, younger⟩
    · have shown := unexpired_install (s := s) (s.clock.now now).2
        (r := { p with touched := (s.clock.now now).1 }) (younger _ le_rfl)
      exact (shown name).trans (if_pos key)
    · intro other differs
      have shown := unexpired_install (s := s) (s.clock.now now).2
        (r := { p with touched := (s.clock.now now).1 }) (younger _ le_rfl)
      exact (shown other).trans (if_neg fun same => differs (same.symm.trans key))

theorem Touched.liveAt {found : RegisterRecord} (touched : Touched s now name q found after)
    (live : unexpired s now name = some q) (value : q.isTombstone = false) (other : Bytes) :
    LiveAt after now other ↔ LiveAt s now other := by
  by_cases same : other = name
  · subst same
    have flags : found.isTombstone = false := by
      rw [RegisterRecord.isTombstone, touched.same.2.2]
      exact value
    exact iff_of_true ⟨found, touched.here, flags⟩ ⟨q, live, value⟩
  · exact liveAt_congr (touched.others other same)

theorem Touched.liveHolding {found : RegisterRecord} (touched : Touched s now name q found after)
    (live : unexpired s now name = some q) (other : Bytes) :
    liveHolding after now other = liveHolding s now other := by
  unfold ClippProof.Clipboard.liveHolding
  by_cases same : other = name
  · subst same
    rw [touched.here, live]
    simp [Option.filter, holdingOf, RegisterRecord.isTombstone, touched.same]
  · rw [touched.others other same]

/-- The verb alone, told by its cases: it never starts, it misses, it is refused, or it carries and deletes. -/
inductive Renaming (d : Desktop) (now : UInt64) (oldName newName : Bytes) : Bool × Desktop → Prop where
  | invalid (refused : isValidRegisterName newName = false) : Renaming d now oldName newName (false, d)
  | missed (none_live : ¬ LiveAt d.registers now oldName) (last : Desktop)
      (drop : Dropped now d.registers last.registers) : Renaming d now oldName newName (false, last)
  | refused (q found : RegisterRecord) (read : RegisterStore) (last : Desktop)
      (live : unexpired d.registers now oldName = some q) (value : q.isTombstone = false)
      (touched : Touched d.registers now oldName q found read)
      (full : ¬ Admitted read (.all now) newName found.value)
      (kept : ∀ name, unexpired last.registers now name = unexpired read now name) :
      Renaming d now oldName newName (false, last)
  | renamed (q found : RegisterRecord) (read : RegisterStore) (last : Desktop)
      (live : unexpired d.registers now oldName = some q) (value : q.isTombstone = false)
      (touched : Touched d.registers now oldName q found read)
      (admitted : Admitted read (.all now) newName found.value)
      (r : RegisterRecord) (carried : unexpired last.registers now newName = some r)
      (same : r.isTombstone = false ∧ r.value = found.value ∧ r.flags = found.flags &&& keptValueFlags)
      (gone : ¬ LiveAt last.registers now oldName) : Renaming d now oldName newName (true, last)

theorem broadcast_unexpired (s : RegisterStore) (now : UInt64) (name other : Bytes) :
    unexpired (broadcastRegisterRecord s now name).1 now other = unexpired s now other :=
  (getForBroadcast_dropped s now name).unexpired_later le_rfl other

theorem read_of_dead (s : RegisterStore) (dead : ¬ LiveAt s now name) :
    (s.read (.all now) name).result = none ∧ Dropped now s (s.read (.all now) name).store := by
  rcases read_cases s (.all now) name with ⟨missed, _, drop⟩ | ⟨r, live, value, _⟩
  · exact ⟨missed, drop⟩
  · exact absurd ⟨r, live, value⟩ dead

theorem write_carries {read : RegisterStore} {found : RegisterRecord} (origin : HostId)
    (touched : Touched s now name q found read) (admitted : Admitted read (.all now) newName found.value) :
    unexpired (read.upsertWithFlags (.all now) newName found.value (found.flags &&& keptValueFlags) origin).store
        now newName =
      some (writtenRecord newName found.value (found.flags &&& keptValueFlags) origin (read.clock.now now).1) := by
  rw [upsertWithFlags_eq, verdict_iff.mpr admitted]
  let w := writtenRecord newName found.value (found.flags &&& keptValueFlags) origin (read.clock.now now).1
  exact unexpired_eq_some.mpr ⟨install_find_self (r := w) _, touched.lifetime w (wall_now_mono read.clock now)⟩

/-- The store behind the write of the verb: broadcast, delete, broadcast. -/
def told (s : RegisterStore) (now : UInt64) (oldName newName : Bytes) : RegisterStore :=
  let deleted := (broadcastRegisterRecord s now newName).1.delete (.all now) oldName
  (if deleted.result = .deleted then broadcastRegisterRecord deleted.store now oldName else (deleted.store, [])).1

theorem told_unexpired (s : RegisterStore) (now : UInt64) (differ : oldName ≠ newName) :
    unexpired (told s now oldName newName) now newName = unexpired s now newName ∧
      ¬ LiveAt (told s now oldName newName) now oldName := by
  obtain ⟨others, gone⟩ := delete_unexpired (broadcastRegisterRecord s now newName).1 now oldName
  have quiet : ∀ name, unexpired (told s now oldName newName) now name =
      unexpired ((broadcastRegisterRecord s now newName).1.delete (.all now) oldName).store now name := by
    intro name
    unfold told
    dsimp only
    split_ifs
    · exact broadcast_unexpired _ now oldName name
    · rfl
  constructor
  · rw [quiet, others newName (Ne.symm differ), broadcast_unexpired]
  · rw [liveAt_congr (quiet oldName)]
    exact gone

theorem renamed_of_admitted {found : RegisterRecord} {read : RegisterStore} (last : Desktop)
    (differ : oldName ≠ newName) (live : unexpired d.registers now oldName = some q) (value : q.isTombstone = false)
    (touched : Touched d.registers now oldName q found read) (admitted : Admitted read (.all now) newName found.value)
    (ended : last.registers =
      told (read.upsertWithFlags (.all now) newName found.value (found.flags &&& keptValueFlags) d.localHost).store
        now oldName newName) :
    Renaming d now oldName newName (true, last) := by
  obtain ⟨shown, gone⟩ := told_unexpired
    (read.upsertWithFlags (.all now) newName found.value (found.flags &&& keptValueFlags) d.localHost).store now differ
  have carried := write_carries d.localHost touched admitted
  rw [← shown, ← ended] at carried
  rw [← ended] at gone
  refine .renamed q found read last live value touched admitted _ carried ?_ gone
  exact ⟨writtenRecord_value _ _ _ _ _, rfl, keptValueFlags_value _⟩

theorem rename_cases (d : Desktop) (seen : SeenBy Hlc.wallMs d.registers) (differ : oldName ≠ newName) :
    Renaming d now oldName newName (d.renameRegister now oldName newName) := by
  unfold Desktop.renameRegister
  rw [if_neg (Ne.symm differ)]
  by_cases valid : isValidRegisterName newName = true
  · simp only [valid, Bool.not_true, Bool.false_eq_true, if_false]
    by_cases living : LiveAt d.registers now oldName
    · obtain ⟨q, live, value⟩ := living
      obtain ⟨found, hit, touched⟩ := read_touches seen live value
      simp only [hit]
      by_cases admitted : Admitted (d.registers.read (.all now) oldName).store (.all now) newName found.value
      · have accepted : ((d.registers.read (.all now) oldName).store.upsertWithFlags (.all now) newName found.value
            (found.flags &&& keptValueFlags) d.localHost).result = .ok := upsert_accepted_iff.mpr admitted
        simp only [ne_eq, accepted, not_true_eq_false, if_false]
        exact renamed_of_admitted _ differ live value touched admitted rfl
      · have refused : ((d.registers.read (.all now) oldName).store.upsertWithFlags (.all now) newName found.value
            (found.flags &&& keptValueFlags) d.localHost).result ≠ .ok := mt upsert_accepted_iff.mp admitted
        simp only [ne_eq, refused, not_false_eq_true, if_true]
        refine .refused q found _ _ live value touched admitted fun name => ?_
        exact ((local_write _ (.all now) newName found.value _ d.localHost).refused refused).2 now le_rfl name
    · obtain ⟨missed, drop⟩ := read_of_dead d.registers living
      simp only [missed]
      exact .missed living _ drop
  · have invalid : isValidRegisterName newName = false := by simpa using valid
    simp only [invalid, Bool.not_false, if_true]
    exact .invalid invalid

theorem Touched.admitted_iff {found : RegisterRecord} (touched : Touched s now name q found after)
    (live : unexpired s now name = some q) (value : q.isTombstone = false) :
    Admitted after (.all now) newName found.value ↔
      isValidRegisterName newName = true ∧ q.value.length ≤ s.maxValueBytes ∧
        (LiveAt s now newName ∨ s.liveCount now < s.maxCount) := by
  have same := touched.liveAt live value
  rw [admitted_all_iff, same newName, liveCount_congr same, touched.limits.1, touched.limits.2, touched.same.2.1]

/-- A rename moves the value or changes nothing, and needs nothing but a live source, a valid unused target and a value
    within the size limit. -/
structure RenameContract (d : Desktop) (now : UInt64) (oldName newName : Bytes) (outcome : Bool × Desktop) : Prop where
  renamed : outcome.1 = true → ∃ q r, unexpired d.registers now oldName = some q ∧ q.isTombstone = false ∧
    unexpired outcome.2.registers now newName = some r ∧ r.isTombstone = false ∧ r.value = q.value ∧
    r.flags = q.flags &&& keptValueFlags ∧ ¬ LiveAt outcome.2.registers now oldName
  refused : outcome.1 = false →
    ∀ name, liveHolding outcome.2.registers now name = liveHolding d.registers now name
  whenever : ∀ q, unexpired d.registers now oldName = some q → q.isTombstone = false →
    isValidRegisterName newName = true → ¬ LiveAt d.registers now newName →
      q.value.length ≤ d.registers.maxValueBytes → outcome.1 = true

/-- Everything is there for the rename but a spare slot. -/
def Crowded (d : Desktop) (now : UInt64) (oldName newName : Bytes) : Prop :=
  ∃ q, unexpired d.registers now oldName = some q ∧ q.isTombstone = false ∧ isValidRegisterName newName = true ∧
    ¬ LiveAt d.registers now newName ∧ q.value.length ≤ d.registers.maxValueBytes ∧
    d.registers.maxCount ≤ d.registers.liveCount now

theorem Renaming.not_crowded {last : Desktop} (moved : Renaming d now oldName newName (true, last)) :
    ¬ Crowded d now oldName newName := by
  cases moved with
  | renamed q found read last live value touched admitted r carried same gone =>
    rintro ⟨p, _, _, _, unused, _, full⟩
    rcases ((touched.admitted_iff live value).mp admitted).2.2 with used | room
    · exact unused used
    · exact absurd room (not_lt.mpr full)

theorem Renaming.contract {outcome : Bool × Desktop} (moved : Renaming d now oldName newName outcome)
    (room : ¬ Crowded d now oldName newName) : RenameContract d now oldName newName outcome := by
  cases moved with
  | invalid refused =>
    refine ⟨(fun done => by cases done), fun _ _ => rfl, fun q _ _ valid => ?_⟩
    rw [refused] at valid
    cases valid
  | missed none_live last drop =>
    refine ⟨(fun done => by cases done), fun _ name => ?_, fun q live value => absurd ⟨q, live, value⟩ none_live⟩
    have kept : unexpired last.registers now name = unexpired d.registers now name := drop.unexpired_later le_rfl name
    unfold liveHolding
    dsimp only
    rw [kept]
  | refused q found read last live value touched full kept =>
    refine ⟨(fun done => by cases done), fun _ name => ?_, fun p other _ valid unused small => ?_⟩
    · rw [← touched.liveHolding live name]
      unfold liveHolding
      rw [kept]
    · have same : q = p := Option.some.inj (live.symm.trans other)
      subst same
      rw [touched.admitted_iff live value] at full
      by_contra
      refine room ⟨q, live, value, valid, unused, small, not_lt.mp fun free => ?_⟩
      exact full ⟨valid, small, .inr free⟩
  | renamed q found read last live value touched admitted r carried same gone =>
    refine ⟨fun _ => ⟨q, r, live, value, carried, same.1, ?_, ?_, gone⟩, (fun failed => by cases failed),
      fun _ _ _ _ _ _ => rfl⟩
    · rw [same.2.1, touched.same.2.1]
    · rw [same.2.2, touched.same.2.2]

/-- In every store that its calls can reach, a rename keeps its contract exactly when the store is not full with all
    else in place: the write of the new name is counted before the old one is gone. -/
theorem rename_contract_iff (d : Desktop) (now : UInt64) (oldName newName : Bytes) (differ : oldName ≠ newName)
    (localHost : HostId) (ttlMs : UInt64) (maxCount maxValueBytes : Nat) (floor : Hlc) (calls : List StoreCall)
    (reached : Path StoreCall.step (fun _ _ => True) (configured localHost ttlMs maxCount maxValueBytes floor) calls
      d.registers) :
    RenameContract d now oldName newName (d.renameRegister now oldName newName) ↔ ¬ Crowded d now oldName newName := by
  have seen : SeenBy Hlc.wallMs d.registers := by
    refine reached.invariant (SeenBy Hlc.wallMs) ?_ (seenBy_configured _ _ _ _ _)
    intro s call next seen _ taken
    cases taken
    exact (call_effect s call).seenBy wall_monotone (liftsBy_wall s call) seen
  have moved : Renaming d now oldName newName (d.renameRegister now oldName newName) := rename_cases d seen differ
  refine ⟨fun contract crowded => ?_, moved.contract⟩
  have done : (d.renameRegister now oldName newName).1 = true := by
    obtain ⟨q, live, value, valid, unused, small, _⟩ := crowded
    exact contract.whenever q live value valid unused small
  rcases outcome : d.renameRegister now oldName newName with ⟨result, last⟩
  rw [outcome] at moved done
  cases done
  exact moved.not_crowded crowded

namespace FullStore

def registers (maxCount : Nat) : RegisterStore :=
  perform (configured HostId.zero RegisterStore.kDefaultTtlMs maxCount 8 {})
    (.upsert (.all 100) [0x6B] [0x61] 0 HostId.zero)

def desktop (maxCount : Nat) : Desktop where
  registers := registers maxCount
  activity := {}
  undoSlot := .none
  localHost := HostId.zero
  sent := []
  doing := .returned true

end FullStore

open FullStore in
theorem rename_with_a_spare_slot :
    RenameContract (desktop 2) 100 [0x6B] [0x6C] ((desktop 2).renameRegister 100 [0x6B] [0x6C]) := by
  have reached : Path StoreCall.step (fun _ _ => True) (configured HostId.zero RegisterStore.kDefaultTtlMs 2 8 {})
      [.operation (.upsert (.all 100) [0x6B] [0x61] 0 HostId.zero)] (desktop 2).registers := .single trivial rfl
  refine (rename_contract_iff (desktop 2) 100 [0x6B] [0x6C] (by decide) HostId.zero _ 2 8 {} _ reached).mpr ?_
  rintro ⟨_, _, _, _, _, _, full⟩
  exact absurd full (by decide +kernel)

open FullStore in
/-- A store with as many live registers as it may hold refuses to rename one of them. -/
theorem full_store_refuses_rename :
    ¬ RenameContract (desktop 1) 100 [0x6B] [0x6C] ((desktop 1).renameRegister 100 [0x6B] [0x6C]) := by
  intro contract
  have live : unexpired (desktop 1).registers 100 [0x6B] =
      some (writtenRecord [0x6B] [0x61] 0 HostId.zero { wallMs := 100, counter := 0 }) := by decide +kernel
  have unused : ¬ LiveAt (desktop 1).registers 100 [0x6C] := by
    rintro ⟨q, held, _⟩
    have nothing : unexpired (desktop 1).registers 100 [0x6C] = none := by decide +kernel
    rw [nothing] at held
    cases held
  have done := contract.whenever _ live (by decide) (by decide +kernel) unused (by decide)
  have failed : ((desktop 1).renameRegister 100 [0x6B] [0x6C]).1 = false := by decide +kernel
  rw [failed] at done
  cases done

end ClippProof.Clipboard
