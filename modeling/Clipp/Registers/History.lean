import Clipp.Foundation.Machine
import Clipp.Registers.Dominance

open Foundation

namespace ClippModel.Registers

inductive StoreOp where
  | upsert (t : Readings) (name value : Bytes) (valueFlags : UInt8) (origin : HostId)
  | delete (t : Readings) (name : Bytes) (origin : HostId)
  | read (t : Readings) (name : Bytes)
  | applyRemote (now : UInt64) (incoming : RegisterRecord)
  deriving DecidableEq

def perform (s : RegisterStore) : StoreOp → RegisterStore
  | .upsert t name value valueFlags origin => (s.upsertWithFlags t name value valueFlags origin).store
  | .delete t name origin => (s.deleteFrom t name origin).store
  | .read t name => (s.read t name).store
  | .applyRemote now incoming => (s.applyRemote now incoming).store

def notifies (s : RegisterStore) : StoreOp → Bool
  | .upsert t name value valueFlags origin => (s.upsertWithFlags t name value valueFlags origin).notified
  | .delete t name origin => (s.deleteFrom t name origin).notified
  | .read t name => (s.read t name).notified
  | .applyRemote now incoming => (s.applyRemote now incoming).notified

def receivedBy : StoreOp → List RegisterRecord
  | .applyRemote _ incoming => [incoming]
  | _ => []

def StoreOp.reading : StoreOp → UInt64
  | .upsert t _ _ _ _ => t.expiry
  | .delete t _ _ => t.expiry
  | .read t _ => t.expiry
  | .applyRemote now _ => now

end ClippModel.Registers

namespace ClippProof.Registers

open ClippModel.Registers ClippModel.Registers.RegisterStore

/-- A store together with every record that was ever resident in it or handed to it. -/
structure Traced where
  store : RegisterStore
  seen : List RegisterRecord
  deriving DecidableEq

def Traced.start (s : RegisterStore) : Traced := { store := s, seen := s.records.entries }

def Traced.step (st : Traced) (op : StoreOp) : Option Traced :=
  let after := perform st.store op
  some { store := after, seen := st.seen ++ receivedBy op ++ after.records.entries }

/-- The operation mints no stamp from an exhausted counter. -/
def ClockFits (st : Traced) : StoreOp → Prop
  | .upsert t name value _ _ => UpsertFits st.store t name value
  | .delete t name _ => LivingFits st.store t name
  | .read t name => LivingFits st.store t name
  | .applyRemote _ _ => True

def writes (s : RegisterStore) : StoreOp → Option Bytes
  | .upsert t name value valueFlags origin =>
    if (s.upsertWithFlags t name value valueFlags origin).result = .ok then some name else none
  | .delete t name origin => if (s.deleteFrom t name origin).result = .deleted then some name else none
  | _ => none

def replay (s : RegisterStore) : List (UInt64 × RegisterRecord) → RegisterStore
  | [] => s
  | (now, r) :: rest => replay (s.applyRemote now r).store rest

/-- The resident of the name is above all that was seen under it, and stays when it is replayed. -/
def WinsOver (seen : List RegisterRecord) (name : Bytes) (after : RegisterStore) : Prop :=
  ∃ r, after.records.find name = some r ∧
    (∀ q ∈ seen, q.name = name → valueKey q < valueKey r ∧ q.touched ≤ r.touched) ∧
    ∀ replays : List (UInt64 × RegisterRecord),
      (∀ p ∈ replays, p.2 ∈ seen ∧ p.2.name = name) →
      ∃ kept, (replay after replays).records.find name = some kept ∧ kept.value = r.value ∧
        kept.flags = r.flags ∧ kept.originHostId = r.originHostId ∧ kept.written = r.written

/-- In every state reached by steps that meet the side condition, a write that meets it wins. -/
def LocalWritesWin (ok : Traced → StoreOp → Prop) (store : RegisterStore) : Prop :=
  ∀ (ops : List StoreOp) (st : Traced), Path Traced.step ok (.start store) ops st →
    ∀ (op : StoreOp) (name : Bytes), ok st op → writes st.store op = some name →
      WinsOver st.seen name (perform st.store op)

structure Remembered (st : Traced) : Prop where
  stamped : StampedStore st.store
  seen : ∀ q ∈ st.seen, q.name ≠ [] → Stamped st.store.clock q

theorem perform_ascends {s : RegisterStore} {seen : List RegisterRecord} {op : StoreOp} (inv : StampedStore s)
    (fits : ClockFits { store := s, seen := seen } op) : Ascends op.reading s (perform s op) := by
  cases op with
  | upsert t name value valueFlags origin => exact upsert_ascends inv fits
  | delete t name origin => exact delete_ascends inv fits
  | read t name => exact read_ascends inv fits
  | applyRemote now incoming => exact applyRemote_ascends inv

theorem perform_quiet {s : RegisterStore} {op : StoreOp} {r : RegisterRecord}
    (quiet : notifies s op = false) (covered : Covers (perform s op) r) : Covers s r := by
  cases op with
  | upsert t name value valueFlags origin =>
    rcases upsertLocked_cases s t name value valueFlags origin with ⟨_, drop⟩ | ⟨_, equal⟩
    · exact drop.covers_before covered
    · have called : notifies s (.upsert t name value valueFlags origin) = true := by
        change decide ((s.upsertLocked t name value valueFlags origin).1 = .ok) = true
        rw [equal]
        rfl
      cases quiet.symm.trans called
  | delete t name origin =>
    rcases deleteLocked_cases s t name origin with ⟨_, drop⟩ | ⟨_, _, _, equal⟩
    · exact drop.covers_before covered
    · have called : notifies s (.delete t name origin) = true := by
        change decide ((s.deleteLocked t name origin).1 = .deleted) = true
        rw [equal]
        rfl
      cases quiet.symm.trans called
  | read t name =>
    rcases read_cases s t name with ⟨_, _, drop⟩ | ⟨_, _, _, equal⟩
    · exact drop.covers_before covered
    · have called : notifies s (.read t name) = true := by
        change (s.read t name).notified = true
        rw [equal]
      cases quiet.symm.trans called
  | applyRemote now incoming =>
    obtain ⟨q, found, le⟩ := covered
    have same : (s.applyRemoteLocked now incoming).2.records = s.records := applyRemote_quiet s now quiet
    exact ⟨q, (congrArg (fun records => records.find r.name) same).symm.trans found, le⟩

theorem received_stamped (s : RegisterStore) {op : StoreOp} {q : RegisterRecord}
    (received : q ∈ receivedBy op) (named : q.name ≠ []) : Stamped (perform s op).clock q := by
  cases op with
  | applyRemote now incoming =>
    have same : q = incoming := List.mem_singleton.mp received
    subst same
    have clock : (perform s (.applyRemote now q)).clock = witnessAll s.clock q :=
      applyRemote_clock s now named
    rw [clock]
    exact stamped_witnessAll _ _
  | _ => cases received

theorem Remembered.step {st next : Traced} {op : StoreOp} (inv : Remembered st) (fits : ClockFits st op)
    (taken : st.step op = some next) : Remembered next := by
  cases taken
  have ascends := perform_ascends inv.stamped fits
  refine ⟨ascends.stamped, ?_⟩
  intro q member named
  rcases List.mem_append.mp member with earlier | resident
  · rcases List.mem_append.mp earlier with old | received
    · exact (inv.seen q old named).mono ascends.clock
    · exact received_stamped st.store received named
  · exact (ascends.stamped q.name q (KeyedMap.find_self resident)).2

theorem Remembered.start (s : RegisterStore) (empty : s.records = .empty) : Remembered (.start s) := by
  constructor
  · intro name r found
    rw [show (Traced.start s).store.records = .empty from empty] at found
    cases found
  · intro q member
    rw [show (Traced.start s).seen = s.records.entries from rfl, empty] at member
    cases member

theorem applyRemote_below {s : RegisterStore} {now : UInt64} {q r : RegisterRecord}
    (found : s.records.find q.name = some r) (le : q ≤ r) :
    (s.applyRemote now q).store.records.find q.name = some r := by
  change (s.applyRemoteLocked now q).2.records.find q.name = some r
  by_cases named : q.name = []
  · rw [applyRemote_nameless s now named]
    exact found
  by_cases expired : isExpired q now s.ttlMs = true
  · rw [applyRemote_expired s now expired]
    exact found
  · have alive : isExpired r now s.ttlMs = false := by
      rw [Bool.eq_false_iff]
      exact fun old => expired (isExpired_antitone le.2.2 old)
    have live : unexpired s now q.name = some r := unexpired_eq_some.mpr ⟨found, alive⟩
    rw [applyRemote_find s now _ named (by simpa using expired), if_pos rfl, live]
    exact congrArg some (record_le_iff_merge.mp le).2

theorem replay_below {s : RegisterStore} {name : Bytes} {r : RegisterRecord}
    {replays : List (UInt64 × RegisterRecord)} (found : s.records.find name = some r)
    (below : ∀ p ∈ replays, p.2.name = name ∧ p.2 ≤ r) :
    (replay s replays).records.find name = some r := by
  induction replays generalizing s with
  | nil => exact found
  | cons p rest ih =>
    obtain ⟨sameName, le⟩ := below p List.mem_cons_self
    apply ih
    · rw [← sameName] at found ⊢
      exact applyRemote_below found le
    · exact fun p' member => below p' (List.mem_cons_of_mem _ member)

theorem winsOver_of_minted {seen : List RegisterRecord} {c : HlcClock} {phys : UInt64}
    {after : RegisterStore} {name : Bytes} {r : RegisterRecord}
    (stamped : ∀ q ∈ seen, q.name ≠ [] → Stamped c q) (fresh : ¬ c.Exhausted phys)
    (named : name ≠ []) (found : after.records.find name = some r)
    (stamps : r.written = (c.now phys).1 ∧ r.touched = (c.now phys).1) : WinsOver seen name after := by
  have above : ∀ q ∈ seen, q.name = name → valueKey q < valueKey r ∧ q ≤ r := by
    intro q member same
    have sameName : q.name = r.name := same.trans (KeyedMap.find_key found).symm
    exact minted_above fresh sameName (stamped q member (by rw [same]; exact named)) stamps
  refine ⟨r, found, fun q member same => ⟨(above q member same).1, (above q member same).2.2.2⟩, ?_⟩
  intro replays earlier
  refine ⟨r, replay_below found ?_, rfl, rfl, rfl, rfl⟩
  exact fun p member => ⟨(earlier p member).2, (above p.2 (earlier p member).1 (earlier p member).2).2⟩

theorem Remembered.write_wins {st : Traced} {op : StoreOp} {name : Bytes} (inv : Remembered st)
    (fits : ClockFits st op) (wrote : writes st.store op = some name) :
    WinsOver st.seen name (perform st.store op) := by
  cases op with
  | upsert t target value valueFlags origin =>
    simp only [writes] at wrote
    split_ifs at wrote with succeeded
    cases wrote
    rcases upsertLocked_cases st.store t name value valueFlags origin with ⟨refused, _⟩ | ⟨admitted, equal⟩
    · exact absurd succeeded refused
    · let written := writtenRecord name value valueFlags origin (st.store.clock.now t.mint).1
      have found : (st.store.upsertLocked t name value valueFlags origin).2.records.find name =
          some written := by
        rw [equal]
        exact install_find_self (r := written) _
      exact winsOver_of_minted inv.seen (fits admitted) (validName_ne_nil admitted.1) found ⟨rfl, rfl⟩
  | delete t target origin =>
    simp only [writes] at wrote
    split_ifs at wrote with succeeded
    cases wrote
    rcases deleteLocked_cases st.store t name origin with ⟨missed, _⟩ | ⟨r, live, value, equal⟩
    · change (st.store.deleteLocked t name origin).1 = .deleted at succeeded
      rw [missed] at succeeded
      cases succeeded
    · have sameName : r.name = name := unexpired_name live
      have named : name ≠ [] := by
        rw [← sameName]
        exact (inv.stamped name r (unexpired_eq_some.mp live).1).1
      let buried := tombstoneRecord r origin (st.store.clock.now t.mint).1
      have found : (st.store.deleteLocked t name origin).2.records.find name = some buried := by
        rw [equal, ← sameName]
        exact install_find_self (r := buried) _
      exact winsOver_of_minted inv.seen (fits ⟨r, live, value⟩) named found ⟨rfl, rfl⟩
  | read t target => cases wrote
  | applyRemote now incoming => cases wrote

/-- A local write wins over everything its store has seen, in every run that never mints from an
    exhausted counter. -/
theorem local_writes_win (localHost : HostId) (ttlMs : UInt64) (maxCount maxValueBytes : Nat) (floor : Hlc) :
    LocalWritesWin ClockFits ((create localHost ttlMs maxCount maxValueBytes).seedClockFloor floor) := by
  intro ops st path op name fits wrote
  have inv : Remembered st :=
    path.invariant Remembered (fun _ _ _ inv ok taken => inv.step ok taken) (.start _ rfl)
  exact inv.write_wins fits wrote

namespace KeyHistory

def host : HostId := HostId.zero
def store : RegisterStore := (create host RegisterStore.kDefaultTtlMs 8 8).seedClockFloor {}
def incoming (stamp : Hlc) : RegisterRecord where
  name := [0x6B]
  value := [0x70]
  written := stamp
  touched := stamp
  originHostId := host
  flags := 0

def write (value : Bytes) : StoreOp := .upsert (.all 100) [0x6B] value 0 host
def removal : StoreOp := .delete (.all 100) [0x6B] host

def written : Traced := lastOf Traced.step (.start store) [write [0x6E]]
def overtaken : Traced := lastOf Traced.step written [.applyRemote 100 (incoming { wallMs := 10000, counter := 5 })]

def poisoned : RegisterRecord := incoming { wallMs := 10000, counter := maxWord }
def received : RegisterStore := perform store (.applyRemote 100 poisoned)

end KeyHistory

open KeyHistory in
theorem removal_wins_over_received : WinsOver overtaken.seen [0x6B] (perform overtaken.store removal) := by
  have local_ : Path Traced.step ClockFits (.start store) [write [0x6E]] written :=
    step_to_lastOf (fun _ => by decide +kernel) (by decide +kernel)
  have remote : Path Traced.step ClockFits written
      [.applyRemote 100 (incoming { wallMs := 10000, counter := 5 })] overtaken :=
    step_to_lastOf trivial (by decide +kernel)
  exact local_writes_win host RegisterStore.kDefaultTtlMs 8 8 {} _ overtaken (local_.append remote) removal [0x6B]
    (fun _ => by decide +kernel) (by decide +kernel)

open KeyHistory in
/-- After a record whose counter is at its maximum, the next local write is below that record. -/
theorem poisoned_counter_beats_local_write : ¬ LocalWritesWin (fun _ _ => True) store := by
  intro wins
  have path : Path Traced.step (fun _ _ => True) (.start store) [.applyRemote 100 poisoned]
      { store := received, seen := [poisoned, poisoned] } := .single trivial (by decide +kernel)
  obtain ⟨r, found, above, _⟩ := wins _ _ path (write [0x6E]) [0x6B] trivial (by decide +kernel)
  have key := (above poisoned (by decide +kernel) rfl).1
  have written : (perform received (write [0x6E])).records.find [0x6B] =
      some (writtenRecord [0x6B] [0x6E] 0 host { wallMs := 10000, counter := 0 }) := by decide +kernel
  rw [written] at found
  cases found
  exact absurd (written_mono key.le) (by decide +kernel)

end ClippProof.Registers
