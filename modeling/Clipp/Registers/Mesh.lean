import Clipp.Registers.Content
import Clipp.Registers.History

open Foundation

namespace ClippModel.Registers

/-- Stores that exchange records. What each replica received, what was produced and what was
    sent is history: sent records stay available, so a delivery can be late or repeated. -/
structure Mesh (ι : Type) where
  stores : ι → RegisterStore
  received : ι → List RegisterRecord
  produced : List RegisterRecord
  sent : List RegisterRecord

inductive MeshLabel (ι : Type) where
  | act (i : ι) (op : StoreOp)
  | snapshot (i : ι) (now : UInt64)
  | broadcast (i : ι) (now : UInt64) (name : Bytes)

def producedBy (s : RegisterStore) : StoreOp → Option RegisterRecord
  | .upsert t name value valueFlags origin =>
    let call := s.upsertWithFlags t name value valueFlags origin
    if call.notified then call.store.records.find name else none
  | .delete t name origin =>
    let call := s.deleteFrom t name origin
    if call.notified then call.store.records.find name else none
  | .read t name => (s.read t name).result
  | .applyRemote _ _ => none

variable {ι : Type}

def Mesh.start (host : ι → HostId) (ttlMs : UInt64) (maxCount maxValueBytes : Nat) : Mesh ι where
  stores i := .create (host i) ttlMs maxCount maxValueBytes
  received _ := []
  produced := []
  sent := []

variable [DecidableEq ι]

def Mesh.act (m : Mesh ι) (i : ι) (op : StoreOp) : Mesh ι :=
  let fresh := (producedBy (m.stores i) op).toList
  { m with
    stores := Function.update m.stores i (perform (m.stores i) op)
    received := Function.update m.received i (m.received i ++ (receivedBy op ++ fresh))
    produced := m.produced ++ fresh }

def Mesh.publish (m : Mesh ι) (i : ι) (after : RegisterStore) (records : List RegisterRecord) : Mesh ι :=
  { m with stores := Function.update m.stores i after, sent := m.sent ++ records }

def Mesh.step (m : Mesh ι) : MeshLabel ι → Option (Mesh ι)
  | .act i op => if ∀ r ∈ receivedBy op, r ∈ m.sent then some (m.act i op) else none
  | .snapshot i now =>
    let call := (m.stores i).snapshotForSync now
    some (m.publish i call.store call.result)
  | .broadcast i now name =>
    let call := (m.stores i).getForBroadcast now name
    some (m.publish i call.store call.result.toList)

theorem Mesh.step_act {m : Mesh ι} {i : ι} {op : StoreOp} (delivered : ∀ r ∈ receivedBy op, r ∈ m.sent) :
    m.step (.act i op) = some (m.act i op) := if_pos delivered

end ClippModel.Registers

namespace ClippProof.Registers

open ClippModel.Registers ClippModel.Registers.RegisterStore

variable {ι : Type} {m next : Mesh ι} {s : RegisterStore} {op : StoreOp} {r : RegisterRecord}

/-- Nothing the step looks at has expired, and no counter has reached its last value. -/
def MeshFits (m : Mesh ι) : MeshLabel ι → Prop
  | .act i op =>
    Alive (m.stores i) op.reading ∧ (m.stores i).clock.last.counter ≠ maxWord ∧
      ∀ r ∈ receivedBy op, isExpired r op.reading (m.stores i).ttlMs = false
  | .snapshot i now => Alive (m.stores i) now
  | .broadcast i now _ => Alive (m.stores i) now

inductive Contributes (s : RegisterStore) (op : StoreOp) : Prop where
  | nothing (received : receivedBy op = []) (produced : producedBy s op = none)
      (same : content (perform s op).records = content s.records)
  | produced (r : RegisterRecord) (received : receivedBy op = []) (produced : producedBy s op = some r)
      (joined : content (perform s op).records = content s.records ⊔ contribution r)
  | received (r : RegisterRecord) (received : receivedBy op = [r]) (produced : producedBy s op = none)
      (joined : content (perform s op).records = content s.records ⊔ contribution r)

theorem contributes_install {c : HlcClock} (received : receivedBy op = [])
    (stored : perform s op = install s c r) (produced : producedBy s op = some r)
    (above : ∀ p, s.records.find r.name = some p → p ≤ r) : Contributes s op := by
  refine .produced r received produced ?_
  rw [stored, show (install s c r).records = s.records.put r from rfl, put_eq_joinInto above]
  exact content_joinInto _ _

theorem op_contributes (inv : StampedStore s) (alive : Alive s op.reading)
    (counter : s.clock.last.counter ≠ maxWord) (named : ∀ r ∈ receivedBy op, r.name ≠ [])
    (fresh : ∀ r ∈ receivedBy op, isExpired r op.reading s.ttlMs = false) : Contributes s op := by
  have unspent : ∀ phys, ¬ s.clock.Exhausted phys := fun _ full => counter full.2
  cases op with
  | upsert t name value valueFlags origin =>
    rcases upsertLocked_cases s t name value valueFlags origin with ⟨refused, drop⟩ | ⟨admitted, equal⟩
    · refine .nothing rfl (if_neg ?_) (congrArg (fun a : RegisterStore => content a.records) (alive.dropped drop))
      simpa [upsertWithFlags] using refused
    · rw [alive.dropped (dropped_prune s t.expiry)] at equal
      let written := writtenRecord name value valueFlags origin (s.clock.now t.mint).1
      have stored : perform s (.upsert t name value valueFlags origin) =
          install s (s.clock.now t.mint).2 written := congrArg Prod.snd equal
      have notified : (s.upsertWithFlags t name value valueFlags origin).notified = true := by
        simp [upsertWithFlags, equal]
      refine contributes_install rfl stored ((if_pos notified).trans ?_) ?_
      · change (perform s (.upsert t name value valueFlags origin)).records.find name = some written
        rw [stored]
        exact install_find_self (r := written) _
      · intro p found
        exact (minted_above (unspent _) (KeyedMap.find_key found) (inv.find found) ⟨rfl, rfl⟩).2
  | delete t name origin =>
    rcases deleteLocked_cases s t name origin with ⟨missed, drop⟩ | ⟨q, live, _, equal⟩
    · refine .nothing rfl (if_neg ?_) (congrArg (fun a : RegisterStore => content a.records) (alive.dropped drop))
      simp [deleteFrom, missed]
    · let buried := tombstoneRecord q origin (s.clock.now t.mint).1
      have stored : perform s (.delete t name origin) = install s (s.clock.now t.mint).2 buried :=
        congrArg Prod.snd equal
      have notified : (s.deleteFrom t name origin).notified = true := by simp [deleteFrom, equal]
      refine contributes_install rfl stored ((if_pos notified).trans ?_) ?_
      · change (perform s (.delete t name origin)).records.find name = some buried
        rw [stored, ← unexpired_name live]
        exact install_find_self (r := buried) _
      · intro p found
        exact (minted_above (unspent _) (KeyedMap.find_key found) (inv.find found) ⟨rfl, rfl⟩).2
  | read t name =>
    rcases read_cases s t name with ⟨missed, _, drop⟩ | ⟨q, live, _, equal⟩
    · exact .nothing rfl missed (congrArg (fun a : RegisterStore => content a.records) (alive.dropped drop))
    · have found := (unexpired_eq_some.mp live).1
      have above := HlcClock.now_above (unspent t.mint)
      refine contributes_install rfl (congrArg Call.store equal) (congrArg Call.result equal) ?_
      intro p resident
      have same : p = q := by
        rw [show q.name = name from KeyedMap.find_key found, found] at resident
        exact (Option.some.inj resident).symm
      rw [same]
      exact ⟨rfl, le_rfl, (inv.find found).2.trans above.le⟩
  | applyRemote now incoming =>
    have member : incoming ∈ receivedBy (.applyRemote now incoming) := List.mem_singleton_self _
    refine .received incoming rfl rfl ?_
    rw [show (perform s (.applyRemote now incoming)).records = joinInto s.records incoming from
      Alive.applyRemote alive (named _ member) (fresh _ member)]
    exact content_joinInto _ _

structure MeshStamped (m : Mesh ι) : Prop where
  stores : ∀ i, StampedStore (m.stores i)
  sent : ∀ r ∈ m.sent, r.name ≠ []

def abstract (m : Mesh ι) : Replicas ι Content where
  state i := content (m.stores i).records
  received i := (m.received i).map contribution
  produced := m.produced.map contribution
  sent := m.sent.map contribution

theorem stamped_ascends (inv : StampedStore s) (counter : s.clock.last.counter ≠ maxWord) :
    StampedStore (perform s op) := by
  have unspent : ∀ phys, ¬ s.clock.Exhausted phys := fun _ full => counter full.2
  cases op with
  | upsert t name value valueFlags origin => exact (upsert_ascends inv fun _ => unspent _).stamped
  | delete t name origin => exact (delete_ascends inv fun _ => unspent _).stamped
  | read t name => exact (read_ascends inv fun _ => unspent _).stamped
  | applyRemote now incoming => exact (applyRemote_ascends inv).stamped

theorem meshStamped_start (host : ι → HostId) (ttlMs : UInt64) (maxCount maxValueBytes : Nat) :
    MeshStamped (Mesh.start host ttlMs maxCount maxValueBytes) := by
  refine ⟨fun i name r found => ?_, fun r member => ?_⟩
  · cases found
  · cases member

variable [DecidableEq ι]

theorem abstract_act {i : ι} : (abstract (m.act i op)).state =
    Function.update (abstract m).state i (content (perform (m.stores i) op).records) := by
  funext j
  by_cases same : j = i
  · subst same
    simp [abstract, Mesh.act]
  · simp [abstract, Mesh.act, same]

theorem abstract_act_received {i : ι} : (abstract (m.act i op)).received =
    Function.update (abstract m).received i ((abstract m).received i ++
      (receivedBy op ++ (producedBy (m.stores i) op).toList).map contribution) := by
  funext j
  by_cases same : j = i
  · subst same
    simp [abstract, Mesh.act]
  · simp [abstract, Mesh.act, same]

theorem act_refines {i : ι} (contributes : Contributes (m.stores i) op)
    (delivered : ∀ r ∈ receivedBy op, r ∈ m.sent) :
    Replicas.Step (abstract m) (abstract (m.act i op)) := by
  have joined : ∀ r, content (perform (m.stores i) op).records = content (m.stores i).records ⊔ contribution r →
      receivedBy op ++ (producedBy (m.stores i) op).toList = [r] →
      abstract (m.act i op) = { (abstract m).absorb i (contribution r) with
        produced := (abstract m).produced ++ (producedBy (m.stores i) op).toList.map contribution } := by
    intro r state history
    rw [Replicas.mk.injEq]
    refine ⟨?_, ?_, ?_, rfl⟩
    · exact abstract_act.trans (by rw [state]; rfl)
    · exact abstract_act_received.trans (by rw [history]; rfl)
    · simp [abstract, Mesh.act]
  cases contributes with
  | nothing received produced same =>
    have unchanged : abstract (m.act i op) = abstract m := by
      rw [show abstract m = ⟨(abstract m).state, (abstract m).received, (abstract m).produced,
        (abstract m).sent⟩ from rfl, Replicas.mk.injEq]
      refine ⟨?_, ?_, ?_, rfl⟩
      · exact abstract_act.trans (by rw [same]; exact Function.update_eq_self i (abstract m).state)
      · exact abstract_act_received.trans (by simp [received, produced])
      · simp [abstract, Mesh.act, produced]
    rw [unchanged]
    exact .idle _
  | produced r received produced state =>
    rw [joined r state (by simp [received, produced]), produced]
    exact .produce _ i (contribution r)
  | received r received produced state =>
    rw [joined r state (by simp [received, produced]), produced]
    simp only [Option.toList_none, List.map_nil, List.append_nil]
    exact .deliver _ i _ (List.mem_map_of_mem (delivered r (by simp [received])))

theorem publish_refines {i : ι} {records : List RegisterRecord}
    (resident : ∀ r ∈ records, (m.stores i).records.find r.name = some r) :
    Replicas.Step (abstract m) (abstract (m.publish i (m.stores i) records)) := by
  have published : abstract (m.publish i (m.stores i) records) =
      { abstract m with sent := (abstract m).sent ++ records.map contribution } := by
    simp [abstract, Mesh.publish]
  rw [published]
  apply Replicas.Step.send _ i
  intro x member
  obtain ⟨r, sent, rfl⟩ := List.mem_map.mp member
  exact contribution_le (resident r sent)

theorem publish_stamped {i : ι} {records : List RegisterRecord} (inv : MeshStamped m)
    (resident : ∀ r ∈ records, (m.stores i).records.find r.name = some r) :
    MeshStamped (m.publish i (m.stores i) records) := by
  refine ⟨fun j => ?_, fun r member => ?_⟩
  · simpa [Mesh.publish] using inv.stores j
  · rcases List.mem_append.mp member with old | new
    · exact inv.sent r old
    · exact (inv.stores i _ r (resident r new)).1

theorem act_stamped {i : ι} (inv : MeshStamped m) (counter : (m.stores i).clock.last.counter ≠ maxWord) :
    MeshStamped (m.act i op) := by
  refine ⟨fun j => ?_, inv.sent⟩
  by_cases same : j = i
  · subst same
    simpa [Mesh.act] using stamped_ascends (inv.stores j) counter
  · simpa [Mesh.act, same] using inv.stores j

theorem mesh_step_refines {label : MeshLabel ι} (inv : MeshStamped m) (fits : MeshFits m label)
    (taken : m.step label = some next) :
    MeshStamped next ∧ Replicas.Step (abstract m) (abstract next) := by
  cases label with
  | act i op =>
    obtain ⟨alive, counter, fresh⟩ := fits
    simp only [Mesh.step] at taken
    split_ifs at taken with delivered
    cases taken
    have named : ∀ r ∈ receivedBy op, r.name ≠ [] := fun r member => inv.sent r (delivered r member)
    exact ⟨act_stamped inv counter,
      act_refines (op_contributes (inv.stores i) alive counter named fresh) delivered⟩
  | snapshot i now =>
    have alive : Alive (m.stores i) now := fits
    have kept : ((m.stores i).snapshotForSync now).store = m.stores i :=
      alive.dropped (dropped_prune _ now)
    simp only [Mesh.step, kept] at taken
    cases taken
    have resident : ∀ r ∈ ((m.stores i).snapshotForSync now).result,
        (m.stores i).records.find r.name = some r :=
      fun r member => (unexpired_eq_some.mp (mem_snapshotForSync.mp member).1).1
    exact ⟨publish_stamped inv resident, publish_refines resident⟩
  | broadcast i now name =>
    have alive : Alive (m.stores i) now := fits
    have kept : ((m.stores i).getForBroadcast now name).store = m.stores i :=
      alive.dropped (getForBroadcast_dropped _ now name)
    simp only [Mesh.step, kept] at taken
    cases taken
    have resident : ∀ r ∈ ((m.stores i).getForBroadcast now name).result.toList,
        (m.stores i).records.find r.name = some r := by
      intro r member
      rw [getForBroadcast_result, Option.mem_toList] at member
      have found := (unexpired_eq_some.mp member).1
      rw [KeyedMap.find_key found]
      exact found
    exact ⟨publish_stamped inv resident, publish_refines resident⟩

structure MeshReached (m : Mesh ι) : Prop where
  stamped : MeshStamped m
  consistent : (abstract m).Consistent

theorem mesh_reached {host : ι → HostId} {ttlMs : UInt64} {maxCount maxValueBytes : Nat}
    {labels : List (MeshLabel ι)}
    (path : Path Mesh.step MeshFits (.start host ttlMs maxCount maxValueBytes) labels m) :
    MeshReached m := by
  refine path.invariant MeshReached ?_ ⟨meshStamped_start host ttlMs maxCount maxValueBytes, ?_⟩
  · intro before label after inv fits taken
    obtain ⟨stamped, step⟩ := mesh_step_refines inv.stamped fits taken
    exact ⟨stamped, inv.consistent.step step⟩
  · exact Replicas.consistent_initial

/-- Strong eventual consistency: residents only move up the merge order, and replicas that have
    received everything produced, or something above it, agree on its per-name join. -/
theorem mesh_converges {host : ι → HostId} {ttlMs : UInt64} {maxCount maxValueBytes : Nat}
    {labels : List (MeshLabel ι)} {m : Mesh ι}
    (path : Path Mesh.step MeshFits (.start host ttlMs maxCount maxValueBytes) labels m) :
    (∀ label next, MeshFits m label → m.step label = some next → ∀ i name r,
      (m.stores i).records.find name = some r →
      ∃ q, (next.stores i).records.find name = some q ∧ r ≤ q) ∧
    ((∀ i, ∀ p ∈ m.produced, ∃ q ∈ m.received i, p ≤ q) → ∀ i now, Alive (m.stores i) now →
      ((m.stores i).snapshotForSync now).result = (joinAll .empty m.produced).entries) := by
  have reached := mesh_reached path
  constructor
  · intro label next fits taken i
    have step := (mesh_step_refines reached.stamped fits taken).2
    exact content_le_iff.mp (step.state_mono i)
  · intro complete i now alive
    have named : ∀ r ∈ (m.stores i).records.entries, r.name ≠ [] :=
      fun r member => (reached.stamped.stores i r.name r (KeyedMap.find_self member)).1
    rw [alive.snapshot named]
    apply congrArg
    apply content_inj
    rw [content_joinAll, content_empty, bot_sup_eq]
    apply reached.consistent.converged
    intro x member
    obtain ⟨p, produced, rfl⟩ := List.mem_map.mp member
    obtain ⟨q, received, le⟩ := complete i p produced
    exact ⟨contribution q, List.mem_map_of_mem received, contribution_mono le⟩

namespace TwoStores

def host (i : Bool) : HostId := ⟨List.replicate 16 (if i then 1 else 2), by cases i <;> rfl⟩
def start : Mesh Bool := .start host RegisterStore.kDefaultTtlMs 8 8
def write : StoreOp := .upsert (.all 100) [0x6B] [0x70] 0 (host true)
def record : RegisterRecord := writtenRecord [0x6B] [0x70] 0 (host true) { wallMs := 100, counter := 0 }
def written : Mesh Bool := start.act true write
def sent : Mesh Bool := written.publish true (written.stores true) [record]
def delivered : Mesh Bool := sent.act false (.applyRemote 100 record)

theorem path : Path Mesh.step MeshFits start
    [.act true write, .snapshot true 100, .act false (.applyRemote 100 record)] delivered := by
  have snapshot : ((written.stores true).snapshotForSync 100).result = [record] := by decide +kernel
  have kept : ((written.stores true).snapshotForSync 100).store = written.stores true := by decide +kernel
  have writes : start.step (.act true write) = some written := Mesh.step_act (by decide +kernel)
  have sends : written.step (.snapshot true 100) = some sent := by
    simp only [Mesh.step, snapshot, kept]
    rfl
  have delivers : sent.step (.act false (.applyRemote 100 record)) = some delivered :=
    Mesh.step_act (by decide +kernel)
  refine .cons ⟨?_, ?_, ?_⟩ writes (.cons ?_ sends (.cons ⟨?_, ?_, ?_⟩ delivers (.nil _)))
  case refine_4 =>
    change Alive (written.stores true) 100
    decide +kernel
  all_goals decide +kernel

end TwoStores

open TwoStores in
theorem mesh_converges_two_stores :
    ((delivered.stores false).snapshotForSync 100).result = (joinAll .empty delivered.produced).entries ∧
      ((delivered.stores true).snapshotForSync 100).result = (joinAll .empty delivered.produced).entries := by
  have complete : ∀ i, ∀ p ∈ delivered.produced, ∃ q ∈ delivered.received i, p ≤ q := by
    have produced : delivered.produced = [record] := by decide +kernel
    have received : ∀ i, delivered.received i = [record] := by decide +kernel
    intro i p member
    rw [produced] at member
    exact ⟨p, by rw [received]; exact member, le_rfl⟩
  exact ⟨(mesh_converges path).2 complete false 100 (by decide +kernel),
    (mesh_converges path).2 complete true 100 (by decide +kernel)⟩

end ClippProof.Registers
