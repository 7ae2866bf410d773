import Clipp.Wire.RegisterList
import Clipp.Wire.SyncAnswer

open Foundation

namespace ClippModel.Gateway

open ClippModel.Registers ClippModel.Wire ClippModel.Wire.RegisterWire ClippModel.Wire.Peer

def transportRelay : UInt8 := 0x01

def tagRDEL : Bytes := [0x52, 0x44, 0x45, 0x4C]
def tagNONE : Bytes := [0x4E, 0x4F, 0x4E, 0x45]
def tagROKW : Bytes := [0x52, 0x4F, 0x4B, 0x57]
def tagRERR : Bytes := [0x52, 0x45, 0x52, 0x52]

/-- What a register frame does: the store behind it, the reply on its connection, and the REGW body
    broadcast to the mesh. -/
structure Handled where
  store : RegisterStore
  reply : Option Bytes
  broadcast : Option Bytes

/-- Whether the relayed write changed the store, its acknowledgement, and the store after it. -/
def relayWrite (s : RegisterStore) (t : Readings) (rec : RegisterRecord) : Bool × Bytes × RegisterStore :=
  if rec.isTombstone then
    let call := s.deleteFrom t rec.name rec.originHostId
    if call.result = .deleted then (true, tagRDEL, call.store) else (false, tagNONE, call.store)
  else
    let call := s.upsertWithFlags t rec.name rec.value rec.flags rec.originHostId
    if call.result = .ok then (true, tagROKW, call.store) else (false, tagRERR, call.store)

def handleRegw (s : RegisterStore) (t : Readings) (rebroadcast : UInt64) (body : Bytes) : Handled :=
  match tryDecodeRecord body with
  | none => { store := s, reply := none, broadcast := none }
  | some (rec, transport) =>
    if !isValidRegisterName rec.name then { store := s, reply := none, broadcast := none }
    else if transport &&& transportRelay ≠ 0 then
      let (changed, reply, after) := relayWrite s t rec
      if changed then
        let stored := after.getForBroadcast rebroadcast rec.name
        { store := stored.store, reply := some reply, broadcast := stored.result.map (fun r => encodeRecord r 0) }
      else { store := after, reply := some reply, broadcast := none }
    else { store := (s.applyRemote t.expiry rec).store, reply := none, broadcast := none }

inductive GatewayStep where
  | write (w : RegisterWrite)
  | delete (t : Readings) (name : Bytes) (origin : HostId)
  | read (t : Readings) (name : Bytes)
  | mirror (t : Readings) (value : Bytes)
  | list (t : Readings)
  | regw (t : Readings) (rebroadcast : UInt64) (body : Bytes)

def gatewayStep (s : RegisterStore) : GatewayStep → RegisterStore
  | .write w => (write s w).store
  | .delete t name origin => (s.deleteFrom t name origin).store
  | .read t name => (s.read t name).store
  | .mirror t value => s.mirrorDefault t value
  | .list t => (s.list t).store
  | .regw t rebroadcast body => (handleRegw s t rebroadcast body).store

def gatewayRun (s : RegisterStore) : List GatewayStep → RegisterStore
  | [] => s
  | step :: rest => gatewayRun (gatewayStep s step) rest

end ClippModel.Gateway

namespace ClippProof.Gateway

open ClippModel.Registers ClippModel.Registers.RegisterStore ClippModel.Wire ClippModel.Wire.RegisterWire
  ClippModel.Wire.Peer ClippModel.Gateway ClippProof.Registers ClippProof.Wire

variable {s after : RegisterStore} {t : Readings} {expiry : UInt64} {name : Bytes} {r : RegisterRecord}
  {limit : Nat} {P : RegisterRecord → Prop}

/-- A property of records that everything a gateway stores has, under this limit on written values. -/
structure GatewayClosed (limit : Nat) (P : RegisterRecord → Prop) : Prop where
  written : ∀ name value valueFlags origin ts, isValidRegisterName name = true → value.length ≤ limit →
    P (writtenRecord name value valueFlags origin ts)
  tombstone : ∀ r origin ts, P r → P (tombstoneRecord r origin ts)
  touched : ∀ r ts, P r → P { r with touched := ts }
  mirror : ∀ value ts origin, P { name := [], value := value, written := ts, touched := ts,
                                  originHostId := origin, flags := 0 }
  merge : MergeClosed P
  decoded : ∀ r, isValidRegisterName r.name = true → WithinCaps r → P r

structure Residents (limit : Nat) (P : RegisterRecord → Prop) (s : RegisterStore) : Prop where
  limit : s.maxValueBytes = limit
  resident : ∀ name r, s.records.find name = some r → P r

theorem Residents.dropped (inv : Residents limit P s) (drop : Dropped expiry s after) : Residents limit P after :=
  ⟨by rw [drop.rest]; exact inv.limit, fun name r found => inv.resident name r (drop.find_of_some found)⟩

theorem Residents.install (inv : Residents limit P s) (clock : HlcClock) (stored : P r) :
    Residents limit P (install s clock r) := by
  refine ⟨inv.limit, fun name q found => ?_⟩
  rw [install_find] at found
  split_ifs at found
  · cases found
    exact stored
  · exact inv.resident name q found

theorem Residents.write (closed : GatewayClosed limit P) (inv : Residents limit P s) (w : RegisterWrite) :
    Residents limit P (Peer.write s w).store := by
  rcases write_cases s w with ⟨_, expiry, drop⟩ | ⟨t, valueFlags, origin, admitted, stored⟩
  · exact inv.dropped drop
  · rw [stored]
    have size := admitted.2.1
    rw [inv.limit] at size
    exact (inv.dropped (dropped_prune s t.expiry)).install _ (closed.written _ _ _ _ _ admitted.1 size)

theorem Residents.delete (closed : GatewayClosed limit P) (inv : Residents limit P s) (t : Readings) (name : Bytes)
    (origin : HostId) : Residents limit P (s.deleteFrom t name origin).store := by
  rcases deleteLocked_cases s t name origin with ⟨_, drop⟩ | ⟨r, live, _, equal⟩
  · exact inv.dropped drop
  · have old := inv.resident name r (unexpired_eq_some.mp live).1
    have stored : (s.deleteFrom t name origin).store = Registers.install s (s.clock.now t.mint).2
        (tombstoneRecord r origin (s.clock.now t.mint).1) := congrArg Prod.snd equal
    rw [stored]
    exact inv.install _ (closed.tombstone _ _ _ old)

theorem Residents.read (closed : GatewayClosed limit P) (inv : Residents limit P s) (t : Readings) (name : Bytes) :
    Residents limit P (s.read t name).store := by
  rcases read_cases s t name with ⟨_, _, drop⟩ | ⟨r, live, _, equal⟩
  · exact inv.dropped drop
  · rw [equal]
    exact inv.install _ (closed.touched _ _ (inv.resident name r (unexpired_eq_some.mp live).1))

theorem applyRemote_limit (s : RegisterStore) (now : UInt64) (r : RegisterRecord) :
    (s.applyRemote now r).store.maxValueBytes = s.maxValueBytes := by
  change (s.applyRemoteLocked now r).2.maxValueBytes = s.maxValueBytes
  rw [applyRemote_rest]

theorem Residents.applyRemote (closed : GatewayClosed limit P) (inv : Residents limit P s) (now : UInt64)
    (arriving : P r) : Residents limit P (s.applyRemote now r).store :=
  ⟨(applyRemote_limit s now r).trans inv.limit,
    fun _ _ found => applyRemote_residents closed.merge inv.resident arriving found⟩

theorem relayWrite_store (s : RegisterStore) (t : Readings) (rec : RegisterRecord) :
    (relayWrite s t rec).2.2 = if rec.isTombstone then (s.deleteFrom t rec.name rec.originHostId).store
      else (s.upsertWithFlags t rec.name rec.value rec.flags rec.originHostId).store := by
  unfold relayWrite
  by_cases tombstone : rec.isTombstone = true
  · simp only [tombstone, if_true]
    split_ifs <;> rfl
  · simp only [tombstone]
    split_ifs <;> rfl

theorem Residents.relayWrite (closed : GatewayClosed limit P) (inv : Residents limit P s) (t : Readings)
    (rec : RegisterRecord) : Residents limit P (relayWrite s t rec).2.2 := by
  rw [relayWrite_store]
  split_ifs
  · exact inv.delete closed t rec.name rec.originHostId
  · exact inv.write closed (.upsertWithFlags t rec.name rec.value rec.flags rec.originHostId)

theorem Residents.regw (closed : GatewayClosed limit P) (inv : Residents limit P s) (t : Readings)
    (rebroadcast : UInt64) (body : Bytes) : Residents limit P (handleRegw s t rebroadcast body).store := by
  unfold handleRegw
  split
  · exact inv
  · rename_i rec transport decoded
    have relayed := inv.relayWrite closed t rec
    split_ifs with invalid relay
    · exact inv
    · simp only
      split_ifs
      · exact relayed.dropped (getForBroadcast_dropped _ _ _)
      · exact relayed
    · have valid : isValidRegisterName rec.name = true := by simpa using invalid
      exact inv.applyRemote closed t.expiry (closed.decoded rec valid (tryDecodeRecord_withinCaps decoded))

theorem Residents.step (closed : GatewayClosed limit P) (inv : Residents limit P s) (step : GatewayStep) :
    Residents limit P (gatewayStep s step) := by
  cases step with
  | write w => exact inv.write closed w
  | delete t name origin => exact inv.delete closed t name origin
  | read t name => exact inv.read closed t name
  | mirror t value => exact inv.install _ (closed.mirror value _ s.localHost)
  | list t => exact inv.dropped (dropped_prune s t.expiry)
  | regw t rebroadcast body => exact inv.regw closed t rebroadcast body

theorem Residents.run (closed : GatewayClosed limit P) (inv : Residents limit P s) (steps : List GatewayStep) :
    Residents limit P (gatewayRun s steps) := by
  induction steps generalizing s with
  | nil => exact inv
  | cons step rest ih => exact ih (inv.step closed step)

theorem residents_create (P : RegisterRecord → Prop) (localHost : HostId) (ttlMs : UInt64)
    (maxCount maxValueBytes : Nat) (floor : Hlc) :
    Residents maxValueBytes P ((create localHost ttlMs maxCount maxValueBytes).seedClockFloor floor) := by
  refine ⟨rfl, fun name r found => ?_⟩
  cases found

/-- Every resident has a name the wire can carry. -/
def NamesFit (s : RegisterStore) : Prop := ∀ name r, s.records.find name = some r → r.name.length ≤ kMaxNameLen

theorem namesFit_closed (limit : Nat) : GatewayClosed limit (fun r => r.name.length ≤ kMaxNameLen) where
  written _ _ _ _ _ valid _ := validName_length valid
  tombstone _ _ _ old := old
  touched _ _ old := old
  mirror _ _ _ := Nat.zero_le _
  merge _ _ same left _ := (congrArg List.length (mergeRecords_name same)).trans_le left
  decoded _ valid _ := validName_length valid

theorem namesFit_run (localHost : HostId) (ttlMs : UInt64) (maxCount maxValueBytes : Nat) (floor : Hlc)
    (steps : List GatewayStep) :
    NamesFit (gatewayRun ((create localHost ttlMs maxCount maxValueBytes).seedClockFloor floor) steps) :=
  ((residents_create _ localHost ttlMs maxCount maxValueBytes floor).run (namesFit_closed _) steps).resident

/-- A named resident has a valid name and a value the wire can carry. -/
def RegisterFits (r : RegisterRecord) : Prop :=
  r.name ≠ [] → isValidRegisterName r.name = true ∧ r.value.length ≤ kMaxValueLen

theorem registerFits_closed : GatewayClosed kMaxValueLen RegisterFits where
  written _ _ _ _ _ valid size _ := ⟨valid, size⟩
  tombstone _ _ _ old named := ⟨(old named).1, Nat.zero_le _⟩
  touched _ _ old := old
  mirror _ _ _ nameless := absurd rfl nameless
  merge a b same left right named := by
    have name := mergeRecords_name same
    rw [name] at named ⊢
    refine ⟨(left named).1, ?_⟩
    unfold mergeRecords
    split_ifs
    · exact (right (same ▸ named)).2
    · exact (left named).2
  decoded _ valid caps _ := ⟨valid, caps.2⟩

end ClippProof.Gateway
