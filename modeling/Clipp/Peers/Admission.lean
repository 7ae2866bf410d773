import Clipp.Foundation.KeyedList
import Clipp.Peers.Lock

open Foundation

namespace ClippModel.Peers

open ClippModel.Registers

namespace PeerLimits

def maxPendingIncomingAuthentications : Nat := 32

def maxPendingIncomingAuthenticationsPerIp : Nat := 8

def maxAuthenticatedIncomingPeers : Nat := 127

inductive PendingAuthenticationAdmission where
  | accepted
  | rejectedGlobalLimit
  | rejectedPerIpLimit
  deriving DecidableEq

def evaluatePendingAuthentication (pendingGlobal pendingForIp : Nat) : PendingAuthenticationAdmission :=
  if maxPendingIncomingAuthentications ≤ pendingGlobal then .rejectedGlobalLimit
  else if maxPendingIncomingAuthenticationsPerIp ≤ pendingForIp then .rejectedPerIpLimit
  else .accepted

def canEstablishIncoming (establishedIncoming : Nat) : Bool := establishedIncoming < maxAuthenticatedIncomingPeers

end PeerLimits

inductive IncomingPeerAdmission where
  | accepted
  | rejectedMissingAddress
  | rejectedGlobalAuthLimit
  | rejectedPerIpAuthLimit
  deriving DecidableEq

inductive IncomingPeerEstablishment where
  | accepted
  | acceptedFirst
  | rejectedPeerLimit
  deriving DecidableEq

/-- Where the thread of a peer is. An incoming one has its handshake in front of it, has cleared its pending
    flag, has been refused, is connected, or is in front of one of its last two stores. -/
inductive PeerPhase where
  | sending
  | handshaking
  | verified
  | refused
  | connected
  | closing
  | stopping
  | exited
  deriving DecidableEq

/-- `address` is the one its socket was admitted under; `peer.ip` is read from the socket again. -/
structure AdmittedPeer where
  peer : Peer
  address : Bytes
  incomingAuthenticationPending : Bool
  phase : PeerPhase
  deriving DecidableEq

structure CountCall where
  result : Option IncomingPeerEstablishment
  before : Nat
  after : Nat
  deriving DecidableEq

/-- `removing` is the call that holds the lock to remove peers, with those it has selected so far. -/
structure Admissions where
  peers : List AdmittedPeer
  nextPeerLogId : Nat
  establishedIncomingCount : Nat
  removing : Option (Removal × List Nat)
  calls : List CountCall

/-- `accept` has what the two reads of the socket's address return. A call that removes peers locks the manager,
    visits them one after the other and joins the threads of those it selects before it drops them. -/
inductive AdmissionEvent where
  | accept (address ip : Bytes) (port : UInt16) (starts : Bool)
  | add (hostName : Bytes) (hostID : HostId) (ip : Bytes) (port : UInt16) (starts : Bool)
  | handshake (logId : Nat) (succeeds : Bool)
  | establish (logId : Nat)
  | leave (logId : Nat)
  | close (logId : Nat)
  | lock (removal : Removal)
  | select (logId : Nat) (silent : Bool)
  | unlock

namespace AdmittedPeer

def logId (p : AdmittedPeer) : Nat := p.peer.logId

def isIncomingAuthenticationPending (p : AdmittedPeer) : Bool :=
  p.peer.connType = .incoming && p.incomingAuthenticationPending

def isConnected (p : AdmittedPeer) : Bool := p.phase = .connected

def goTo (phase : PeerPhase) (p : AdmittedPeer) : AdmittedPeer := { p with phase := phase }

def verify (p : AdmittedPeer) : AdmittedPeer := { p with incomingAuthenticationPending := false, phase := .verified }

/-- The last two stores of an incoming thread, after a refused connection only the second, and the end of an
    outgoing thread. -/
def close (p : AdmittedPeer) : AdmittedPeer :=
  match p.phase with
  | .closing => { p with incomingAuthenticationPending := false, phase := .stopping }
  | .refused | .stopping | .sending => { p with peer := { p.peer with isRunning := false }, phase := .exited }
  | .handshaking | .verified | .connected | .exited => p

end AdmittedPeer

/-- `silent` is the verdict of the clocks: a minute old, and a minute without a ping. -/
def Removal.selectsPeer (silent : Bool) (p : Peer) : Removal → Bool
  | .removeOutgoing hostID => PeerManager.isOutgoingTo hostID p
  | .cull => !p.isRunning || (p.connType = .incoming && silent)
  | .clear => true

namespace Admissions

def boot : Admissions where
  peers := []
  nextPeerLogId := 1
  establishedIncomingCount := 0
  removing := none
  calls := []

def manager (s : Admissions) : PeerManager := { peers := s.peers.map (·.peer), nextPeerLogId := s.nextPeerLogId }

def pendingGlobal (s : Admissions) : Nat := s.peers.countP (·.isIncomingAuthenticationPending)

def pendingForIp (s : Admissions) (peerIp : Bytes) : Nat :=
  s.peers.countP (fun p => p.isIncomingAuthenticationPending && p.peer.ip = peerIp)

/-- `starts` tells whether the wake socket of the new peer could be created: without it no thread runs. -/
def createIncomingPeer (s : Admissions) (address ip : Bytes) (port : UInt16) (starts : Bool) : AdmittedPeer where
  peer :=
    { logId := s.nextPeerLogId, connType := .incoming, hostName := [], hostID := HostId.zero, ip := ip, port := port,
      isRunning := starts }
  address := address
  incomingAuthenticationPending := starts
  phase := if starts then .handshaking else .exited

def addIncomingPeer (s : Admissions) (address ip : Bytes) (port : UInt16) (starts : Bool) :
    IncomingPeerAdmission × Admissions :=
  if address = [] then (.rejectedMissingAddress, s)
  else
    match PeerLimits.evaluatePendingAuthentication s.pendingGlobal (s.pendingForIp address) with
    | .rejectedGlobalLimit => (.rejectedGlobalAuthLimit, s)
    | .rejectedPerIpLimit => (.rejectedPerIpAuthLimit, s)
    | .accepted =>
      (.accepted, { s with peers := s.peers ++ [s.createIncomingPeer address ip port starts]
                           nextPeerLogId := s.nextPeerLogId + 1 })

def addPeer (s : Admissions) (hostName : Bytes) (hostID : HostId) (ip : Bytes) (port : UInt16) (starts : Bool) :
    OutgoingPeerAdmission × Admissions :=
  match s.manager.addPeer hostName hostID ip port starts with
  | (.accepted, _) =>
    let added : AdmittedPeer :=
      { peer := s.manager.createPeer hostName hostID ip port starts, address := [],
        incomingAuthenticationPending := false, phase := if starts then .sending else .exited }
    (.accepted, { s with peers := s.peers ++ [added], nextPeerLogId := s.nextPeerLogId + 1 })
  | (rejected, _) => (rejected, s)

def tryEstablishIncomingPeer (s : Admissions) : IncomingPeerEstablishment × Nat :=
  if !PeerLimits.canEstablishIncoming s.establishedIncomingCount then
    (.rejectedPeerLimit, s.establishedIncomingCount)
  else if s.establishedIncomingCount = 0 then (.acceptedFirst, s.establishedIncomingCount + 1)
  else (.accepted, s.establishedIncomingCount + 1)

def onIncomingPeerLeft (s : Admissions) : Nat :=
  if 0 < s.establishedIncomingCount then s.establishedIncomingCount - 1 else s.establishedIncomingCount

def modify (s : Admissions) (logId : Nat) (f : AdmittedPeer → AdmittedPeer) : Admissions :=
  { s with peers := KeyedList.modify AdmittedPeer.logId logId f s.peers }

def count (s : Admissions) (result : Option IncomingPeerEstablishment) (after : Nat) : Admissions :=
  { s with establishedIncomingCount := after
           calls := { result := result, before := s.establishedIncomingCount, after := after } :: s.calls }

def isAt (s : Admissions) (logId : Nat) (phase : PeerPhase) : Bool :=
  s.peers.any (fun p => p.logId = logId && p.phase = phase)

def step (s : Admissions) : AdmissionEvent → Option Admissions
  | .accept address ip port starts =>
    if s.removing = none then some (s.addIncomingPeer address ip port starts).2 else none
  | .add hostName hostID ip port starts =>
    if s.removing = none then some (s.addPeer hostName hostID ip port starts).2 else none
  | .handshake logId succeeds =>
    if s.isAt logId .handshaking then
      some (s.modify logId (if succeeds then .verify else .goTo .closing))
    else none
  | .establish logId =>
    if s.isAt logId .verified then
      let (result, after) := s.tryEstablishIncomingPeer
      let phase := if result = .rejectedPeerLimit then .refused else .connected
      some ((s.count (some result) after).modify logId (.goTo phase))
    else none
  | .leave logId =>
    if s.isAt logId .connected then some ((s.count none s.onIncomingPeerLeft).modify logId (.goTo .closing)) else none
  | .close logId => some (s.modify logId .close)
  | .lock removal => if s.removing = none then some { s with removing := some (removal, []) } else none
  | .select logId silent =>
    match s.removing with
    | some (removal, selected) =>
      if s.peers.any (fun p => p.logId = logId && removal.selectsPeer silent p.peer) then
        some { s with removing := some (removal, logId :: selected) }
      else none
    | none => none
  | .unlock =>
    match s.removing with
    | some (_, selected) =>
      if s.peers.all (fun p => p.logId ∉ selected || p.phase = .exited) then
        some { s with peers := s.peers.filter (fun p => p.logId ∉ selected), removing := none }
      else none
    | none => none

end Admissions

end ClippModel.Peers

namespace ClippProof.Peers

open ClippModel.Registers ClippModel.Peers ClippModel.Peers.Admissions

variable {s next : Admissions} {p : AdmittedPeer} {f : AdmittedPeer → AdmittedPeer} {event : AdmissionEvent}

/-- The global pending limit, the outgoing limit, and what the established count says. -/
structure Accounted (s : Admissions) : Prop where
  pending : s.pendingGlobal ≤ PeerLimits.maxPendingIncomingAuthentications
  outgoing : s.manager.outgoingCount ≤ PeerLimits.maxOutgoingPeers
  established : s.establishedIncomingCount = s.peers.countP (·.isConnected)
  bounded : s.establishedIncomingCount ≤ PeerLimits.maxAuthenticatedIncomingPeers
  positive : ∀ call ∈ s.calls, call.result = none → call.after + 1 = call.before
  first : ∀ call ∈ s.calls, call.result = some .acceptedFirst ↔ call.before = 0 ∧ call.after = 1

def pendingFrom (s : Admissions) (address : Bytes) : Nat :=
  s.peers.countP (fun p => p.isIncomingAuthenticationPending && p.address = address)

/-- The second read of the address of a socket returns what the first one did. -/
def AddressKept (_ : Admissions) : AdmissionEvent → Prop
  | .accept address ip _ _ => ip = address
  | .add _ _ _ _ _ | .handshake _ _ | .establish _ | .leave _ | .close _ | .lock _ | .select _ _ | .unlock => True

instance addressKeptDecidable (s : Admissions) : ∀ event, Decidable (AddressKept s event)
  | .accept address ip _ _ => inferInstanceAs (Decidable (ip = address))
  | .add _ _ _ _ _ | .handshake _ _ | .establish _ | .leave _ | .close _ | .lock _ | .select _ _ | .unlock =>
    isTrue trivial

structure Counted (s : Admissions) : Prop where
  distinct : (s.peers.map AdmittedPeer.logId).Nodup
  fresh : ∀ p ∈ s.peers, p.logId < s.nextPeerLogId
  accounted : Accounted s

/-- What the thread of a peer leaves as it is, and that it never sets the pending flag. -/
structure Keeps (f : AdmittedPeer → AdmittedPeer) : Prop where
  logId : ∀ p, (f p).logId = p.logId
  connType : ∀ p, (f p).peer.connType = p.peer.connType
  ip : ∀ p, (f p).peer.ip = p.peer.ip
  address : ∀ p, (f p).address = p.address
  pending : ∀ p, (f p).incomingAuthenticationPending = true → p.incomingAuthenticationPending = true

theorem keeps_goTo (phase : PeerPhase) : Keeps (.goTo phase) :=
  ⟨fun _ => rfl, fun _ => rfl, fun _ => rfl, fun _ => rfl, fun _ => id⟩

theorem keeps_verify : Keeps .verify := ⟨fun _ => rfl, fun _ => rfl, fun _ => rfl, fun _ => rfl, fun _ => nofun⟩

theorem keeps_close : Keeps .close := by
  refine ⟨fun p => ?_, fun p => ?_, fun p => ?_, fun p => ?_, fun p => ?_⟩ <;> unfold AdmittedPeer.close
  case refine_5 => cases p.phase <;> simp
  all_goals cases p.phase <;> rfl

theorem Keeps.isPending (keeps : Keeps f) (pending : (f p).isIncomingAuthenticationPending = true) :
    p.isIncomingAuthenticationPending = true := by
  simp only [AdmittedPeer.isIncomingAuthenticationPending, Bool.and_eq_true, decide_eq_true_eq] at pending ⊢
  exact ⟨(keeps.connType p).symm.trans pending.1, keeps.pending p pending.2⟩

theorem outgoingCount_eq (s : Admissions) :
    s.manager.outgoingCount = s.peers.countP (fun p => PeerManager.isOutgoing p.peer) := List.countP_map

theorem Keeps.outgoing (keeps : Keeps f) (logId : Nat) :
    (s.modify logId f).manager.outgoingCount ≤ s.manager.outgoingCount := by
  rw [outgoingCount_eq, outgoingCount_eq]
  apply KeyedList.countP_modify_le _
  intro p _ _ outgoing
  simp only [PeerManager.isOutgoing, decide_eq_true_eq] at outgoing ⊢
  exact (keeps.connType p).symm.trans outgoing

theorem isAt_iff {logId : Nat} {phase : PeerPhase} :
    s.isAt logId phase = true ↔ ∃ p ∈ s.peers, p.logId = logId ∧ p.phase = phase := by
  simp [isAt]

def established (s : Admissions) (logId : Nat) : Admissions :=
  (s.count (some s.tryEstablishIncomingPeer.1) s.tryEstablishIncomingPeer.2).modify logId
    (.goTo (if s.tryEstablishIncomingPeer.1 = .rejectedPeerLimit then .refused else .connected))

/-- What an event does where it can happen. A removal is `hold` until it lets the lock go. -/
inductive Admits (s : Admissions) : AdmissionEvent → Admissions → Prop where
  | accept (address ip : Bytes) (port : UInt16) (starts : Bool) :
    Admits s (.accept address ip port starts) (s.addIncomingPeer address ip port starts).2
  | add (hostName : Bytes) (hostID : HostId) (ip : Bytes) (port : UInt16) (starts : Bool) :
    Admits s (.add hostName hostID ip port starts) (s.addPeer hostName hostID ip port starts).2
  | handshake (logId : Nat) (succeeds : Bool) : s.isAt logId .handshaking = true →
    Admits s (.handshake logId succeeds) (s.modify logId (if succeeds then .verify else .goTo .closing))
  | establish (logId : Nat) : s.isAt logId .verified = true →
    Admits s (.establish logId) (established s logId)
  | leave (logId : Nat) : s.isAt logId .connected = true →
    Admits s (.leave logId) ((s.count none s.onIncomingPeerLeft).modify logId (.goTo .closing))
  | close (logId : Nat) : Admits s (.close logId) (s.modify logId .close)
  | hold {event : AdmissionEvent} (removing : Option (Removal × List Nat)) :
    Admits s event { s with removing := removing }
  | unlock (selected : List Nat) : s.peers.all (fun p => p.logId ∉ selected || p.phase = .exited) = true →
    Admits s .unlock { s with peers := s.peers.filter (fun p => p.logId ∉ selected), removing := none }

theorem step_admits (taken : s.step event = some next) : Admits s event next := by
  cases event with
  | accept address ip port starts =>
    rw [Admissions.step] at taken
    split_ifs at taken
    exact Option.some.inj taken ▸ .accept address ip port starts
  | add hostName hostID ip port starts =>
    rw [Admissions.step] at taken
    split_ifs at taken
    exact Option.some.inj taken ▸ .add hostName hostID ip port starts
  | handshake logId succeeds =>
    rw [Admissions.step] at taken
    split at taken
    · rename_i waits
      exact Option.some.inj taken ▸ .handshake logId succeeds waits
    · cases taken
  | establish logId =>
    rw [Admissions.step] at taken
    split_ifs at taken with waits
    exact Option.some.inj taken ▸ .establish logId waits
  | leave logId =>
    rw [Admissions.step] at taken
    split_ifs at taken with waits
    exact Option.some.inj taken ▸ .leave logId waits
  | close logId => exact Option.some.inj taken ▸ .close logId
  | lock removal =>
    rw [Admissions.step] at taken
    split_ifs at taken
    exact Option.some.inj taken ▸ .hold _
  | select logId silent =>
    cases held : s.removing with
    | none => simp [Admissions.step, held] at taken
    | some removing =>
      simp only [Admissions.step, held] at taken
      split_ifs at taken
      exact Option.some.inj taken ▸ .hold _
  | unlock =>
    cases held : s.removing with
    | none => simp [Admissions.step, held] at taken
    | some removing =>
      simp only [Admissions.step, held] at taken
      split_ifs at taken with joined
      exact Option.some.inj taken ▸ .unlock removing.2 joined

theorem Counted.modify {count : Nat} {calls : List CountCall} (counted : Counted s) (keeps : Keeps f)
    (member : p ∈ s.peers)
    (moves : count + (if p.isConnected then 1 else 0) =
      s.establishedIncomingCount + (if (f p).isConnected then 1 else 0))
    (bounded : count ≤ PeerLimits.maxAuthenticatedIncomingPeers)
    (positive : ∀ call ∈ calls, call.result = none → call.after + 1 = call.before)
    (first : ∀ call ∈ calls, call.result = some .acceptedFirst ↔ call.before = 0 ∧ call.after = 1) :
    Counted ({ s with establishedIncomingCount := count, calls := calls }.modify p.logId f) := by
  have accounted := counted.accounted
  refine ⟨?_, fun q inside => ?_, ?_, ?_, ?_, bounded, positive, first⟩
  · exact (KeyedList.keys_modify (fun q here => (keeps.logId q).trans here)).symm ▸ counted.distinct
  · obtain ⟨q, before, rfl⟩ := KeyedList.mem_modify.mp inside
    have below := counted.fresh q before
    split_ifs
    · exact (keeps.logId q).symm ▸ below
    · exact below
  · exact (KeyedList.countP_modify_le _ (fun q _ _ => keeps.isPending)).trans accounted.pending
  · exact (keeps.outgoing p.logId).trans accounted.outgoing
  · have counts := KeyedList.countP_modify (f := f) counted.distinct member (fun p => p.isConnected)
    have same := accounted.established
    change count = (KeyedList.modify AdmittedPeer.logId p.logId f s.peers).countP (fun p => p.isConnected)
    omega

theorem counted_boot : Counted boot where
  distinct := List.nodup_nil
  fresh _ member := nomatch member
  accounted := ⟨Nat.zero_le _, Nat.zero_le _, rfl, Nat.zero_le _, nofun, nofun⟩

theorem Counted.advance {logId : Nat} (counted : Counted s) (keeps : Keeps f)
    (same : ∀ p ∈ s.peers, p.logId = logId → (f p).isConnected = p.isConnected) : Counted (s.modify logId f) := by
  by_cases missing : logId ∈ s.peers.map AdmittedPeer.logId
  · obtain ⟨p, member, rfl⟩ := List.mem_map.mp missing
    have accounted := counted.accounted
    refine counted.modify keeps member ?_ accounted.bounded accounted.positive accounted.first
    rw [same p member rfl]
  · rw [Admissions.modify, KeyedList.modify_of_notMem missing]
    exact counted

theorem Counted.handshake {logId : Nat} {succeeds : Bool} (counted : Counted s)
    (waits : s.isAt logId .handshaking = true) :
    Counted (s.modify logId (if succeeds then .verify else .goTo .closing)) := by
  obtain ⟨p, member, here, phase⟩ := isAt_iff.mp waits
  have only : ∀ q ∈ s.peers, q.logId = logId → q.phase = .handshaking := fun q inside there =>
    List.inj_on_of_nodup_map counted.distinct inside member (there.trans here.symm) ▸ phase
  cases succeeds with
  | true =>
    apply counted.advance keeps_verify
    intro q inside there
    simp [AdmittedPeer.isConnected, AdmittedPeer.verify, only q inside there]
  | false =>
    apply counted.advance (keeps_goTo .closing)
    intro q inside there
    simp [AdmittedPeer.isConnected, AdmittedPeer.goTo, only q inside there]

theorem close_isConnected (p : AdmittedPeer) : p.close.isConnected = p.isConnected := by
  unfold AdmittedPeer.close
  cases phase : p.phase <;> simp [AdmittedPeer.isConnected, phase]

theorem Counted.close {logId : Nat} (counted : Counted s) : Counted (s.modify logId .close) :=
  counted.advance keeps_close (fun p _ _ => close_isConnected p)

theorem tryEstablish_cases (s : Admissions) :
    (¬ s.establishedIncomingCount < PeerLimits.maxAuthenticatedIncomingPeers ∧
      s.tryEstablishIncomingPeer = (.rejectedPeerLimit, s.establishedIncomingCount)) ∨
    (s.establishedIncomingCount = 0 ∧ s.tryEstablishIncomingPeer = (.acceptedFirst, 1)) ∨
    (s.establishedIncomingCount ≠ 0 ∧ s.establishedIncomingCount < PeerLimits.maxAuthenticatedIncomingPeers ∧
      s.tryEstablishIncomingPeer = (.accepted, s.establishedIncomingCount + 1)) := by
  unfold tryEstablishIncomingPeer PeerLimits.canEstablishIncoming
  by_cases room : s.establishedIncomingCount < PeerLimits.maxAuthenticatedIncomingPeers
  · by_cases none : s.establishedIncomingCount = 0
    · exact .inr (.inl ⟨none, by simp [none, PeerLimits.maxAuthenticatedIncomingPeers]⟩)
    · exact .inr (.inr ⟨none, room, by simp [room, none]⟩)
  · exact .inl ⟨room, by simp [room]⟩

theorem Counted.establish {logId : Nat} (counted : Counted s) (waits : s.isAt logId .verified = true) :
    Counted (established s logId) := by
  obtain ⟨p, member, rfl, phase⟩ := isAt_iff.mp waits
  have accounted := counted.accounted
  rcases tryEstablish_cases s with ⟨_, result⟩ | ⟨empty, result⟩ | ⟨some_, room, result⟩
  · rw [established, result]
    refine counted.modify (keeps_goTo .refused) member ?_ accounted.bounded ?_ ?_
    · simp [phase, AdmittedPeer.isConnected, AdmittedPeer.goTo]
    · exact List.forall_mem_cons.mpr ⟨nofun, accounted.positive⟩
    · refine List.forall_mem_cons.mpr ⟨iff_of_false nofun ?_, accounted.first⟩
      dsimp only
      omega
  · rw [established, result]
    refine counted.modify (keeps_goTo .connected) member ?_ (by decide) ?_ ?_
    · simp [phase, empty, AdmittedPeer.isConnected, AdmittedPeer.goTo]
    · exact List.forall_mem_cons.mpr ⟨nofun, accounted.positive⟩
    · exact List.forall_mem_cons.mpr ⟨iff_of_true rfl ⟨empty, rfl⟩, accounted.first⟩
  · rw [established, result]
    refine counted.modify (keeps_goTo .connected) member ?_ room ?_ ?_
    · simp [phase, AdmittedPeer.isConnected, AdmittedPeer.goTo]
    · exact List.forall_mem_cons.mpr ⟨nofun, accounted.positive⟩
    · exact List.forall_mem_cons.mpr ⟨iff_of_false nofun (fun both => some_ both.1), accounted.first⟩

theorem Counted.leave {logId : Nat} (counted : Counted s) (waits : s.isAt logId .connected = true) :
    Counted ((s.count none s.onIncomingPeerLeft).modify logId (.goTo .closing)) := by
  obtain ⟨p, member, rfl, phase⟩ := isAt_iff.mp waits
  have accounted := counted.accounted
  have inside : p.isConnected = true := by simp [AdmittedPeer.isConnected, phase]
  have one : 0 < s.establishedIncomingCount := by
    rw [accounted.established]
    exact List.countP_pos_iff.mpr ⟨p, member, inside⟩
  have left : s.onIncomingPeerLeft + 1 = s.establishedIncomingCount := by
    unfold onIncomingPeerLeft
    rw [if_pos one]
    omega
  have bounded := accounted.bounded
  refine counted.modify (keeps_goTo .closing) member ?_ (by omega) ?_ ?_
  · simpa [phase, AdmittedPeer.isConnected, AdmittedPeer.goTo] using left
  · exact List.forall_mem_cons.mpr ⟨fun _ => left, accounted.positive⟩
  · refine List.forall_mem_cons.mpr ⟨iff_of_false nofun ?_, accounted.first⟩
    dsimp only
    omega

theorem evaluate_accepted {pendingGlobal pendingForIp : Nat}
    (accepts : PeerLimits.evaluatePendingAuthentication pendingGlobal pendingForIp = .accepted) :
    pendingGlobal < PeerLimits.maxPendingIncomingAuthentications ∧
      pendingForIp < PeerLimits.maxPendingIncomingAuthenticationsPerIp := by
  unfold PeerLimits.evaluatePendingAuthentication at accepts
  split_ifs at accepts with full crowded
  exact ⟨not_le.mp full, not_le.mp crowded⟩

/-- An accepted peer was admitted with room under both limits, and a rejected one leaves nothing. -/
theorem addIncomingPeer_cases (s : Admissions) (address ip : Bytes) (port : UInt16) (starts : Bool) :
    (s.addIncomingPeer address ip port starts).2 = s ∨
    s.pendingGlobal < PeerLimits.maxPendingIncomingAuthentications ∧
      s.pendingForIp address < PeerLimits.maxPendingIncomingAuthenticationsPerIp ∧
      (s.addIncomingPeer address ip port starts).2 =
        { s with peers := s.peers ++ [s.createIncomingPeer address ip port starts]
                 nextPeerLogId := s.nextPeerLogId + 1 } := by
  unfold addIncomingPeer
  by_cases unknown : address = []
  · exact .inl (by rw [if_pos unknown])
  · rw [if_neg unknown]
    cases verdict : PeerLimits.evaluatePendingAuthentication s.pendingGlobal (s.pendingForIp address) with
    | accepted => exact .inr ⟨(evaluate_accepted verdict).1, (evaluate_accepted verdict).2, rfl⟩
    | rejectedGlobalLimit | rejectedPerIpLimit => exact .inl rfl

theorem Counted.append (counted : Counted s) (named : p.logId = s.nextPeerLogId) (outside : p.isConnected = false)
    (pending : s.pendingGlobal + (if p.isIncomingAuthenticationPending then 1 else 0) ≤
      PeerLimits.maxPendingIncomingAuthentications)
    (outgoing : s.manager.outgoingCount + (if PeerManager.isOutgoing p.peer then 1 else 0) ≤
      PeerLimits.maxOutgoingPeers) :
    Counted { s with peers := s.peers ++ [p], nextPeerLogId := s.nextPeerLogId + 1 } := by
  have accounted := counted.accounted
  refine ⟨KeyedList.distinct_append counted.distinct counted.fresh named, KeyedList.below_append counted.fresh named,
    ?_, ?_, ?_, accounted.bounded, accounted.positive, accounted.first⟩
  · rw [pendingGlobal, List.countP_append, List.countP_singleton]
    exact pending
  · rw [outgoingCount_eq, List.countP_append, List.countP_singleton, ← outgoingCount_eq]
    exact outgoing
  · rw [List.countP_append, List.countP_singleton, outside]
    exact accounted.established

theorem Counted.accept {address ip : Bytes} {port : UInt16} {starts : Bool} (counted : Counted s) :
    Counted (s.addIncomingPeer address ip port starts).2 := by
  rcases addIncomingPeer_cases s address ip port starts with same | ⟨room, _, added⟩
  · rw [same]
    exact counted
  · rw [added]
    refine counted.append rfl (by cases starts <;> rfl) ?_ counted.accounted.outgoing
    split_ifs
    · exact room
    · exact room.le

theorem Counted.add {hostName ip : Bytes} {hostID : HostId} {port : UInt16} {starts : Bool} (counted : Counted s) :
    Counted (s.addPeer hostName hostID ip port starts).2 := by
  unfold Admissions.addPeer
  by_cases known : s.manager.peers.any (PeerManager.isOutgoingTo hostID) = true
  · simp only [PeerManager.addPeer, known, if_true]
    exact counted
  · by_cases room : s.manager.outgoingCount < PeerLimits.maxOutgoingPeers
    · simp only [PeerManager.addPeer, known, PeerLimits.canAddOutgoing, room]
      refine counted.append rfl (by cases starts <;> rfl) counted.accounted.pending room
    · simp only [PeerManager.addPeer, known, PeerLimits.canAddOutgoing, room]
      exact counted

theorem Counted.drop {selected : List Nat} {removing : Option (Removal × List Nat)} (counted : Counted s)
    (joined : s.peers.all (fun p => p.logId ∉ selected || p.phase = .exited) = true) :
    Counted { s with peers := s.peers.filter (fun p => p.logId ∉ selected), removing := removing } := by
  have accounted := counted.accounted
  have fewer : ∀ q : AdmittedPeer → Bool, (s.peers.filter (fun p => p.logId ∉ selected)).countP q ≤ s.peers.countP q :=
    fun q => List.filter_sublist.countP_le
  refine ⟨?_, fun p member => counted.fresh p (List.mem_filter.mp member).1, ?_, ?_, ?_, accounted.bounded,
    accounted.positive, accounted.first⟩
  · exact (List.filter_sublist.map _).nodup counted.distinct
  · exact (fewer _).trans accounted.pending
  · rw [outgoingCount_eq]
    exact (fewer _).trans ((outgoingCount_eq s).symm.le.trans accounted.outgoing)
  · rw [List.countP_filter, accounted.established]
    apply List.countP_congr
    intro p member
    have ended := List.all_eq_true.mp joined p member
    simp only [AdmittedPeer.isConnected, Bool.or_eq_true, Bool.and_eq_true, decide_eq_true_eq] at ended ⊢
    refine ⟨fun connected => ⟨connected, ended.resolve_right fun exited => ?_⟩, And.left⟩
    cases connected.symm.trans exited

theorem Counted.holding (counted : Counted s) (removing : Option (Removal × List Nat)) :
    Counted { s with removing := removing } :=
  have accounted := counted.accounted
  ⟨counted.distinct, counted.fresh, accounted.pending, accounted.outgoing, accounted.established, accounted.bounded,
    accounted.positive, accounted.first⟩

theorem Counted.step (counted : Counted s) (taken : s.step event = some next) : Counted next := by
  cases step_admits taken with
  | accept address ip port starts => exact counted.accept
  | add hostName hostID ip port starts => exact counted.add
  | handshake logId succeeds waits => exact counted.handshake waits
  | establish logId waits => exact counted.establish waits
  | leave logId waits => exact counted.leave waits
  | close logId => exact counted.close
  | hold removing => exact counted.holding removing
  | unlock selected joined => exact counted.drop joined

theorem run_counted {ok : Admissions → AdmissionEvent → Prop} {events : List AdmissionEvent}
    (path : Path step ok boot events s) : Counted s :=
  path.invariant Counted (fun _ _ _ counted _ taken => counted.step taken) counted_boot

/-- The address a peer was admitted under is the one its object has, and its share of the pending is bounded. -/
structure Located (s : Admissions) : Prop where
  located : ∀ p ∈ s.peers, p.isIncomingAuthenticationPending = true → p.peer.ip = p.address
  bounded : ∀ address, pendingFrom s address ≤ PeerLimits.maxPendingIncomingAuthenticationsPerIp

theorem located_boot : Located boot := ⟨nofun, fun _ => Nat.zero_le _⟩

theorem Located.modify {logId : Nat} (located : Located s) (keeps : Keeps f) : Located (s.modify logId f) := by
  refine ⟨fun q inside pending => ?_, fun address => ?_⟩
  · obtain ⟨q, before, rfl⟩ := KeyedList.mem_modify.mp inside
    split_ifs at pending ⊢
    · exact (keeps.ip q).trans ((located.located q before (keeps.isPending pending)).trans (keeps.address q).symm)
    · exact located.located q before pending
  · refine (KeyedList.countP_modify_le _ (fun q _ _ counts => ?_)).trans (located.bounded address)
    rw [Bool.and_eq_true, decide_eq_true_eq] at counts ⊢
    exact ⟨keeps.isPending counts.1, (keeps.address q).symm.trans counts.2⟩

theorem Located.append {ids : Nat} (located : Located s)
    (here : p.isIncomingAuthenticationPending = true → p.peer.ip = p.address)
    (room : p.isIncomingAuthenticationPending = true →
      s.pendingForIp p.address < PeerLimits.maxPendingIncomingAuthenticationsPerIp) :
    Located { s with peers := s.peers ++ [p], nextPeerLogId := ids } := by
  refine ⟨fun q member pending => ?_, fun address => ?_⟩
  · rcases List.mem_append.mp member with before | last
    · exact located.located q before pending
    · rw [List.mem_singleton.mp last] at pending ⊢
      exact here pending
  · rw [pendingFrom, List.countP_append, List.countP_singleton]
    split_ifs with counts
    · obtain ⟨pending, same⟩ := Bool.and_eq_true_iff.mp counts
      -- What the manager counts by the recorded address are the pending peers of the address.
      have share : pendingFrom s address = s.pendingForIp p.address := by
        rw [← of_decide_eq_true same]
        apply List.countP_congr
        intro q member
        simp only [Bool.and_eq_true, decide_eq_true_eq]
        apply and_congr_right
        intro waits
        rw [located.located q member waits]
      have free := room pending
      rw [← share] at free
      exact free
    · exact located.bounded address

theorem Located.accept {address : Bytes} {port : UInt16} {starts : Bool} (located : Located s) :
    Located (s.addIncomingPeer address address port starts).2 := by
  rcases addIncomingPeer_cases s address address port starts with same | ⟨_, room, added⟩
  · rw [same]
    exact located
  · rw [added]
    exact located.append (fun _ => rfl) (fun _ => room)

theorem Located.add {hostName ip : Bytes} {hostID : HostId} {port : UInt16} {starts : Bool} (located : Located s) :
    Located (s.addPeer hostName hostID ip port starts).2 := by
  unfold Admissions.addPeer
  split
  · exact located.append nofun nofun
  · exact located

theorem Located.drop {selected : List Nat} {removing : Option (Removal × List Nat)} (located : Located s) :
    Located { s with peers := s.peers.filter (fun p => p.logId ∉ selected), removing := removing } :=
  ⟨fun p member => located.located p (List.mem_filter.mp member).1,
    fun address => List.filter_sublist.countP_le.trans (located.bounded address)⟩

theorem Located.step (located : Located s) (fits : AddressKept s event) (taken : s.step event = some next) :
    Located next := by
  cases step_admits taken with
  | accept address ip port starts =>
    have kept : ip = address := fits
    subst kept
    exact located.accept
  | add hostName hostID ip port starts => exact located.add
  | handshake logId succeeds waits =>
    cases succeeds with
    | true => exact located.modify keeps_verify
    | false => exact located.modify (keeps_goTo .closing)
  | establish logId waits => exact Located.modify ⟨located.located, located.bounded⟩ (keeps_goTo _)
  | leave logId waits => exact Located.modify ⟨located.located, located.bounded⟩ (keeps_goTo _)
  | close logId => exact located.modify keeps_close
  | hold removing => exact ⟨located.located, located.bounded⟩
  | unlock selected joined => exact located.drop

theorem run_located {events : List AdmissionEvent} (path : Path step AddressKept boot events s) : Located s :=
  path.invariant Located (fun _ _ _ located fits taken => located.step fits taken) located_boot

/-- In every run the counts are right, and the pending peers of one address are bounded in every run that reads
    the address of each socket the same twice. -/
theorem admission_accounting (events : List AdmissionEvent) (s : Admissions)
    (path : Path step (fun _ _ => True) boot events s) :
    Accounted s ∧ (Path step AddressKept boot events s →
      ∀ address, pendingFrom s address ≤ PeerLimits.maxPendingIncomingAuthenticationsPerIp) :=
  ⟨(run_counted path).accounted, fun kept => (run_located kept).bounded⟩

namespace OneAddress

def laptopIp : Bytes := [0x31]

def accept (ip : Bytes) : AdmissionEvent := .accept laptopIp ip 1 true

def servedOnce : List AdmissionEvent :=
  [accept laptopIp, .handshake 1 true, .establish 1, .leave 1, .close 1, .close 1,
   .lock .cull, .select 1 false, .unlock]

/-- The first connection is reset between the two reads of its address, and eight more come. -/
def resetOnce : List AdmissionEvent := accept [] :: List.replicate 8 (accept laptopIp)

end OneAddress

open OneAddress in
theorem served_connection_accounted : Accounted (lastOf step boot servedOnce) ∧
    ∀ address, pendingFrom (lastOf step boot servedOnce) address ≤
      PeerLimits.maxPendingIncomingAuthenticationsPerIp := by
  have run : Path step (fun _ _ => True) boot servedOnce (lastOf step boot servedOnce) :=
    path_to_lastOf (fun _ _ _ => trivial) (by decide +kernel)
  have accounting := admission_accounting servedOnce _ run
  exact ⟨accounting.1, accounting.2 (fitting_to_lastOf (by decide +kernel))⟩

open OneAddress in
theorem reset_connection_uncounted : ¬ ∀ events s, Path step (fun _ _ => True) boot events s →
    Accounted s ∧ ∀ address, pendingFrom s address ≤ PeerLimits.maxPendingIncomingAuthenticationsPerIp := by
  intro always
  have run : Path step (fun _ _ => True) boot resetOnce (lastOf step boot resetOnce) :=
    path_to_lastOf (fun _ _ _ => trivial) (by decide +kernel)
  have nine : pendingFrom (lastOf step boot resetOnce) laptopIp = 9 := by decide +kernel
  have eight := (always resetOnce _ run).2 laptopIp
  rw [nine] at eight
  exact absurd eight (by decide)

end ClippProof.Peers
