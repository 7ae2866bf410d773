import Clipp.Peers.Admission
import Clipp.Peers.PeerDisplay

open Foundation

namespace ClippModel.Peers

open ClippModel.Registers ClippModel.Peers.PeerDisplay
open ClippModel.Gateway (PeerConnState)

/-- `notified` and `withdrawn` record that the display has been told of the peer, and that it has been told of its
    end: the program keeps neither. -/
structure DisplayedPeer where
  admitted : AdmittedPeer
  osType : UInt16
  createdAt : Int
  notified : Bool
  withdrawn : Bool

/-- `removing` is the call that holds the lock to remove peers, with those it still has to look at. -/
structure DisplayedPeers where
  peers : List DisplayedPeer
  nextPeerLogId : Nat
  establishedIncomingCount : Nat
  removing : Option (Removal × List Nat)
  display : List PeerDisplayEntry

/-- `establish` has what the handshake told of the other host, and `rename` the name it goes by since. `visit` is one
    turn of the loop of a removal. -/
inductive DisplayEvent where
  | accept (address ip : Bytes) (port : UInt16) (starts : Bool) (createdAt : Int)
  | add (hostName : Bytes) (hostID : HostId) (ip : Bytes) (port : UInt16) (starts : Bool) (createdAt : Int)
  | handshake (logId : Nat) (succeeds : Bool)
  | establish (logId : Nat) (hostName : Bytes) (hostID : HostId) (osType : UInt16)
  | notify (logId : Nat)
  | rename (logId : Nat) (hostName : Bytes)
  | connState (logId : Nat) (state : PeerConnState)
  | bytes (logId : Nat) (bytesSent bytesReceived : UInt64)
  | leave (logId : Nat)
  | close (logId : Nat)
  | lock (removal : Removal)
  | visit (silent : Bool)
  | unlock

namespace DisplayedPeer

def logId (p : DisplayedPeer) : Nat := p.admitted.logId

def hostName (p : DisplayedPeer) : Bytes := p.admitted.peer.hostName

def hostID (p : DisplayedPeer) : HostId := p.admitted.peer.hostID

def connType (p : DisplayedPeer) : ConnType := p.admitted.peer.connType

def phase (p : DisplayedPeer) : PeerPhase := p.admitted.phase

def advance (f : AdmittedPeer → AdmittedPeer) (p : DisplayedPeer) : DisplayedPeer := { p with admitted := f p.admitted }

/-- An established peer is told apart by its host. -/
def identify (hostName : Bytes) (hostID : HostId) (osType : UInt16) (p : DisplayedPeer) : DisplayedPeer :=
  { p with admitted := { p.admitted with peer := { p.admitted.peer with hostName := hostName, hostID := hostID }
                                         phase := .connected }
           osType := osType }

def rename (hostName : Bytes) (p : DisplayedPeer) : DisplayedPeer :=
  { p with admitted := { p.admitted with peer := { p.admitted.peer with hostName := hostName } } }

def announce (p : DisplayedPeer) : DisplayedPeer := { p with notified := true }

def withdraw (p : DisplayedPeer) : DisplayedPeer := { p with withdrawn := true }

def isDisplayed (hostID : HostId) (connType : ConnType) (p : DisplayedPeer) : Bool :=
  p.notified && !p.withdrawn && p.hostID = hostID && p.connType = connType

end DisplayedPeer

namespace DisplayedPeers

def boot : DisplayedPeers where
  peers := []
  nextPeerLogId := 1
  establishedIncomingCount := 0
  removing := none
  display := []

def admissions (s : DisplayedPeers) : Admissions where
  peers := s.peers.map (·.admitted)
  nextPeerLogId := s.nextPeerLogId
  establishedIncomingCount := s.establishedIncomingCount
  removing := none
  calls := []

def tally (s : DisplayedPeers) (hostID : HostId) (connType : ConnType) : Nat :=
  s.peers.countP (·.isDisplayed hostID connType)

def find (s : DisplayedPeers) (logId : Nat) : Option DisplayedPeer := s.peers.find? (fun p => p.logId = logId)

def modify (s : DisplayedPeers) (logId : Nat) (f : DisplayedPeer → DisplayedPeer) : DisplayedPeers :=
  { s with peers := KeyedList.modify DisplayedPeer.logId logId f s.peers }

def createIncomingPeer (s : DisplayedPeers) (address ip : Bytes) (port : UInt16) (starts : Bool) (createdAt : Int) :
    DisplayedPeer where
  admitted := s.admissions.createIncomingPeer address ip port starts
  osType := 0
  createdAt := createdAt
  notified := false
  withdrawn := false

def createOutgoingPeer (s : DisplayedPeers) (hostName : Bytes) (hostID : HostId) (ip : Bytes) (port : UInt16)
    (starts : Bool) (createdAt : Int) : DisplayedPeer where
  admitted :=
    { peer := s.admissions.manager.createPeer hostName hostID ip port starts, address := []
      incomingAuthenticationPending := false, phase := if starts then .sending else .exited }
  osType := 0
  createdAt := createdAt
  notified := true
  withdrawn := false

def append (s : DisplayedPeers) (p : DisplayedPeer) (display : List PeerDisplayEntry) : DisplayedPeers :=
  { s with peers := s.peers ++ [p], nextPeerLogId := s.nextPeerLogId + 1, display := display }

def addIncomingPeer (s : DisplayedPeers) (address ip : Bytes) (port : UInt16) (starts : Bool) (createdAt : Int) :
    DisplayedPeers :=
  match s.admissions.addIncomingPeer address ip port starts with
  | (.accepted, _) => s.append (s.createIncomingPeer address ip port starts createdAt) s.display
  | (_, _) => s

/-- The display is told before the thread of the new peer starts. -/
def addPeer (s : DisplayedPeers) (hostName : Bytes) (hostID : HostId) (ip : Bytes) (port : UInt16) (starts : Bool)
    (createdAt : Int) : DisplayedPeers :=
  match s.admissions.manager.addPeer hostName hostID ip port starts with
  | (.accepted, _) =>
    let peer := s.createOutgoingPeer hostName hostID ip port starts createdAt
    s.append peer (notifyPeer s.display peer.hostName peer.hostID peer.osType peer.connType peer.createdAt)
  | (_, _) => s

def establish (s : DisplayedPeers) (logId : Nat) (hostName : Bytes) (hostID : HostId) (osType : UInt16) :
    DisplayedPeers :=
  let (result, after) := s.admissions.tryEstablishIncomingPeer
  if result = .rejectedPeerLimit then s.modify logId (.advance (.goTo .refused))
  else { s.modify logId (.identify hostName hostID osType) with establishedIncomingCount := after }

def step (s : DisplayedPeers) : DisplayEvent → Option DisplayedPeers
  | .accept address ip port starts createdAt =>
    if s.removing = none then some (s.addIncomingPeer address ip port starts createdAt) else none
  | .add hostName hostID ip port starts createdAt =>
    if s.removing = none then some (s.addPeer hostName hostID ip port starts createdAt) else none
  | .handshake logId succeeds => do
    let p ← s.find logId
    if p.phase = .handshaking then
      some (s.modify logId (.advance (if succeeds then .verify else .goTo .closing)))
    else none
  | .establish logId hostName hostID osType => do
    let p ← s.find logId
    if p.phase = .verified then some (s.establish logId hostName hostID osType) else none
  | .notify logId => do
    let p ← s.find logId
    if p.phase = .connected ∧ p.notified = false then
      some { s.modify logId .announce with
        display := notifyPeer s.display p.hostName p.hostID p.osType p.connType p.createdAt }
    else none
  | .rename logId hostName => do
    let p ← s.find logId
    if p.phase = .sending then some (s.modify logId (.rename hostName)) else none
  | .connState logId state => do
    let p ← s.find logId
    if p.phase = .sending then some { s with display := notifyPeerConnState s.display p.hostName p.hostID state }
    else none
  | .bytes logId bytesSent bytesReceived => do
    let p ← s.find logId
    if p.phase = .sending ∨ p.phase = .connected ∧ p.notified = true then
      some { s with display := notifyPeerBytes s.display p.hostID bytesSent bytesReceived }
    else none
  | .leave logId => do
    let p ← s.find logId
    if p.phase = .connected ∧ p.notified = true then
      some { s.modify logId (.advance (.goTo .closing)) with
        establishedIncomingCount := s.admissions.onIncomingPeerLeft }
    else none
  | .close logId => do
    let p ← s.find logId
    some (s.modify p.logId (.advance .close))
  | .lock removal =>
    if s.removing = none then some { s with removing := some (removal, s.peers.map (·.logId)) } else none
  | .visit silent =>
    match s.removing with
    | some (removal, logId :: rest) => do
      let p ← s.find logId
      if removal.selectsPeer silent p.admitted.peer then
        -- The thread has ended by itself, or `Stop` has waited for its end.
        if p.phase = .exited then
          some { s.modify logId .withdraw with
            removing := some (removal, rest), display := notifyPeerRemoved s.display p.hostID p.connType }
        else none
      else some { s with removing := some (removal, rest) }
    | _ => none
  | .unlock =>
    match s.removing with
    | some (_, []) => some { s with peers := s.peers.filter (fun p => !p.withdrawn), removing := none }
    | _ => none

def withdrawing (s : DisplayedPeers) (silent : Bool) : Option DisplayedPeer :=
  match s.removing with
  | some (removal, logId :: _) => (s.find logId).filter (fun p => removal.selectsPeer silent p.admitted.peer)
  | _ => none

end DisplayedPeers

end ClippModel.Peers

namespace ClippProof.Peers

open ClippModel.Registers ClippModel.Peers ClippModel.Peers.DisplayedPeers
open ClippModel.Gateway (PeerConnState)

section Displayed

variable {s next : DisplayedPeers} {p : DisplayedPeer} {f : DisplayedPeer → DisplayedPeer} {event : DisplayEvent}
  {logId : Nat}

/-- The display shows the connections that are held, and no others. -/
def DisplayMatches (s : DisplayedPeers) : Prop := Displays s.tally s.display

/-- No incoming peer of the host with the id 0 is displayed when a peer that never was displayed is withdrawn. -/
def Unconfused (s : DisplayedPeers) : DisplayEvent → Prop
  | .visit silent => ∀ p ∈ s.withdrawing silent, p.notified = false → s.tally HostId.zero .incoming = 0
  | .accept _ _ _ _ _ | .add _ _ _ _ _ _ | .handshake _ _ | .establish _ _ _ _ | .notify _ | .rename _ _
  | .connState _ _ | .bytes _ _ _ | .leave _ | .close _ | .lock _ | .unlock => True

instance unconfusedDecidable (s : DisplayedPeers) : ∀ event, Decidable (Unconfused s event)
  | .visit silent =>
    inferInstanceAs (Decidable (∀ p ∈ s.withdrawing silent, p.notified = false → s.tally HostId.zero .incoming = 0))
  | .accept _ _ _ _ _ | .add _ _ _ _ _ _ | .handshake _ _ | .establish _ _ _ _ | .notify _ | .rename _ _
  | .connState _ _ | .bytes _ _ _ | .leave _ | .close _ | .lock _ | .unlock => isTrue trivial

structure Phased (p : DisplayedPeer) : Prop where
  sending : p.phase = .sending → p.notified = true
  arriving : p.phase = .handshaking ∨ p.phase = .verified → p.notified = false
  incoming : p.notified = false → p.connType = .incoming
  unnamed : p.notified = false → p.phase ≠ .connected → p.hostID = HostId.zero
  ended : p.withdrawn = true → p.phase = .exited

/-- A removal looks at every peer once, and those it has withdrawn lie behind it. -/
structure Tracked (s : DisplayedPeers) : Prop where
  distinct : (s.peers.map DisplayedPeer.logId).Nodup
  fresh : ∀ p ∈ s.peers, p.logId < s.nextPeerLogId
  phased : ∀ p ∈ s.peers, Phased p
  once : ∀ removal rest, s.removing = some (removal, rest) → rest.Nodup
  passed : ∀ p ∈ s.peers, p.withdrawn = true → ∃ removal rest, s.removing = some (removal, rest) ∧ p.logId ∉ rest

theorem find_peer {act : DisplayedPeer → Option DisplayedPeers} (taken : (s.find logId).bind act = some next) :
    ∃ p ∈ s.peers, p.logId = logId ∧ s.find logId = some p ∧ act p = some next := by
  obtain ⟨p, found, acted⟩ := Option.bind_eq_some_iff.mp taken
  exact ⟨p, List.mem_of_find?_eq_some found, by simpa using List.find?_some found, found, acted⟩

inductive DisplayMoves (s : DisplayedPeers) : DisplayEvent → DisplayedPeers → Prop where
  | accept (address ip : Bytes) (port : UInt16) (starts : Bool) (createdAt : Int) : s.removing = none →
    DisplayMoves s (.accept address ip port starts createdAt) (s.addIncomingPeer address ip port starts createdAt)
  | add (hostName : Bytes) (hostID : HostId) (ip : Bytes) (port : UInt16) (starts : Bool) (createdAt : Int) :
    s.removing = none →
    DisplayMoves s (.add hostName hostID ip port starts createdAt) (s.addPeer hostName hostID ip port starts createdAt)
  | handshake (p : DisplayedPeer) (succeeds : Bool) : p ∈ s.peers → p.phase = .handshaking →
    DisplayMoves s (.handshake p.logId succeeds)
      (s.modify p.logId (.advance (if succeeds then .verify else .goTo .closing)))
  | establish (p : DisplayedPeer) (hostName : Bytes) (hostID : HostId) (osType : UInt16) : p ∈ s.peers →
    p.phase = .verified →
    DisplayMoves s (.establish p.logId hostName hostID osType) (s.establish p.logId hostName hostID osType)
  | notify (p : DisplayedPeer) : p ∈ s.peers → p.phase = .connected → p.notified = false →
    DisplayMoves s (.notify p.logId)
      { s.modify p.logId .announce with
        display := PeerDisplay.notifyPeer s.display p.hostName p.hostID p.osType p.connType p.createdAt }
  | rename (p : DisplayedPeer) (hostName : Bytes) : p ∈ s.peers → p.phase = .sending →
    DisplayMoves s (.rename p.logId hostName) (s.modify p.logId (.rename hostName))
  | connState (p : DisplayedPeer) (state : PeerConnState) : p ∈ s.peers → p.phase = .sending →
    DisplayMoves s (.connState p.logId state)
      { s with display := PeerDisplay.notifyPeerConnState s.display p.hostName p.hostID state }
  | bytes (p : DisplayedPeer) (bytesSent bytesReceived : UInt64) :
    DisplayMoves s (.bytes p.logId bytesSent bytesReceived)
      { s with display := PeerDisplay.notifyPeerBytes s.display p.hostID bytesSent bytesReceived }
  | leave (p : DisplayedPeer) : p ∈ s.peers → p.phase = .connected → p.notified = true →
    DisplayMoves s (.leave p.logId)
      { s.modify p.logId (.advance (.goTo .closing)) with
        establishedIncomingCount := s.admissions.onIncomingPeerLeft }
  | close (p : DisplayedPeer) : p ∈ s.peers → DisplayMoves s (.close p.logId) (s.modify p.logId (.advance .close))
  | lock (removal : Removal) : s.removing = none →
    DisplayMoves s (.lock removal) { s with removing := some (removal, s.peers.map (·.logId)) }
  | skip (silent : Bool) (removal : Removal) (logId : Nat) (rest : List Nat) :
    s.removing = some (removal, logId :: rest) → s.withdrawing silent = none →
    DisplayMoves s (.visit silent) { s with removing := some (removal, rest) }
  | withdraw (silent : Bool) (p : DisplayedPeer) (removal : Removal) (rest : List Nat) :
    s.removing = some (removal, p.logId :: rest) → s.withdrawing silent = some p → p ∈ s.peers → p.phase = .exited →
    DisplayMoves s (.visit silent)
      { s.modify p.logId .withdraw with
        removing := some (removal, rest), display := PeerDisplay.notifyPeerRemoved s.display p.hostID p.connType }
  | unlock (removal : Removal) : s.removing = some (removal, []) →
    DisplayMoves s .unlock { s with peers := s.peers.filter (fun p => !p.withdrawn), removing := none }

theorem step_moves (taken : s.step event = some next) : DisplayMoves s event next := by
  cases event with
  | accept address ip port starts createdAt =>
    rw [DisplayedPeers.step] at taken
    split_ifs at taken with free
    exact Option.some.inj taken ▸ .accept address ip port starts createdAt free
  | add hostName hostID ip port starts createdAt =>
    rw [DisplayedPeers.step] at taken
    split_ifs at taken with free
    exact Option.some.inj taken ▸ .add hostName hostID ip port starts createdAt free
  | handshake logId succeeds =>
    obtain ⟨p, member, rfl, _, ran⟩ := find_peer taken
    by_cases waits : p.phase = .handshaking
    · rw [if_pos waits] at ran
      exact Option.some.inj ran ▸ .handshake p succeeds member waits
    · rw [if_neg waits] at ran
      cases ran
  | establish logId hostName hostID osType =>
    obtain ⟨p, member, rfl, _, ran⟩ := find_peer taken
    split_ifs at ran with waits
    exact Option.some.inj ran ▸ .establish p hostName hostID osType member waits
  | notify logId =>
    obtain ⟨p, member, rfl, _, ran⟩ := find_peer taken
    split_ifs at ran with waits
    exact Option.some.inj ran ▸ .notify p member waits.1 waits.2
  | rename logId hostName =>
    obtain ⟨p, member, rfl, _, ran⟩ := find_peer taken
    split_ifs at ran with sends
    exact Option.some.inj ran ▸ .rename p hostName member sends
  | connState logId state =>
    obtain ⟨p, member, rfl, _, ran⟩ := find_peer taken
    split_ifs at ran with sends
    exact Option.some.inj ran ▸ .connState p state member sends
  | bytes logId bytesSent bytesReceived =>
    obtain ⟨p, member, rfl, _, ran⟩ := find_peer taken
    split_ifs at ran with transfers
    exact Option.some.inj ran ▸ .bytes p bytesSent bytesReceived
  | leave logId =>
    obtain ⟨p, member, rfl, _, ran⟩ := find_peer taken
    split_ifs at ran with waits
    exact Option.some.inj ran ▸ .leave p member waits.1 waits.2
  | close logId =>
    obtain ⟨p, member, rfl, _, ran⟩ := find_peer taken
    exact Option.some.inj ran ▸ .close p member
  | lock removal =>
    rw [DisplayedPeers.step] at taken
    split_ifs at taken with free
    exact Option.some.inj taken ▸ .lock removal free
  | visit silent =>
    rw [DisplayedPeers.step] at taken
    split at taken
    · rename_i removal logId rest looking
      obtain ⟨p, member, rfl, found, ran⟩ := find_peer taken
      have verdict : s.withdrawing silent =
          (some p).filter (fun p => removal.selectsPeer silent p.admitted.peer) := by
        rw [withdrawing, looking]
        dsimp only
        rw [found]
      split_ifs at ran with selected ended
      · have told : s.withdrawing silent = some p := verdict.trans (Option.filter_some_pos selected)
        exact Option.some.inj ran ▸ .withdraw silent p removal rest looking told member ended
      · have kept := Bool.eq_false_iff.mpr selected
        have quiet : s.withdrawing silent = none := verdict.trans (Option.filter_some_neg kept)
        exact Option.some.inj ran ▸ .skip silent removal p.logId rest looking quiet
    · cases taken
  | unlock =>
    rw [DisplayedPeers.step] at taken
    split at taken
    · rename_i removal looking
      exact Option.some.inj taken ▸ .unlock removal looking
    · cases taken

theorem Phased.advance {f : AdmittedPeer → AdmittedPeer} (phased : Phased p)
    (connType : (f p.admitted).peer.connType = p.connType) (hostID : (f p.admitted).peer.hostID = p.hostID)
    (sending : (f p.admitted).phase = .sending → p.phase = .sending)
    (arriving : (f p.admitted).phase = .handshaking ∨ (f p.admitted).phase = .verified →
      p.phase = .handshaking ∨ p.phase = .verified)
    (unnamed : p.notified = false → p.phase = .connected → (f p.admitted).phase = .connected)
    (ended : p.phase = .exited → (f p.admitted).phase = .exited) : Phased (p.advance f) where
  sending := fun here => phased.sending (sending here)
  arriving := fun here => phased.arriving (arriving here)
  incoming := fun quiet => connType.trans (phased.incoming quiet)
  unnamed := fun quiet apart => hostID.trans (phased.unnamed quiet (mt (unnamed quiet) apart))
  ended := fun withdrawn => ended (phased.ended withdrawn)

theorem Phased.goTo {before phase : PeerPhase} (phased : Phased p) (here : p.phase = before)
    (live : before ≠ .exited) (later : phase ≠ .sending ∧ phase ≠ .handshaking ∧ phase ≠ .verified)
    (told : before ≠ .connected ∨ p.notified = true) : Phased (p.advance (.goTo phase)) := by
  subst here
  apply phased.advance rfl rfl
  · exact fun sends => absurd sends later.1
  · exact fun arrives => absurd arrives (not_or.mpr later.2)
  · intro quiet connected
    rcases told with apart | told
    · exact absurd connected apart
    · cases quiet.symm.trans told
  · exact fun exited => absurd exited live

theorem Phased.verify (phased : Phased p) (waits : p.phase = .handshaking) : Phased (p.advance .verify) := by
  apply phased.advance rfl rfl
  · exact fun here => by cases here
  · exact fun _ => .inl waits
  · exact fun _ here => by cases waits.symm.trans here
  · exact fun here => by cases waits.symm.trans here

theorem close_hostID (a : AdmittedPeer) : a.close.peer.hostID = a.peer.hostID := by
  unfold AdmittedPeer.close
  cases a.phase <;> rfl

theorem Phased.close (phased : Phased p) : Phased (p.advance .close) := by
  have phases : ∀ a : AdmittedPeer, a.close.phase = a.phase ∧ a.phase ≠ .sending ∨
      a.phase ≠ .connected ∧ (a.close.phase = .stopping ∧ a.phase ≠ .exited ∨ a.close.phase = .exited) := by
    intro a
    unfold AdmittedPeer.close
    cases here : a.phase <;> simp [here]
  apply phased.advance (keeps_close.connType _) (close_hostID _)
  all_goals
    have moved := phases p.admitted
    simp only [DisplayedPeer.phase]
    grind

theorem Phased.live {before : PeerPhase} (phased : Phased p) (here : p.phase = before) (live : before ≠ .exited) :
    p.withdrawn = false := by
  subst here
  exact Bool.eq_false_iff.mpr (mt phased.ended live)

theorem Phased.identify {hostName : Bytes} {hostID : HostId} {osType : UInt16} (phased : Phased p)
    (waits : p.phase = .verified) : Phased (p.identify hostName hostID osType) where
  sending := fun here => by cases here
  arriving := fun here => by rcases here with here | here <;> cases here
  incoming := phased.incoming
  unnamed := fun _ apart => absurd rfl apart
  ended := fun withdrawn => by cases waits.symm.trans (phased.ended withdrawn)

theorem Phased.announce (phased : Phased p) (waits : p.phase = .connected) : Phased p.announce where
  sending := fun _ => rfl
  arriving := fun here => by rcases here with here | here <;> cases waits.symm.trans here
  incoming := fun quiet => by cases quiet
  unnamed := fun quiet => by cases quiet
  ended := phased.ended

theorem Phased.rename {hostName : Bytes} (phased : Phased p) : Phased (p.rename hostName) :=
  ⟨phased.sending, phased.arriving, phased.incoming, phased.unnamed, phased.ended⟩

theorem Phased.withdraw (phased : Phased p) (ended : p.phase = .exited) : Phased p.withdraw :=
  ⟨phased.sending, phased.arriving, phased.incoming, phased.unnamed, fun _ => ended⟩

theorem mem_modify_peer {q : DisplayedPeer} (tracked : Tracked s) (member : p ∈ s.peers)
    (inside : q ∈ (s.modify p.logId f).peers) : q = f p ∨ q ∈ s.peers ∧ q.logId ≠ p.logId := by
  obtain ⟨before, here, rfl⟩ := KeyedList.mem_modify.mp inside
  split_ifs with same
  · rw [List.inj_on_of_nodup_map tracked.distinct here member same]
    exact .inl rfl
  · exact .inr ⟨here, same⟩

theorem Tracked.modify {count : Nat} {display : List PeerDisplayEntry} (tracked : Tracked s) (member : p ∈ s.peers)
    (keeps : ∀ q, (f q).logId = q.logId) (phased : Phased (f p)) (withdrawn : (f p).withdrawn = p.withdrawn) :
    Tracked { s.modify p.logId f with establishedIncomingCount := count, display := display } where
  distinct := (KeyedList.keys_modify (fun q here => (keeps q).trans here)).symm ▸ tracked.distinct
  fresh := by
    intro q inside
    rcases mem_modify_peer tracked member inside with rfl | ⟨before, _⟩
    · exact (keeps p).symm ▸ tracked.fresh p member
    · exact tracked.fresh q before
  phased := by
    intro q inside
    rcases mem_modify_peer tracked member inside with rfl | ⟨before, _⟩
    · exact phased
    · exact tracked.phased q before
  once := tracked.once
  passed := by
    intro q inside gone
    rcases mem_modify_peer tracked member inside with rfl | ⟨before, _⟩
    · rw [keeps p]
      exact tracked.passed p member (withdrawn.symm.trans gone)
    · exact tracked.passed q before gone

theorem Tracked.append {display : List PeerDisplayEntry} (tracked : Tracked s)
    (named : p.logId = s.nextPeerLogId) (phased : Phased p) (kept : p.withdrawn = false) :
    Tracked (s.append p display) where
  distinct := KeyedList.distinct_append tracked.distinct tracked.fresh named
  fresh := KeyedList.below_append tracked.fresh named
  phased := by
    intro q inside
    rcases List.mem_append.mp inside with before | last
    · exact tracked.phased q before
    · rw [List.mem_singleton.mp last]
      exact phased
  once := tracked.once
  passed := by
    intro q inside gone
    rcases List.mem_append.mp inside with before | last
    · exact tracked.passed q before gone
    · rw [List.mem_singleton.mp last, kept] at gone
      cases gone

theorem Tracked.withdraw {removal : Removal} {rest : List Nat} {display : List PeerDisplayEntry} (tracked : Tracked s)
    (looking : s.removing = some (removal, p.logId :: rest)) (member : p ∈ s.peers) (ended : p.phase = .exited) :
    Tracked { s.modify p.logId .withdraw with removing := some (removal, rest), display := display } where
  distinct := by
    have keys : (s.modify p.logId .withdraw).peers.map DisplayedPeer.logId = s.peers.map DisplayedPeer.logId :=
      KeyedList.keys_modify (fun _ here => here)
    exact keys.symm ▸ tracked.distinct
  fresh := by
    intro q inside
    rcases mem_modify_peer tracked member inside with rfl | ⟨before, _⟩
    · exact tracked.fresh p member
    · exact tracked.fresh q before
  phased := by
    intro q inside
    rcases mem_modify_peer tracked member inside with rfl | ⟨before, _⟩
    · exact (tracked.phased p member).withdraw ended
    · exact tracked.phased q before
  once := by
    intro _ _ same
    cases same
    exact (List.nodup_cons.mp (tracked.once _ _ looking)).2
  passed := by
    intro q inside gone
    refine ⟨removal, rest, rfl, ?_⟩
    rcases mem_modify_peer tracked member inside with rfl | ⟨before, _⟩
    · exact (List.nodup_cons.mp (tracked.once _ _ looking)).1
    · obtain ⟨_, _, same, behind⟩ := tracked.passed q before gone
      rw [looking] at same
      cases same
      exact fun ahead => behind (List.mem_cons_of_mem _ ahead)

theorem addIncomingPeer_displayed (s : DisplayedPeers) (address ip : Bytes) (port : UInt16) (starts : Bool)
    (createdAt : Int) : s.addIncomingPeer address ip port starts createdAt = s ∨
      s.addIncomingPeer address ip port starts createdAt =
        s.append (s.createIncomingPeer address ip port starts createdAt) s.display := by
  unfold DisplayedPeers.addIncomingPeer
  split
  · exact .inr rfl
  · exact .inl rfl

theorem addPeer_displayed (s : DisplayedPeers) (hostName : Bytes) (hostID : HostId) (ip : Bytes) (port : UInt16)
    (starts : Bool) (createdAt : Int) : s.addPeer hostName hostID ip port starts createdAt = s ∨
      s.addPeer hostName hostID ip port starts createdAt =
        s.append (s.createOutgoingPeer hostName hostID ip port starts createdAt)
          (PeerDisplay.notifyPeer s.display hostName hostID 0 .outgoing createdAt) := by
  unfold DisplayedPeers.addPeer
  split
  · exact .inr rfl
  · exact .inl rfl

theorem establish_displayed (s : DisplayedPeers) (logId : Nat) (hostName : Bytes) (hostID : HostId) (osType : UInt16) :
    s.establish logId hostName hostID osType = s.modify logId (.advance (.goTo .refused)) ∨
      s.establish logId hostName hostID osType =
        { s.modify logId (.identify hostName hostID osType) with
          establishedIncomingCount := s.admissions.tryEstablishIncomingPeer.2 } := by
  unfold DisplayedPeers.establish
  dsimp only
  split_ifs
  · exact .inl rfl
  · exact .inr rfl

theorem phased_incoming {address ip : Bytes} {port : UInt16} {starts : Bool} {createdAt : Int} :
    Phased (s.createIncomingPeer address ip port starts createdAt) where
  sending := fun here => by cases starts <;> cases here
  arriving := fun _ => rfl
  incoming := fun _ => rfl
  unnamed := fun _ _ => rfl
  ended := fun gone => by cases gone

theorem phased_outgoing {hostName : Bytes} {hostID : HostId} {ip : Bytes} {port : UInt16} {starts : Bool}
    {createdAt : Int} : Phased (s.createOutgoingPeer hostName hostID ip port starts createdAt) where
  sending := fun _ => rfl
  arriving := fun here => by cases starts <;> rcases here with here | here <;> cases here
  incoming := fun quiet => by cases quiet
  unnamed := fun quiet => by cases quiet
  ended := fun gone => by cases gone

theorem Tracked.redraw {display : List PeerDisplayEntry} (tracked : Tracked s) :
    Tracked { s with display := display } :=
  ⟨tracked.distinct, tracked.fresh, tracked.phased, tracked.once, tracked.passed⟩

theorem Tracked.step (tracked : Tracked s) (taken : s.step event = some next) : Tracked next := by
  cases step_moves taken with
  | accept address ip port starts createdAt free =>
    rcases addIncomingPeer_displayed s address ip port starts createdAt with same | added
    · exact same.symm ▸ tracked
    · exact added.symm ▸ tracked.append rfl phased_incoming rfl
  | add hostName hostID ip port starts createdAt free =>
    rcases addPeer_displayed s hostName hostID ip port starts createdAt with same | added
    · exact same.symm ▸ tracked
    · exact added.symm ▸ tracked.append rfl phased_outgoing rfl
  | handshake p succeeds member waits =>
    have phased := tracked.phased p member
    cases succeeds with
    | true => exact tracked.modify member (fun _ => rfl) (phased.verify waits) rfl
    | false =>
      have closing : Phased (p.advance (.goTo .closing)) :=
        phased.goTo waits (by decide) (by decide) (.inl (by decide))
      exact tracked.modify member (fun _ => rfl) closing rfl
  | establish p hostName hostID osType member waits =>
    have phased := tracked.phased p member
    rcases establish_displayed s p.logId hostName hostID osType with refused | accepted
    · rw [refused]
      have refusal : Phased (p.advance (.goTo .refused)) :=
        phased.goTo waits (by decide) (by decide) (.inl (by decide))
      exact tracked.modify member (fun _ => rfl) refusal rfl
    · rw [accepted]
      exact tracked.modify member (fun _ => rfl) (phased.identify waits) rfl
  | notify p member waits quiet =>
    exact tracked.modify member (fun _ => rfl) ((tracked.phased p member).announce waits) rfl
  | rename p hostName member sends =>
    exact tracked.modify member (fun _ => rfl) (tracked.phased p member).rename rfl
  | connState p state member sends => exact tracked.redraw
  | bytes p bytesSent bytesReceived => exact tracked.redraw
  | leave p member waits told =>
    have closing : Phased (p.advance (.goTo .closing)) :=
      (tracked.phased p member).goTo waits (by decide) (by decide) (.inr told)
    exact tracked.modify member (fun _ => rfl) closing rfl
  | close p member =>
    exact tracked.modify member (fun q => keeps_close.logId q.admitted) (tracked.phased p member).close rfl
  | lock removal free =>
    refine ⟨tracked.distinct, tracked.fresh, tracked.phased, ?_, ?_⟩
    · intro _ _ same
      cases same
      exact tracked.distinct
    · intro q inside gone
      obtain ⟨_, _, busy, _⟩ := tracked.passed q inside gone
      cases free.symm.trans busy
  | skip silent removal logId rest looking quiet =>
    refine ⟨tracked.distinct, tracked.fresh, tracked.phased, ?_, ?_⟩
    · intro _ _ same
      cases same
      exact (List.nodup_cons.mp (tracked.once _ _ looking)).2
    · intro q inside gone
      obtain ⟨_, _, busy, behind⟩ := tracked.passed q inside gone
      cases looking.symm.trans busy
      exact ⟨removal, rest, rfl, fun ahead => behind (List.mem_cons_of_mem _ ahead)⟩
  | withdraw silent p removal rest looking told member ended => exact tracked.withdraw looking member ended
  | unlock removal looking =>
    refine ⟨?_, ?_, ?_, ?_, ?_⟩
    · exact (List.filter_sublist.map _).nodup tracked.distinct
    · exact fun q inside => tracked.fresh q (List.mem_filter.mp inside).1
    · exact fun q inside => tracked.phased q (List.mem_filter.mp inside).1
    · intro _ _ same
      cases same
    · intro q inside gone
      have kept := (List.mem_filter.mp inside).2
      rw [gone] at kept
      cases kept

theorem tracked_boot : Tracked boot where
  distinct := List.nodup_nil
  fresh := fun _ member => absurd member List.not_mem_nil
  phased := fun _ member => absurd member List.not_mem_nil
  once := fun _ _ looking => by cases looking
  passed := fun _ member => absurd member List.not_mem_nil

theorem isDisplayed_iff {hostID : HostId} {connType : ConnType} : p.isDisplayed hostID connType = true ↔
    p.notified = true ∧ p.withdrawn = false ∧ p.hostID = hostID ∧ p.connType = connType := by
  simp [DisplayedPeer.isDisplayed, and_assoc]

theorem hidden {hostID : HostId} {connType : ConnType} (quiet : p.notified = false) :
    p.isDisplayed hostID connType = false := by
  simp [DisplayedPeer.isDisplayed, quiet]

theorem tally_modify (tracked : Tracked s) (member : p ∈ s.peers) (hostID : HostId) (connType : ConnType) :
    (s.modify p.logId f).tally hostID connType + (if p.isDisplayed hostID connType then 1 else 0) =
      s.tally hostID connType + (if (f p).isDisplayed hostID connType then 1 else 0) :=
  KeyedList.countP_modify tracked.distinct member _

theorem tally_same (tracked : Tracked s) (member : p ∈ s.peers)
    (same : ∀ hostID connType, (f p).isDisplayed hostID connType = p.isDisplayed hostID connType) :
    (s.modify p.logId f).tally = s.tally := by
  funext hostID connType
  have counts := tally_modify (f := f) tracked member hostID connType
  rw [same hostID connType] at counts
  omega

theorem tally_announce (tracked : Tracked s) (member : p ∈ s.peers) (quiet : p.notified = false)
    (kept : p.withdrawn = false) :
    (s.modify p.logId .announce).tally = raise s.tally p.hostID p.connType := by
  funext hostID connType
  have counts := tally_modify (f := .announce) tracked member hostID connType
  have shown : p.announce.isDisplayed hostID connType = true ↔ hostID = p.hostID ∧ connType = p.connType := by
    rw [isDisplayed_iff]
    simp [DisplayedPeer.announce, kept, DisplayedPeer.hostID, DisplayedPeer.connType, eq_comm]
  rw [hidden quiet] at counts
  simp only [shown] at counts
  exact counts

theorem tally_withdraw (tracked : Tracked s) (member : p ∈ s.peers) (told : p.notified = true)
    (kept : p.withdrawn = false) :
    (s.modify p.logId .withdraw).tally = lower s.tally p.hostID p.connType := by
  funext hostID connType
  have counts := tally_modify (f := .withdraw) tracked member hostID connType
  have gone : p.withdraw.isDisplayed hostID connType = false := by
    simp [DisplayedPeer.isDisplayed, DisplayedPeer.withdraw]
  have shown : p.isDisplayed hostID connType = true ↔ hostID = p.hostID ∧ connType = p.connType := by
    rw [isDisplayed_iff]
    simp [told, kept, eq_comm]
  rw [gone] at counts
  simp only [shown, Bool.false_eq_true, if_false] at counts
  rw [lower]
  omega

theorem tally_append {display : List PeerDisplayEntry} (hostID : HostId) (connType : ConnType) :
    (s.append p display).tally hostID connType =
      s.tally hostID connType + if p.isDisplayed hostID connType then 1 else 0 := by
  simp [DisplayedPeers.tally, DisplayedPeers.append, List.countP_append, List.countP_singleton]

theorem matches_of {tally : HostId → ConnType → Nat} (tallied : s.tally = tally) (displays : Displays tally s.display) :
    DisplayMatches s := by
  rw [DisplayMatches, tallied]
  exact displays

theorem DisplayMatches.modify {count : Nat} (matched : DisplayMatches s) (tracked : Tracked s) (member : p ∈ s.peers)
    (same : ∀ hostID connType, (f p).isDisplayed hostID connType = p.isDisplayed hostID connType) :
    DisplayMatches { s.modify p.logId f with establishedIncomingCount := count } :=
  matches_of (tally_same tracked member same) matched

theorem DisplayMatches.accept {address ip : Bytes} {port : UInt16} {starts : Bool} {createdAt : Int}
    (matched : DisplayMatches s) : DisplayMatches (s.addIncomingPeer address ip port starts createdAt) := by
  rcases addIncomingPeer_displayed s address ip port starts createdAt with same | added
  · exact same.symm ▸ matched
  · have tallied : (s.append (s.createIncomingPeer address ip port starts createdAt) s.display).tally = s.tally := by
      funext hostID connType
      rw [tally_append, hidden rfl]
      rfl
    rw [added]
    exact matches_of tallied matched

theorem DisplayMatches.add {hostName : Bytes} {hostID : HostId} {ip : Bytes} {port : UInt16} {starts : Bool}
    {createdAt : Int} (matched : DisplayMatches s) :
    DisplayMatches (s.addPeer hostName hostID ip port starts createdAt) := by
  rcases addPeer_displayed s hostName hostID ip port starts createdAt with same | added
  · exact same.symm ▸ matched
  · have tallied : ∀ display, (s.append (s.createOutgoingPeer hostName hostID ip port starts createdAt)
        display).tally = raise s.tally hostID .outgoing := by
      intro display
      funext other connType
      rw [tally_append, raise]
      congr 2
      rw [eq_iff_iff, isDisplayed_iff]
      constructor
      · rintro ⟨_, _, rfl, rfl⟩
        exact ⟨rfl, rfl⟩
      · rintro ⟨rfl, rfl⟩
        exact ⟨rfl, rfl, rfl, rfl⟩
    rw [added]
    exact matches_of (tallied _) (Displays.notifyPeer matched)

theorem DisplayMatches.connState {state : PeerConnState} (matched : DisplayMatches s) (member : p ∈ s.peers)
    (told : p.notified = true) (kept : p.withdrawn = false) :
    DisplayMatches { s with display := PeerDisplay.notifyPeerConnState s.display p.hostName p.hostID state } := by
  have shown : 0 < s.tally p.hostID p.connType :=
    List.countP_pos_iff.mpr ⟨p, member, isDisplayed_iff.mpr ⟨told, kept, rfl, rfl⟩⟩
  have linked : Linked (s.tally p.hostID) := by
    cases kind : p.connType with
    | incoming => exact .inl (kind ▸ shown)
    | outgoing => exact .inr (kind ▸ shown)
  exact Displays.notifyPeerConnState matched linked

theorem DisplayMatches.withdraw {removing : Option (Removal × List Nat)} (matched : DisplayMatches s)
    (tracked : Tracked s) (member : p ∈ s.peers) (told : p.notified = true) (kept : p.withdrawn = false) :
    DisplayMatches { s.modify p.logId .withdraw with
      removing := removing, display := PeerDisplay.notifyPeerRemoved s.display p.hostID p.connType } :=
  matches_of (tally_withdraw tracked member told kept) (Displays.notifyPeerRemoved matched)

/-- The end of a peer that never was displayed is told of the host with the id 0. -/
theorem withdraw_hidden {removing : Option (Removal × List Nat)} (matched : DisplayMatches s) (tracked : Tracked s)
    (member : p ∈ s.peers) (quiet : p.notified = false) (ended : p.phase = .exited) :
    DisplayMatches { s.modify p.logId .withdraw with
      removing := removing, display := PeerDisplay.notifyPeerRemoved s.display p.hostID p.connType } ↔
    s.tally HostId.zero .incoming = 0 := by
  have phased := tracked.phased p member
  have unnamed : p.hostID = HostId.zero := by
    apply phased.unnamed quiet
    rw [ended]
    decide
  have tallied : (s.modify p.logId .withdraw).tally = s.tally := by
    apply tally_same tracked member
    intro hostID connType
    exact (hidden (p := p.withdraw) quiet).trans (hidden quiet).symm
  have lowered : Displays (lower s.tally HostId.zero .incoming)
      (PeerDisplay.notifyPeerRemoved s.display HostId.zero .incoming) := Displays.notifyPeerRemoved matched
  rw [unnamed, phased.incoming quiet]
  constructor
  · intro still
    have same : s.tally = lower s.tally HostId.zero .incoming := tallied.symm.trans (still.unique lowered)
    have here : s.tally HostId.zero .incoming = s.tally HostId.zero .incoming - 1 :=
      (congrFun (congrFun same _) _).trans (by simp [lower])
    omega
  · intro none
    have same : lower s.tally HostId.zero .incoming = s.tally := by
      funext hostID connType
      rw [lower]
      split_ifs with here
      · rw [here.1, here.2, none]
      · rfl
    exact matches_of (tallied.trans same.symm) lowered

/-- A step keeps the display right where it is unconfused, and nowhere else. -/
theorem matches_step (tracked : Tracked s) (matched : DisplayMatches s) (taken : s.step event = some next) :
    DisplayMatches next ↔ Unconfused s event := by
  cases step_moves taken with
  | accept address ip port starts createdAt free => exact iff_of_true matched.accept trivial
  | add hostName hostID ip port starts createdAt free => exact iff_of_true matched.add trivial
  | handshake p succeeds member waits =>
    refine iff_of_true (matched.modify tracked member ?_) trivial
    intro hostID connType
    cases succeeds <;> rfl
  | establish p hostName hostID osType member waits =>
    have quiet : p.notified = false := (tracked.phased p member).arriving (.inr waits)
    rcases establish_displayed s p.logId hostName hostID osType with refused | accepted
    · rw [refused]
      exact iff_of_true (matched.modify tracked member (fun _ _ => rfl)) trivial
    · rw [accepted]
      refine iff_of_true (matched.modify tracked member ?_) trivial
      intro other connType
      exact (hidden (p := p.identify hostName hostID osType) quiet).trans (hidden quiet).symm
  | notify p member waits quiet =>
    have kept := (tracked.phased p member).live waits (by decide)
    exact iff_of_true (matches_of (tally_announce tracked member quiet kept) (Displays.notifyPeer matched)) trivial
  | rename p hostName member sends => exact iff_of_true (matched.modify tracked member (fun _ _ => rfl)) trivial
  | connState p state member sends =>
    have phased := tracked.phased p member
    exact iff_of_true (matched.connState member (phased.sending sends) (phased.live sends (by decide))) trivial
  | bytes p bytesSent bytesReceived => exact iff_of_true (matches_of rfl (Displays.notifyPeerBytes matched)) trivial
  | leave p member waits told => exact iff_of_true (matched.modify tracked member (fun _ _ => rfl)) trivial
  | close p member =>
    refine iff_of_true (matched.modify tracked member ?_) trivial
    intro hostID connType
    rw [Bool.eq_iff_iff, isDisplayed_iff, isDisplayed_iff]
    show _ ∧ _ ∧ p.admitted.close.peer.hostID = hostID ∧ p.admitted.close.peer.connType = connType ↔ _
    rw [close_hostID, keeps_close.connType]
    rfl
  | lock removal free => exact iff_of_true matched trivial
  | skip silent removal logId rest looking quiet =>
    refine iff_of_true matched ?_
    intro p told
    rw [quiet] at told
    cases told
  | withdraw silent p removal rest looking told member ended =>
    have kept : p.withdrawn = false := by
      rw [Bool.eq_false_iff]
      intro gone
      obtain ⟨_, _, busy, behind⟩ := tracked.passed p member gone
      cases looking.symm.trans busy
      exact behind List.mem_cons_self
    have condition : Unconfused s (.visit silent) ↔ (p.notified = false → s.tally HostId.zero .incoming = 0) := by
      rw [Unconfused, told]
      simp
    rw [condition]
    cases quiet : p.notified with
    | true => exact iff_of_true (matched.withdraw tracked member quiet kept) (fun none => by cases none)
    | false =>
      rw [withdraw_hidden matched tracked member quiet ended]
      exact ⟨fun none _ => none, fun none => none rfl⟩
  | unlock removal looking =>
    refine iff_of_true (matches_of ?_ matched) trivial
    funext hostID connType
    rw [DisplayedPeers.tally, List.countP_filter]
    apply List.countP_congr
    intro p _
    rw [Bool.and_eq_true, Bool.not_eq_true', isDisplayed_iff]
    exact ⟨And.left, fun shown => ⟨shown, shown.2.1⟩⟩

theorem matches_boot : DisplayMatches boot := displays_empty

theorem run_matches {events : List DisplayEvent} (path : Path step Unconfused boot events s) :
    Tracked s ∧ DisplayMatches s := by
  apply path.invariant (fun s => Tracked s ∧ DisplayMatches s)
  · intro s event next both fits taken
    exact ⟨both.1.step taken, (matches_step both.1 both.2 taken).mpr fits⟩
  · exact ⟨tracked_boot, matches_boot⟩

/-- The display is right all along a run that withdraws no unannounced peer while an incoming peer of the host with
    the id 0 is displayed, and the first such withdrawal makes it wrong. -/
theorem display_matches_exact (events : List DisplayEvent) (s : DisplayedPeers)
    (path : Path step Unconfused boot events s) :
    DisplayMatches s ∧ ∀ event next, s.step event = some next → (DisplayMatches next ↔ Unconfused s event) := by
  obtain ⟨tracked, matched⟩ := run_matches path
  exact ⟨matched, fun event next taken => matches_step tracked matched taken⟩

namespace HostZero

def laptopIp : Bytes := [0x31]

def phoneIp : Bytes := [0x32]

def accept (ip : Bytes) : DisplayEvent := .accept ip ip 1 true 10

/-- The host with the id 0 connects, and the handshake of another one fails. -/
def failed : List DisplayEvent :=
  [accept laptopIp, .handshake 1 true, .establish 1 laptopIp HostId.zero 1, .notify 1,
   accept phoneIp, .handshake 2 false, .close 2, .close 2, .lock .cull, .visit false, .visit false]

def phoneId : HostId := ⟨List.replicate 16 5, rfl⟩

def served : List DisplayEvent :=
  [accept phoneIp, .handshake 1 true, .establish 1 phoneIp phoneId 3, .notify 1, accept laptopIp,
   .add phoneIp phoneId phoneIp 1 true 20, .connState 3 .connecting, .connState 3 .connected, .bytes 3 40 0,
   .handshake 2 false, .close 2, .close 2, .lock .cull, .visit false, .visit false, .visit false, .unlock,
   .close 3, .lock (.removeOutgoing phoneId), .visit false, .visit false, .unlock,
   .leave 1, .close 1, .close 1, .lock .clear, .visit false, .unlock]

end HostZero

open HostZero in
theorem served_phone_displayed : DisplayMatches (lastOf step boot served) :=
  (display_matches_exact served _ (fitting_to_lastOf (by decide +kernel))).1

open HostZero in
theorem failed_handshake_hides_host : ¬ ∀ events s, Path step (fun _ _ => True) boot events s → DisplayMatches s := by
  intro always
  have run : Path step (fun _ _ => True) boot failed (lastOf step boot failed) :=
    path_to_lastOf (fun _ _ _ => trivial) (by decide +kernel)
  have empty : (lastOf step boot failed).display.length = 0 := by decide +kernel
  have one : (lastOf step boot failed).tally HostId.zero .incoming = 1 := by decide +kernel
  obtain ⟨entry, member, _⟩ := ((always failed _ run).present HostId.zero).mpr (.inl (by rw [one]; decide))
  rw [List.length_eq_zero_iff.mp empty] at member
  cases member

end Displayed

end ClippProof.Peers
