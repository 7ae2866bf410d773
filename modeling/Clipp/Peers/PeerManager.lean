import Clipp.Registers.Record

open Foundation

namespace ClippModel.Peers

open ClippModel.Registers

namespace PeerLimits

def maxOutgoingPeers : Nat := 127

def canAddOutgoing (outgoingPeers : Nat) : Bool := outgoingPeers < maxOutgoingPeers

end PeerLimits

inductive ConnType where
  | outgoing
  | incoming
  deriving DecidableEq

/-- A connection object, told from any other by its log id. Address texts are kept as bytes. -/
structure Peer where
  logId : Nat
  connType : ConnType
  hostName : Bytes
  hostID : HostId
  ip : Bytes
  port : UInt16
  isRunning : Bool
  deriving DecidableEq

inductive OutgoingPeerAdmission where
  | accepted
  | alreadyPresent
  | rejectedPeerLimit
  deriving DecidableEq

structure PeerManager where
  peers : List Peer := []
  nextPeerLogId : Nat := 1
  deriving DecidableEq

namespace PeerManager

def isOutgoing (p : Peer) : Bool := p.connType = .outgoing

def isOutgoingTo (hostID : HostId) (p : Peer) : Bool := p.hostID = hostID && isOutgoing p

def outgoingCount (m : PeerManager) : Nat := m.peers.countP isOutgoing

/-- `starts` tells whether the wake socket of the new peer could be created: without it no thread runs. -/
def createPeer (m : PeerManager) (hostName : Bytes) (hostID : HostId) (ip : Bytes) (port : UInt16) (starts : Bool) :
    Peer where
  logId := m.nextPeerLogId
  connType := .outgoing
  hostName := hostName
  hostID := hostID
  ip := ip
  port := port
  isRunning := starts

def addPeer (m : PeerManager) (hostName : Bytes) (hostID : HostId) (ip : Bytes) (port : UInt16) (starts : Bool) :
    OutgoingPeerAdmission × PeerManager :=
  if m.peers.any (isOutgoingTo hostID) then (.alreadyPresent, m)
  else if !PeerLimits.canAddOutgoing m.outgoingCount then (.rejectedPeerLimit, m)
  else
    (.accepted, { peers := m.peers ++ [m.createPeer hostName hostID ip port starts]
                  nextPeerLogId := m.nextPeerLogId + 1 })

def removeOutgoingPeer (m : PeerManager) (hostID : HostId) : PeerManager :=
  { m with peers := m.peers.filter (fun p => !isOutgoingTo hostID p) }

/-- `silent` is the verdict of the clocks on a peer: a minute old, and a minute without a ping. -/
def cullPeers (m : PeerManager) (silent : Nat → Bool) : PeerManager :=
  { m with peers := m.peers.filter (fun p => p.isRunning && !(p.connType = .incoming && silent p.logId)) }

def clearPeers (m : PeerManager) : PeerManager := { m with peers := [] }

def exit (m : PeerManager) (logId : Nat) : PeerManager :=
  { m with peers := m.peers.map (fun p => if p.logId = logId then { p with isRunning := false } else p) }

def outgoingTo (m : PeerManager) (hostID : HostId) : List Peer := m.peers.filter (isOutgoingTo hostID)

end PeerManager

end ClippModel.Peers

namespace ClippProof.Peers

open ClippModel.Registers ClippModel.Peers ClippModel.Peers.PeerManager

variable {m : PeerManager} {host other : HostId} {hostName ip : Bytes} {port : UInt16} {starts : Bool} {p : Peer}

theorem mem_outgoingTo : p ∈ m.outgoingTo host ↔ p ∈ m.peers ∧ p.hostID = host ∧ p.connType = .outgoing := by
  simp [outgoingTo, isOutgoingTo, isOutgoing]

theorem outgoingTo_removeOutgoingPeer_self : (m.removeOutgoingPeer host).outgoingTo host = [] := by
  simp [outgoingTo, removeOutgoingPeer]

theorem outgoingTo_removeOutgoingPeer_ne (apart : other ≠ host) :
    (m.removeOutgoingPeer host).outgoingTo other = m.outgoingTo other := by
  unfold outgoingTo removeOutgoingPeer
  rw [List.filter_filter]
  apply List.filter_congr
  intro p _
  by_cases here : p.hostID = other
  · have elsewhere : ¬ p.hostID = host := fun same => apart (here.symm.trans same)
    simp [isOutgoingTo, here, apart]
  · simp [isOutgoingTo, here]

theorem outgoingCount_removeOutgoingPeer (m : PeerManager) (host : HostId) :
    (m.removeOutgoingPeer host).outgoingCount + (m.outgoingTo host).length = m.outgoingCount := by
  have here : (m.outgoingTo host).countP isOutgoing = (m.outgoingTo host).length := by
    rw [List.countP_eq_length]
    intro p member
    simpa [isOutgoing] using (mem_outgoingTo.mp member).2.2
  rw [← here, Nat.add_comm]
  exact (List.countP_eq_countP_filter_add m.peers isOutgoing (isOutgoingTo host)).symm

theorem outgoingTo_nil (fresh : m.outgoingTo host = []) : m.peers.any (isOutgoingTo host) = false := by
  rw [List.any_eq_false]
  exact List.filter_eq_nil_iff.mp fresh

theorem addPeer_room (fresh : m.outgoingTo host = []) (room : m.outgoingCount < PeerLimits.maxOutgoingPeers) :
    m.addPeer hostName host ip port starts =
      (.accepted, { peers := m.peers ++ [m.createPeer hostName host ip port starts]
                    nextPeerLogId := m.nextPeerLogId + 1 }) := by
  simp [addPeer, outgoingTo_nil fresh, PeerLimits.canAddOutgoing, room]

theorem addPeer_full (fresh : m.outgoingTo host = []) (full : ¬ m.outgoingCount < PeerLimits.maxOutgoingPeers) :
    m.addPeer hostName host ip port starts = (.rejectedPeerLimit, m) := by
  simp [addPeer, outgoingTo_nil fresh, PeerLimits.canAddOutgoing, full]

end ClippProof.Peers
