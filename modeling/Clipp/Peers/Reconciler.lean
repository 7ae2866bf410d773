import Clipp.Foundation.KeyedMap
import Clipp.Peers.PeerManager

open Foundation

namespace ClippModel.Peers

open ClippModel.Registers

structure DiscoveredPeer where
  deviceName : Bytes
  ip : Bytes
  hostId : HostId
  port : UInt16
  deriving DecidableEq

structure TrackedPeer where
  peer : DiscoveredPeer
  admitted : Bool := false
  deriving DecidableEq

/-- After the deadline, in nanoseconds of the steady clock, a reported departure becomes real. -/
structure PendingRemoval where
  hostId : HostId
  deadline : Nat
  deriving DecidableEq

def kRemovalGrace : Nat := 4 * 1000000000

/-- The currently discovered peers and the deferred removals, both by host id, with the peer manager that
    is driven under the same lock. -/
structure OutgoingReconciler where
  active : KeyedMap (fun t : TrackedPeer => t.peer.hostId)
  pendingRemoval : KeyedMap PendingRemoval.hostId
  manager : PeerManager

/-- Discovery's reports, at the time they come in, and the sweeps. `starts` tells for which hosts a new
    peer's wake socket could be created. -/
inductive ReconcilerEvent where
  | added (peer : DiscoveredPeer) (starts : HostId → Bool)
  | removed (hostId : HostId) (now : Nat)
  | sweep (now : Nat) (starts : HostId → Bool)

namespace OutgoingReconciler

def boot : OutgoingReconciler := { active := .empty, pendingRemoval := .empty, manager := {} }

def forwardAddPeer (m : PeerManager) (starts : HostId → Bool) (peer : DiscoveredPeer) :
    OutgoingPeerAdmission × PeerManager :=
  m.addPeer peer.deviceName peer.hostId peer.ip peer.port (starts peer.hostId)

def track (s : OutgoingReconciler) (starts : HostId → Bool) (tracked peer : DiscoveredPeer) : OutgoingReconciler :=
  let admission := forwardAddPeer s.manager starts peer
  { s with
    active := s.active.put { peer := tracked, admitted := admission.1 ≠ .rejectedPeerLimit }
    manager := admission.2 }

def removeOutgoing (s : OutgoingReconciler) (hostId : HostId) : OutgoingReconciler :=
  { s with manager := s.manager.removeOutgoingPeer hostId }

def onAdded (s : OutgoingReconciler) (starts : HostId → Bool) (peer : DiscoveredPeer) : OutgoingReconciler :=
  let s := { s with pendingRemoval := s.pendingRemoval.erase peer.hostId }
  match s.active.find peer.hostId with
  | none => s.track starts peer peer
  | some tracked =>
    if tracked.peer.ip ≠ peer.ip ∨ tracked.peer.port ≠ peer.port then
      (if tracked.admitted then s.removeOutgoing peer.hostId else s).track starts peer peer
    else if tracked.admitted then s
    else s.track starts tracked.peer peer

def onRemoved (s : OutgoingReconciler) (hostId : HostId) (now : Nat) : OutgoingReconciler :=
  if (s.active.find hostId).isSome then
    { s with pendingRemoval := s.pendingRemoval.put { hostId := hostId, deadline := now + kRemovalGrace } }
  else s

def forget (s : OutgoingReconciler) (hostId : HostId) : OutgoingReconciler :=
  { s with active := s.active.erase hostId, pendingRemoval := s.pendingRemoval.erase hostId }

def dropExpired (s : OutgoingReconciler × Bool) (removal : PendingRemoval) : OutgoingReconciler × Bool :=
  match s.1.active.find removal.hostId with
  | some tracked =>
    if tracked.admitted then ((s.1.removeOutgoing removal.hostId).forget removal.hostId, true)
    else (s.1.forget removal.hostId, s.2)
  | none => (s.1.forget removal.hostId, s.2)

/-- Free slots go to the peers that were deferred, in the order of their host ids. -/
def admitPendingPeers (starts : HostId → Bool) : List TrackedPeer → OutgoingReconciler → OutgoingReconciler
  | [], s => s
  | tracked :: rest, s =>
    if tracked.admitted || (s.pendingRemoval.find tracked.peer.hostId).isSome then admitPendingPeers starts rest s
    else
      let admission := forwardAddPeer s.manager starts tracked.peer
      if admission.1 = .rejectedPeerLimit then { s with manager := admission.2 }
      else
        admitPendingPeers starts rest
          { s with active := s.active.put { tracked with admitted := true }, manager := admission.2 }

def sweep (s : OutgoingReconciler) (now : Nat) (starts : HostId → Bool) : OutgoingReconciler :=
  let due := s.pendingRemoval.entries.filter (fun removal => removal.deadline ≤ now)
  let swept := due.foldl dropExpired (s, false)
  if swept.2 then admitPendingPeers starts swept.1.active.entries swept.1 else swept.1

def handle (s : OutgoingReconciler) : ReconcilerEvent → OutgoingReconciler
  | .added peer starts => s.onAdded starts peer
  | .removed hostId now => s.onRemoved hostId now
  | .sweep now starts => s.sweep now starts

def run (events : List ReconcilerEvent) : OutgoingReconciler := events.foldl handle boot

end OutgoingReconciler

end ClippModel.Peers
