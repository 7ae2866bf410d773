import Clipp.Foundation.Machine
import Clipp.Peers.PeerManager
import Mathlib.Logic.Function.Basic

open Foundation

namespace ClippModel.Peers

open ClippModel.Registers

/-- A received frame, by what its handling depends on: the relay bit of a live item, the relay bit of a
    register write and whether the write took effect, and whether an item could be built for the put. -/
inductive PeerFrame where
  | other
  | clip (relayed : Bool)
  | regw (relayed changed : Bool)
  | rput (routed : Bool)
  deriving DecidableEq

/-- Only incoming peers are given the callback that receives items. -/
def broadcasts (connType : ConnType) : PeerFrame → Bool
  | .other => false
  | .clip relayed => connType = .incoming && relayed
  | .regw relayed changed => relayed && changed
  | .rput routed => connType = .incoming && routed

/-- Where a peer thread is. `wanting` and `broadcasting` are in front of and behind the lock of
    `BroadcastClipboard` or `BroadcastRegisterFrame`; `leaving` has cleared `running_`. -/
inductive PeerPc where
  | looping
  | polling
  | handling (frame : PeerFrame)
  | wanting
  | broadcasting
  | leaving
  | exited
  deriving DecidableEq

structure PeerThread where
  connType : ConnType
  hostID : HostId
  stopRequested : Bool
  pc : PeerPc
  deriving DecidableEq

def PeerThread.isRunning (t : PeerThread) : Bool := t.pc ≠ .leaving ∧ t.pc ≠ .exited

inductive Removal where
  | removeOutgoing (hostID : HostId)
  | cull
  | clear
  deriving DecidableEq

/-- `silent` is the verdict of the clocks: a minute old, and a minute without a ping. -/
def Removal.selects (silent : Bool) (t : PeerThread) : Removal → Bool
  | .removeOutgoing hostID => t.connType = .outgoing && t.hostID = hostID
  | .cull => !t.isRunning || (t.connType = .incoming && silent)
  | .clear => true

variable {π κ : Type}

/-- Where a call that removes peers is: in front of the lock, behind it with peers still to look at, or
    behind it in `Stop`, which waits for the thread of one peer to end. -/
inductive CallPc (π : Type) where
  | idle
  | waiting (removal : Removal)
  | scanning (removal : Removal) (rest : List π)
  | joining (removal : Removal) (peer : π) (rest : List π)
  deriving DecidableEq

inductive LockOwner (π κ : Type) where
  | peer (p : π)
  | caller (k : κ)
  deriving DecidableEq

structure PeerThreads (π κ : Type) where
  owner : Option (LockOwner π κ)
  peers : List π
  thread : π → PeerThread
  call : κ → CallPc π

inductive PeerLabel (π κ : Type) where
  | add (p : π) (connType : ConnType) (hostID : HostId) (started : Bool)
  | request (k : κ) (removal : Removal)
  | acquire (k : κ)
  | visit (k : κ) (silent : Bool)
  | join (k : κ)
  | release (k : κ)
  | loopTop (p : π)
  | wake (p : π)
  | disconnect (p : π)
  | receive (p : π) (frame : PeerFrame)
  | handle (p : π)
  | lock (p : π)
  | unlock (p : π)
  | finish (p : π)
  deriving DecidableEq

namespace PeerThreads

def boot : PeerThreads π κ where
  owner := none
  peers := []
  thread := fun _ => { connType := .outgoing, hostID := HostId.zero, stopRequested := false, pc := .exited }
  call := fun _ => .idle

variable [DecidableEq π] [DecidableEq κ]

def setThread (s : PeerThreads π κ) (p : π) (t : PeerThread) : PeerThreads π κ :=
  { s with thread := Function.update s.thread p t }

def setPc (s : PeerThreads π κ) (p : π) (pc : PeerPc) : PeerThreads π κ :=
  s.setThread p { s.thread p with pc := pc }

def setCall (s : PeerThreads π κ) (k : κ) (pc : CallPc π) : PeerThreads π κ :=
  { s with call := Function.update s.call k pc }

def step (s : PeerThreads π κ) : PeerLabel π κ → Option (PeerThreads π κ)
  -- the peer is started inside the critical section, which nothing in it can block
  | .add p connType hostID started =>
    if s.owner = none ∧ (s.thread p).pc = .exited ∧ p ∉ s.peers then
      some { s.setThread p { connType := connType, hostID := hostID, stopRequested := false
                             pc := if started then .looping else .exited } with
        peers := s.peers ++ [p] }
    else none
  | .request k removal =>
    match s.call k with
    | .idle => some (s.setCall k (.waiting removal))
    | _ => none
  | .acquire k =>
    match s.call k, s.owner with
    | .waiting removal, none =>
      some { s.setCall k (.scanning removal s.peers) with owner := some (.caller k) }
    | _, _ => none
  | .visit k silent =>
    match s.call k with
    | .scanning removal (p :: rest) =>
      if removal.selects silent (s.thread p) then
        some ((s.setThread p { s.thread p with stopRequested := true }).setCall k (.joining removal p rest))
      else some (s.setCall k (.scanning removal rest))
    | _ => none
  | .join k =>
    match s.call k with
    | .joining removal p rest =>
      if (s.thread p).pc = .exited then
        some { s.setCall k (.scanning removal rest) with peers := s.peers.erase p }
      else none
    | _ => none
  | .release k =>
    match s.call k with
    | .scanning _ [] => some { s.setCall k .idle with owner := none }
    | _ => none
  | .loopTop p =>
    match (s.thread p).pc with
    | .looping => some (s.setPc p (if (s.thread p).stopRequested then .leaving else .polling))
    | _ => none
  -- a time-out, a wake-up, or an outgoing peer that connects again
  | .wake p =>
    match (s.thread p).pc with
    | .polling => some (s.setPc p .looping)
    | _ => none
  -- an outgoing peer only leaves when it finds no host id of its own
  | .disconnect p =>
    match (s.thread p).pc with
    | .polling => some (s.setPc p .leaving)
    | _ => none
  | .receive p frame =>
    match (s.thread p).pc with
    | .polling => some (s.setPc p (.handling frame))
    | _ => none
  | .handle p =>
    match (s.thread p).pc with
    | .handling frame => some (s.setPc p (if broadcasts (s.thread p).connType frame then .wanting else .looping))
    | _ => none
  | .lock p =>
    match (s.thread p).pc, s.owner with
    | .wanting, none => some { s.setPc p .broadcasting with owner := some (.peer p) }
    | _, _ => none
  | .unlock p =>
    match (s.thread p).pc with
    | .broadcasting => some { s.setPc p .looping with owner := none }
    | _ => none
  | .finish p =>
    match (s.thread p).pc with
    | .leaving => some (s.setPc p .exited)
    | _ => none

end PeerThreads

end ClippModel.Peers
