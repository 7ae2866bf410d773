import Clipp.Foundation.Dialogue
import Clipp.Peers.BrokenStream
import Clipp.Peers.Reconciler
import Clipp.Wire.Handshake

open Foundation

namespace ClippModel.Peers.OneShot

open ClippModel.Keys ClippModel.Registers ClippModel.Wire.Framing ClippModel.Wire.Handshake

def foldByte (b : UInt8) : UInt8 := if 0x41 ≤ b ∧ b ≤ 0x5A then b + 32 else b

def peerMatchesHost (peer : DiscoveredPeer) (filter : Bytes) : Bool :=
  peer.ip = filter || peer.deviceName.map foldByte = filter.map foldByte

structure Caller where
  root : NetworkKey
  localHostId : HostId
  localHostName : Bytes
  hostFilter : Bytes

def Caller.takes (caller : Caller) (peer : DiscoveredPeer) : Bool :=
  caller.hostFilter.isEmpty || peerMatchesHost peer caller.hostFilter

/-- A verb: what it does on one connection, and the capability it asks of the other side. It leaves with nothing to
    have the next peer tried, and with a result to stop the browsing. What it counts, it counts over all connections:
    `counts` is what one of them has added so far. -/
structure Verb (τ ρ : Type) where
  exchange : Party Bytes τ (Option ρ)
  needs : UInt8
  counts : τ → Nat := fun _ => 0

inductive Phase (τ : Type) where
  | connecting
  | exchanging (state : τ)

structure Attempt (τ : Type) where
  peer : DiscoveredPeer
  session : Nat
  phase : Phase τ

structure Finished (ρ : Type) where
  peer : DiscoveredPeer
  session : Nat
  value : ρ

structure Served (U : Type) where
  serving : Serving U
  frame : Bytes

def Served.handling {U : Type} (e : Served U) : Handling := handleIncoming e.serving e.frame

def Served.replies {U : Type} (e : Served U) : List Bytes :=
  match e.handling with
  | .leave => []
  | .reply frames _ => frames

/-- All connections, the receive loops of the gateways on them, and one call of a verb among them. -/
structure Mesh (κ σ U τ ρ : Type) where
  world : World κ σ
  loops : Nat → Option (List (Served U))
  filterMatched : Bool
  counted : Nat
  trying : Option (Attempt τ)
  result : Option (Finished ρ)

/-- The browsing brings peers in any order, the network what it likes to any session, and the gateways and the verb
    go on when they like. -/
inductive MeshEvent (U : Type) where
  | found (peer : DiscoveredPeer) (connected : Option Turn)
  | proceed (link : Link)
  | greet (j : Nat) (d : Serving U) (firstIncoming : Bool) (syncLink rsynLink : Link)
  | serve (j : Nat) (d : Serving U) (link : Link)
  | elsewhere (event : Event)

variable {κ σ U τ ρ : Type}

def isOpen : Stage κ → Bool
  | .established => true
  | _ => false

def sendMessages (N : Sodium κ σ) (link : Link) : List Bytes → Session κ σ → Bool × Session κ σ
  | [], s => (true, s)
  | message :: rest, s =>
    match s.sendFrame N link (message.take 4) (message.drop 4) [] with
    | (false, s) => (false, s)
    | (true, s) => sendMessages N link rest s

def admits (needs : UInt8) (peer : DiscoveredPeer) (s : Session κ σ) : Bool :=
  match s.remotePlaintext.map copyRemoteIdentity with
  | none => false
  | some remote => remote.hostId = peer.hostId ∧ caps0 remote.caps &&& needs ≠ 0

namespace Mesh

def empty : Mesh κ σ U τ ρ where
  world := []
  loops := fun _ => none
  filterMatched := false
  counted := 0
  trying := none
  result := none

def found (N : Sodium κ σ) (caller : Caller) (m : Mesh κ σ U τ ρ) (peer : DiscoveredPeer) (connected : Option Turn) :
    Option (Mesh κ σ U τ ρ) :=
  if m.trying.isSome || m.result.isSome then none
  else if !caller.takes peer then some m
  else
    match connected, getKeys N caller.root with
    | some t, some keys => some { m with
        world := m.world ++ [Session.clientStart N t caller.root keys caller.localHostId caller.localHostName]
        filterMatched := true
        trying := some { peer := peer, session := m.world.length, phase := .connecting } }
    | _, _ => some { m with filterMatched := true }

def proceed (N : Sodium κ σ) (V : Verb τ ρ) (m : Mesh κ σ U τ ρ) (link : Link) : Option (Mesh κ σ U τ ρ) := do
  let a ← m.trying
  let s ← m.world[a.session]?
  match a.phase with
  | .connecting =>
    match s.stage with
    | .closed => some { m with trying := none }
    | .established =>
      if admits V.needs a.peer s then some { m with trying := some { a with phase := .exchanging V.exchange.start } }
      else some { m with world := m.world.set a.session s.close, trying := none }
    | _ => none
  | .exchanging state =>
    match V.exchange.act state with
    | .send message next =>
      let (sent, s) := s.sendFrame N link (message.take 4) (message.drop 4) []
      some { m with
        world := m.world.set a.session s
        trying := some { a with phase := .exchanging (next sent) } }
    | .receive next =>
      let (got, s) := s.recvFrame N
      some { m with
        world := m.world.set a.session s
        trying := some { a with phase := .exchanging (next got) } }
    | .leave result =>
      some { m with
        world := m.world.set a.session s.close
        counted := m.counted + V.counts state
        trying := none
        result := result.map fun value => { peer := a.peer, session := a.session, value := value } }

def greet (N : Sodium κ σ) (m : Mesh κ σ U τ ρ) (j : Nat) (d : Serving U) (firstIncoming : Bool)
    (syncLink rsynLink : Link) : Option (Mesh κ σ U τ ρ) := do
  let s ← m.world[j]?
  if s.role = .server ∧ isOpen s.stage ∧ (m.loops j).isNone then
    let asked := (sendMessages N syncLink (syncRequest .incoming firstIncoming) s).2
    some { m with
      world := m.world.set j (sendMessages N rsynLink (rsynRequest d) asked).2
      loops := Function.update m.loops j (some []) }
  else none

def serve (N : Sodium κ σ) (m : Mesh κ σ U τ ρ) (j : Nat) (d : Serving U) (link : Link) :
    Option (Mesh κ σ U τ ρ) := do
  let s ← m.world[j]?
  let log ← m.loops j
  if isOpen s.stage then
    match s.recvFrame N with
    | (none, s) => some { m with world := m.world.set j s.close }
    | (some frame, s) =>
      let loops := Function.update m.loops j (some (log ++ [{ serving := d, frame := frame }]))
      match handleIncoming d frame with
      | .leave => some { m with world := m.world.set j s.close, loops := loops }
      | .reply frames checked =>
        match sendMessages N link frames s with
        | (true, s) => some { m with world := m.world.set j s, loops := loops }
        | (false, s) => some { m with world := m.world.set j (if checked then s.close else s), loops := loops }
  else none

/-- Other clients send and receive as they like, but not on the connection of the verb. -/
def Others (m : Mesh κ σ U τ ρ) : Event → Prop
  | .send k _ _ | .receive k =>
    ∀ s ∈ m.world[k]?, s.role = .client ∧ isOpen s.stage ∧ ∀ a ∈ m.trying, a.session ≠ k
  | _ => True

def step (N : Sodium κ σ) (caller : Caller) (V : Verb τ ρ) (m : Mesh κ σ U τ ρ) :
    MeshEvent U → Option (Mesh κ σ U τ ρ)
  | .found peer connected => m.found N caller peer connected
  | .proceed link => m.proceed N V link
  | .greet j d firstIncoming syncLink rsynLink => m.greet N j d firstIncoming syncLink rsynLink
  | .serve j d link => m.serve N j d link
  | .elsewhere event => (World.step N m.world event).map fun world => { m with world := world }

end Mesh

/-- New key pairs, nothing opens that was not sealed, and who else takes part is no gateway. -/
def Honest (N : Sodium κ σ) (m : Mesh κ σ U τ ρ) : MeshEvent U → Prop
  | .found _ connected => ∀ t ∈ connected, FreshKey N m.world t.secretKey
  | .proceed _ => ∀ a ∈ m.trying, ∀ s ∈ m.world[a.session]?, StreamGenuine N m.world s
  | .greet _ _ _ _ _ => True
  | .serve j _ _ => ∀ s ∈ m.world[j]?, StreamGenuine N m.world s
  | .elsewhere event => Genuine N m.world event ∧ m.Others event

end ClippModel.Peers.OneShot
