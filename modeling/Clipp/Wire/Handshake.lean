import Clipp.Clipboard.Wire
import Clipp.Foundation.Aead
import Clipp.Foundation.KeyExchange
import Clipp.Keys.KeyManager
import Clipp.Peers.LocalPeerName
import Clipp.Wire.Framing

open Foundation

namespace ClippModel.Wire.Handshake

open ClippModel.Clipboard ClippModel.Keys ClippModel.Peers ClippModel.Persistence ClippModel.Registers
  ClippModel.Wire.Framing ClippModel.Wire.RegisterWire

def secretboxNonceBytes : Nat := 24
def secretboxMacBytes : Nat := 16
def secretstreamHeaderBytes : Nat := 24
def kxPublicKeyBytes : Nat := 32
def capsBytes : Nat := 14

abbrev PublicKey := Sized kxPublicKeyBytes
abbrev Caps := Sized capsBytes

def cap0ServesRecent : UInt8 := 0x01
def cap0ServesRegisters : UInt8 := 0x02
def cap0ServesPut : UInt8 := 0x04
def cap0ServesNetmap : UInt8 := 0x08

structure Build where
  servesNetmap : Bool
  registersDaemon : Bool
  osType : UInt16

def localCaps (build : Build) : Caps :=
  ⟨(cap0ServesRecent ||| (if build.servesNetmap then cap0ServesNetmap else 0) |||
      (if build.registersDaemon then cap0ServesRegisters ||| cap0ServesPut else 0)) :: List.replicate 13 0, rfl⟩

def caps0 (caps : Caps) : UInt8 := byteAt caps.val 0

structure HandshakePlaintext where
  ephemeralPk : PublicKey
  hostId : HostId
  caps : Caps
  osType : UInt16
  hostNameUTF8 : Sized hostnameMaxBytes
  deriving DecidableEq

/-- The packed struct, the type of the system in network order. -/
def HandshakePlaintext.bytes (p : HandshakePlaintext) : Bytes :=
  p.ephemeralPk.val ++ (p.hostId.bytes ++ (p.caps.val ++ (bigEndian 2 p.osType.toNat ++ (p.hostNameUTF8.val ++ []))))

def readPlaintext : Reader HandshakePlaintext := do
  let ephemeralPk ← readSized kxPublicKeyBytes
  let hostId ← readHostId
  let caps ← readSized capsBytes
  let osType ← Reader.int 2
  let hostNameUTF8 ← readSized hostnameMaxBytes
  return { ephemeralPk := ephemeralPk, hostId := hostId, caps := caps, osType := UInt16.ofNat osType,
           hostNameUTF8 := hostNameUTF8 }

def plaintextBytes : Nat := kxPublicKeyBytes + HostId.kSize + capsBytes + 2 + hostnameMaxBytes

def handshakeFrameBytes : Nat := secretboxNonceBytes + (secretboxMacBytes + plaintextBytes)

def fillHandshakePlaintext (publicKey : PublicKey) (hostId : HostId) (caps : Caps) (osType : UInt16)
    (hostNameUtf8 : Bytes) : HandshakePlaintext where
  ephemeralPk := publicKey
  hostId := hostId
  caps := caps
  osType := osType
  hostNameUTF8 := handshakeHostName hostNameUtf8

structure RemoteIdentity where
  hostId : HostId
  caps : Caps
  osType : UInt16
  hostName : Bytes
  deriving DecidableEq

def copyRemoteIdentity (p : HandshakePlaintext) : RemoteIdentity where
  hostId := p.hostId
  caps := p.caps
  osType := p.osType
  hostName := remoteHostName p.hostNameUTF8

/-- The subkeys of the network's key that the two frames are sealed under. -/
structure NetworkKeys where
  clientToServer : NetworkKey
  serverToClient : NetworkKey
  deriving DecidableEq

structure KeyPair where
  publicKey : PublicKey
  secretKey : Bytes

/-- The library's share in a handshake. The box seals without a header. -/
structure Sodium (κ σ : Type) where
  deriveKeyFromRoot : NetworkKey → KeyRole → Option NetworkKey
  secretbox : Aead
  kx : KeyExchange Bytes PublicKey κ
  secretstream : KeyedStream κ σ

/-- What the surroundings bring to one stretch of a handshake: the socket, the random bytes, the settings, and
    whether the deadline has passed at its end. -/
structure Turn where
  link : Link
  secretKey : Bytes
  nonce : Sized secretboxNonceBytes
  header : Sized secretstreamHeaderBytes
  build : Build
  hostId : Option HostId
  device : DeviceName
  expired : Bool

inductive Role where
  | client
  | server
  deriving DecidableEq

/-- What a session waits for next. A client waits for the frame and the header of its server, a server for the
    frame, the header and the last word of its client. -/
inductive Stage (κ : Type) where
  | reply (clientKeys : KeyPair)
  | serverHeader (sessionKeys : SessionKeys κ)
  | hello
  | clientHeader (sessionKeys : SessionKeys κ)
  | handshakeDone
  | established
  | closed

/-- One side of one connection. `localPlaintext` is what it sealed, `remotePlaintext` what it opened, and
    `authenticated` tells whether its handshake returned true. -/
structure Session (κ σ : Type) where
  role : Role
  root : NetworkKey
  keys : NetworkKeys
  stage : Stage κ
  localPlaintext : Option HandshakePlaintext
  remotePlaintext : Option HandshakePlaintext
  txState : Option (Strand κ σ)
  rxState : Option (Strand κ σ)
  inbox : List Bytes
  written : Bytes
  authenticated : Bool

variable {κ σ : Type}

def getKeys (N : Sodium κ σ) (root : NetworkKey) : Option NetworkKeys := do
  let clientToServer ← N.deriveKeyFromRoot root .tcpHandshakeClientToServer
  let serverToClient ← N.deriveKeyFromRoot root .tcpHandshakeServerToClient
  pure ⟨clientToServer, serverToClient⟩

def generateKeyPair (N : Sodium κ σ) (secretKey : Bytes) : KeyPair := ⟨N.kx.publicKey secretKey, secretKey⟩

def sealHandshakeFrame (N : Sodium κ σ) (nonce : Sized secretboxNonceBytes) (plaintext : HandshakePlaintext)
    (networkKey : NetworkKey) : Bytes :=
  nonce.val ++ N.secretbox.encrypt networkKey.val nonce.val [] plaintext.bytes

def boxPlain (N : Sodium κ σ) (networkKey : NetworkKey) (frame : Bytes) : Option Bytes :=
  N.secretbox.decrypt networkKey.val (frame.take secretboxNonceBytes) [] (frame.drop secretboxNonceBytes)

def openHandshakeFrame (N : Sodium κ σ) (networkKey : NetworkKey) (frame : Bytes) : Option HandshakePlaintext :=
  (boxPlain N networkKey frame).bind readPlaintext.whole

def kHandshakeDoneTag : Bytes := ascii "DONE"

def loadLocalIdentity (t : Turn) : Option (HostId × Bytes) := do
  let hostId ← t.hostId
  let hostNameUtf8 := copyLocalPeerDisplayName t.device none (zeroBytes hostnameMaxBytes)
  guard (hostNameUtf8.1 = true)
  pure (hostId, hostNameUtf8.2.val)

namespace Session

def opened (role : Role) (root : NetworkKey) (keys : NetworkKeys) (stage : Stage κ) : Session κ σ where
  role := role
  root := root
  keys := keys
  stage := stage
  localPlaintext := none
  remotePlaintext := none
  txState := none
  rxState := none
  inbox := []
  written := []
  authenticated := false

def sealKey (s : Session κ σ) : NetworkKey :=
  match s.role with
  | .client => s.keys.clientToServer
  | .server => s.keys.serverToClient

def openKey (s : Session κ σ) : NetworkKey :=
  match s.role with
  | .client => s.keys.serverToClient
  | .server => s.keys.clientToServer

def close (s : Session κ σ) : Session κ σ := { s with stage := .closed }

def deliver (s : Session κ σ) (chunk : Bytes) : Session κ σ := { s with inbox := s.inbox ++ [chunk] }

def sendHandshakeFrame (N : Sodium κ σ) (t : Turn) (plaintext : HandshakePlaintext) (s : Session κ σ) :
    Bool × Session κ σ :=
  let (sent, written) := sendAll t.link s.written (sealHandshakeFrame N t.nonce plaintext s.sealKey)
  (sent, { s with localPlaintext := some plaintext, written := written })

def receiveHandshakeFrame (N : Sodium κ σ) (s : Session κ σ) : Option HandshakePlaintext × Session κ σ :=
  match recvAll s.inbox handshakeFrameBytes with
  | none => (none, s)
  | some (frame, inbox) => (openHandshakeFrame N s.openKey frame, { s with inbox := inbox })

def sendStreamHeader (N : Sodium κ σ) (t : Turn) (txKey : κ) (s : Session κ σ) : Bool × Session κ σ :=
  match N.secretstream.initPush txKey t.header.val with
  | none => (false, s)
  | some state =>
    let (sent, written) := sendAll t.link s.written t.header.val
    (sent, { s with txState := some ⟨txKey, t.header.val, state, []⟩, written := written })

def receiveStreamHeader (N : Sodium κ σ) (rxKey : κ) (s : Session κ σ) : Bool × Session κ σ :=
  match recvAll s.inbox secretstreamHeaderBytes with
  | none => (false, s)
  | some (header, inbox) =>
    match N.secretstream.initPull rxKey header with
    | none => (false, { s with inbox := inbox })
    | some state => (true, { s with rxState := some ⟨rxKey, header, state, []⟩, inbox := inbox })

/-- The message, if the call gets as far as sealing it. -/
def sealedMessage (S : SecretStream σ) (state : σ) (tag4 bodyA bodyB : Bytes) : List Bytes :=
  if 4 + bodyA.length + bodyB.length > CryptoChannel.kMaxPlaintext then []
  else if (S.push state (tag4 ++ bodyA ++ bodyB)).isSome then [tag4 ++ bodyA ++ bodyB] else []

def sendFrame (N : Sodium κ σ) (link : Link) (tag4 bodyA bodyB : Bytes) (s : Session κ σ) : Bool × Session κ σ :=
  match s.txState with
  | none => (false, s)
  | some tx =>
    let (sent, after) := Framing.sendFrame N.secretstream.toSecretStream link ⟨tx.state, s.written⟩ tag4 bodyA bodyB
    (sent, { s with
      txState := some { tx with
        state := after.txState
        messages := tx.messages ++ sealedMessage N.secretstream.toSecretStream tx.state tag4 bodyA bodyB }
      written := after.written })

def recvFrame (N : Sodium κ σ) (s : Session κ σ) : Option Bytes × Session κ σ :=
  match s.rxState with
  | none => (none, s)
  | some rx =>
    match Framing.recvFrame N.secretstream.toSecretStream rx.state s.inbox with
    | none => (none, s)
    | some (outPlaintext, state, inbox) =>
      (some outPlaintext,
        { s with
          rxState := some { rx with state := state, messages := rx.messages ++ [outPlaintext] }
          inbox := inbox })

/-- `completed` and the check of the deadline behind it. -/
def finish (t : Turn) (s : Session κ σ) : Session κ σ :=
  if t.expired then s.close else { s with stage := .established, authenticated := true }

/-- `ClientHandshake` up to the server's frame. -/
def clientStart (N : Sodium κ σ) (t : Turn) (root : NetworkKey) (keys : NetworkKeys) (localHostId : HostId)
    (localHostNameUtf8 : Bytes) : Session κ σ :=
  let clientKeys := generateKeyPair N t.secretKey
  let localPlaintext :=
    fillHandshakePlaintext clientKeys.publicKey localHostId (localCaps t.build) t.build.osType localHostNameUtf8
  match (opened .client root keys (.reply clientKeys)).sendHandshakeFrame N t localPlaintext with
  | (false, s) => s.close
  | (true, s) => s

/-- From the server's frame up to its header. -/
def clientReply (N : Sodium κ σ) (t : Turn) (clientKeys : KeyPair) (s : Session κ σ) : Session κ σ :=
  match s.receiveHandshakeFrame N with
  | (none, s) => s.close
  | (some remotePlaintext, s) =>
    match N.kx.client clientKeys.publicKey clientKeys.secretKey remotePlaintext.ephemeralPk with
    | none => { s with remotePlaintext := some remotePlaintext }.close
    | some sessionKeys =>
      match { s with remotePlaintext := some remotePlaintext }.sendStreamHeader N t sessionKeys.tx with
      | (false, s) => s.close
      | (true, s) => { s with stage := .serverHeader sessionKeys }

/-- From the server's header to the end. -/
def clientFinish (N : Sodium κ σ) (t : Turn) (sessionKeys : SessionKeys κ) (s : Session κ σ) : Session κ σ :=
  match s.receiveStreamHeader N sessionKeys.rx with
  | (false, s) => s.close
  | (true, s) =>
    match s.sendFrame N t.link kHandshakeDoneTag [] [] with
    | (false, s) => s.close
    | (true, s) => s.finish t

/-- From the client's frame up to its header. -/
def serverHello (N : Sodium κ σ) (t : Turn) (s : Session κ σ) : Session κ σ :=
  match s.receiveHandshakeFrame N with
  | (none, s) => s.close
  | (some remotePlaintext, s) =>
    match loadLocalIdentity t with
    | none => { s with remotePlaintext := some remotePlaintext }.close
    | some (localHostId, localHostNameUtf8) =>
      let serverKeys := generateKeyPair N t.secretKey
      let localPlaintext :=
        fillHandshakePlaintext serverKeys.publicKey localHostId (localCaps t.build) t.build.osType localHostNameUtf8
      match { s with remotePlaintext := some remotePlaintext }.sendHandshakeFrame N t localPlaintext with
      | (false, s) => s.close
      | (true, s) =>
        match N.kx.server serverKeys.publicKey serverKeys.secretKey remotePlaintext.ephemeralPk with
        | none => s.close
        | some sessionKeys => { s with stage := .clientHeader sessionKeys }

/-- From the client's header up to its last word. -/
def serverHeader (N : Sodium κ σ) (t : Turn) (sessionKeys : SessionKeys κ) (s : Session κ σ) : Session κ σ :=
  match s.receiveStreamHeader N sessionKeys.rx with
  | (false, s) => s.close
  | (true, s) =>
    match s.sendStreamHeader N t sessionKeys.tx with
    | (false, s) => s.close
    | (true, s) => { s with stage := .handshakeDone }

/-- `ReceiveHandshakeDone` and the end. -/
def serverFinish (N : Sodium κ σ) (t : Turn) (s : Session κ σ) : Session κ σ :=
  match s.recvFrame N with
  | (none, s) => s.close
  | (some frame, s) => if frame.length ≠ 4 ∨ frame ≠ kHandshakeDoneTag then s.close else s.finish t

def advance (N : Sodium κ σ) (t : Turn) (s : Session κ σ) : Session κ σ :=
  match s.stage with
  | .reply clientKeys => s.clientReply N t clientKeys
  | .serverHeader sessionKeys => s.clientFinish N t sessionKeys
  | .hello => s.serverHello N t
  | .clientHeader sessionKeys => s.serverHeader N t sessionKeys
  | .handshakeDone => s.serverFinish N t
  | .established | .closed => s

/-- A frame on an established connection; whoever fails to receive drops it. -/
def receive (N : Sodium κ σ) (s : Session κ σ) : Session κ σ :=
  match s.recvFrame N with
  | (none, s) => s.close
  | (some _, s) => s

end Session

/-- All connections there have been, on all hosts. -/
abbrev World (κ σ : Type) := List (Session κ σ)

/-- The network brings any bytes to any session, whenever it likes. -/
inductive Event where
  | dial (root : NetworkKey) (localHostId : HostId) (localHostNameUtf8 : Bytes) (t : Turn)
  | accept (root : NetworkKey)
  | deliver (k : Nat) (chunk : Bytes)
  | advance (k : Nat) (t : Turn)
  | send (k : Nat) (frame : Framing.Frame) (link : Link)
  | receive (k : Nat)

namespace World

def go (w : World κ σ) (k : Nat) (f : Session κ σ → Option (Session κ σ)) : Option (World κ σ) := do
  let s ← w[k]?
  let next ← f s
  pure (w.set k next)

def step (N : Sodium κ σ) (w : World κ σ) : Event → Option (World κ σ)
  | .dial root localHostId localHostNameUtf8 t =>
    (getKeys N root).map fun keys => w ++ [Session.clientStart N t root keys localHostId localHostNameUtf8]
  | .accept root => (getKeys N root).map fun keys => w ++ [Session.opened .server root keys .hello]
  | .deliver k chunk => w.go k fun s => some (s.deliver chunk)
  | .advance k t => w.go k fun s => some (s.advance N t)
  | .send k frame link => w.go k fun s =>
    if s.authenticated then some (s.sendFrame N link frame.tag4 frame.bodyA frame.bodyB).2 else none
  | .receive k => w.go k fun s => if s.authenticated then some (s.receive N) else none

end World

def FreshKey (N : Sodium κ σ) (w : World κ σ) (secretKey : Bytes) : Prop :=
  ∀ t ∈ w, ∀ p ∈ t.localPlaintext, p.ephemeralPk ≠ N.kx.publicKey secretKey

/-- What the session is about to open under a network key was sealed under it. -/
def BoxGenuine (N : Sodium κ σ) (w : World κ σ) (s : Session κ σ) : Prop :=
  ∀ taken ∈ recvAll s.inbox handshakeFrameBytes, ∀ plain ∈ boxPlain N s.openKey taken.1,
    ∃ t ∈ w, t.sealKey = s.openKey ∧ ∃ p ∈ t.localPlaintext, p.bytes = plain

/-- What the session is about to open on a stream whose key comes from two key pairs of sessions was sealed on a
    stream of the same start, behind the messages opened before it. -/
def StreamGenuine (N : Sodium κ σ) (w : World κ σ) (s : Session κ σ) : Prop :=
  ∀ rx ∈ s.rxState, ∀ remote ∈ s.remotePlaintext,
    (∃ t ∈ w, ∃ p ∈ t.localPlaintext, p.ephemeralPk = remote.ephemeralPk) →
    ∀ taken ∈ Framing.recvFrame N.secretstream.toSecretStream rx.state s.inbox,
      ∃ t ∈ w, ∃ tx ∈ t.txState, tx.key = rx.key ∧ tx.header = rx.header ∧ rx.messages ++ [taken.1] <+: tx.messages

/-- What the stretch behind a stage opens is genuine, and what it draws is new. -/
def GenuineAt (N : Sodium κ σ) (w : World κ σ) (t : Turn) (s : Session κ σ) : Stage κ → Prop
  | .reply _ => BoxGenuine N w s
  | .hello => BoxGenuine N w s ∧ FreshKey N w t.secretKey
  | .handshakeDone => StreamGenuine N w s
  | .serverHeader _ | .clientHeader _ | .established | .closed => True

/-- Key pairs are new, and nothing opens that was not sealed. -/
def Genuine (N : Sodium κ σ) (w : World κ σ) : Event → Prop
  | .dial _ _ _ t => FreshKey N w t.secretKey
  | .advance k t => ∀ s ∈ w[k]?, GenuineAt N w t s s.stage
  | .receive k => ∀ s ∈ w[k]?, StreamGenuine N w s
  | .accept _ | .deliver _ _ | .send _ _ _ => True

end ClippModel.Wire.Handshake
