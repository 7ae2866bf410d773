import Clipp.Wire.HandshakeAgreement

open Foundation

namespace ClippProof.Wire.Handshake

open ClippModel.Clipboard ClippModel.Keys ClippModel.Peers ClippModel.Persistence ClippModel.Registers ClippModel.Wire
  ClippModel.Wire.Framing ClippModel.Wire.Handshake ClippProof.Peers ClippProof.Wire
open CryptoChannel (kMaxCiphertextMessageBytes kMaxPlaintext secretstreamABytes)

variable {κ σ : Type} {N : Sodium κ σ} {s : Session κ σ} {t : Turn} {p : HandshakePlaintext} {keys : SessionKeys κ}
  {key : NetworkKey} {nonce : Sized secretboxNonceBytes} {inbox : List Bytes} {inStep : σ → σ → Prop}

/-- The library as it is documented, but for its secrets. -/
structure Works (N : Sodium κ σ) (inStep : σ → σ → Prop) : Prop where
  box : N.secretbox.Correct networkKeySize secretboxMacBytes
  kx : N.kx.Ideal
  stream : N.secretstream.Ideal secretstreamABytes inStep

/-- The socket takes what it is given, in time. -/
structure Reliable (t : Turn) : Prop where
  link : ∀ written buffer, t.link written buffer = none
  inTime : t.expired = false

section Stretches

theorem sendAll_reliable (reliable : Reliable t) (written buffer : Bytes) :
    sendAll t.link written buffer = (true, written ++ buffer) := by
  rw [sendAll, reliable.link]

theorem boxPlain_sealed (works : Works N inStep) :
    boxPlain N key (sealHandshakeFrame N nonce p key) = some p.bytes := by
  have opened := works.box.opens ⟨key.val, nonce.val, [], p.bytes⟩ key.property
  rw [boxPlain, sealHandshakeFrame, List.take_left' nonce.property, List.drop_left' nonce.property]
  exact opened

theorem sealed_length (works : Works N inStep) : (sealHandshakeFrame N nonce p key).length = handshakeFrameBytes := by
  have size := works.box.size ⟨key.val, nonce.val, [], p.bytes⟩ key.property
  have plain := plaintext_length p
  rw [Aead.cipherOf] at size
  rw [sealHandshakeFrame, List.length_append, size, nonce.property, handshakeFrameBytes, plain]
  omega

theorem receive_sealed (works : Works N inStep) (brought : s.inbox.flatten = sealHandshakeFrame N nonce p s.openKey) :
    ∃ rest, rest.flatten = [] ∧
      recvAll s.inbox handshakeFrameBytes = some (sealHandshakeFrame N nonce p s.openKey, rest) ∧
      s.receiveHandshakeFrame N = (some p, { s with inbox := rest }) := by
  obtain ⟨rest, taken, left⟩ := recvAll_front (brought.trans (List.append_nil _).symm)
  rw [sealed_length works] at taken
  refine ⟨rest, left, taken, ?_⟩
  simp only [Session.receiveHandshakeFrame, taken, openHandshakeFrame, boxPlain_sealed works, Option.bind_some,
    (reads_plaintext p).whole]

theorem receiveStreamHeader_started {state : σ} (header : Sized secretstreamHeaderBytes)
    (brought : s.inbox.flatten = header.val) (started : N.secretstream.initPull keys.rx header.val = some state) :
    ∃ rest, rest.flatten = [] ∧ s.receiveStreamHeader N keys.rx =
      (true, { s with rxState := some ⟨keys.rx, header.val, state, []⟩, inbox := rest }) := by
  obtain ⟨rest, taken, left⟩ := recvAll_front (brought.trans (List.append_nil _).symm)
  rw [header.property] at taken
  refine ⟨rest, left, ?_⟩
  simp only [Session.receiveStreamHeader, taken, started]

theorem sendStreamHeader_started {state : σ} (reliable : Reliable t)
    (started : N.secretstream.initPush keys.tx t.header.val = some state) :
    s.sendStreamHeader N t keys.tx =
      (true, { s with txState := some ⟨keys.tx, t.header.val, state, []⟩, written := s.written ++ t.header.val }) := by
  simp only [Session.sendStreamHeader, started, sendAll_reliable reliable]

theorem sendDone (works : Works N inStep) (reliable : Reliable t) {tx : Strand κ σ} (sending : s.txState = some tx)
    {cipher : Bytes} {next : σ} (pushed : N.secretstream.push tx.state kHandshakeDoneTag = some (cipher, next)) :
    s.sendFrame N t.link kHandshakeDoneTag [] [] =
      (true, { s with
        txState := some { tx with state := next, messages := tx.messages ++ [kHandshakeDoneTag] }
        written := s.written ++ framed cipher }) := by
  have fits : 4 + ([] : Bytes).length + ([] : Bytes).length ≤ kMaxPlaintext := by decide
  have four : kHandshakeDoneTag.length = 4 := by decide
  obtain ⟨_, _, again, sent⟩ := sendFrame_sent (s := ⟨tx.state, s.written⟩) works.stream.toIdeal reliable.link four fits
  simp only [List.append_nil] at again
  obtain ⟨rfl, rfl⟩ := Prod.mk.inj (Option.some.inj (pushed.symm.trans again))
  have small : ¬ 4 + ([] : Bytes).length + ([] : Bytes).length > kMaxPlaintext := by decide
  simp only [Session.sendFrame, sending, sent, Session.sealedMessage, if_neg small, List.append_nil, pushed,
    Option.isSome_some, if_true]

theorem recvDone (works : Works N inStep) {rx : Strand κ σ} {tx next : σ} {cipher : Bytes} (step : inStep tx rx.state)
    (pushed : N.secretstream.push tx kHandshakeDoneTag = some (cipher, next))
    (brought : s.inbox.flatten = framed cipher) :
    ∃ further rest, rest.flatten = [] ∧ inStep next further ∧
      Framing.recvFrame N.secretstream.toSecretStream rx.state s.inbox = some (kHandshakeDoneTag, further, rest) := by
  obtain ⟨_, _, again, size⟩ := works.stream.seals tx kHandshakeDoneTag
  obtain ⟨rfl, rfl⟩ := Prod.mk.inj (Option.some.inj (pushed.symm.trans again))
  have long : kHandshakeDoneTag.length = 4 := by decide
  have valid : isCiphertextMessageSizeValid cipher.length = true := by
    rw [isCiphertextMessageSizeValid_iff, size, long]
    decide
  obtain ⟨further, rest, received, kept, left⟩ := recvFrame_taken works.stream.toIdeal step pushed
    (brought.trans (List.append_nil _).symm) valid
  exact ⟨further, rest, left, kept, received⟩

end Stretches

section Names

variable {device : DeviceName} {fallback : Option Bytes}

theorem remoteHostName_sent (named : WellNamed device fallback) :
    remoteHostName (handshakeHostName (getLocalPeerDisplayName device fallback hostnameMaxBytes)) =
      getLocalPeerDisplayName device fallback hostnameMaxBytes :=
  (strncpys_name (displayName_fits named (by decide))).2

theorem loadLocalIdentity_named {hostId : HostId} (named : WellNamed t.device none) (host : t.hostId = some hostId)
    (something : getLocalPeerDisplayName t.device none hostnameMaxBytes ≠ []) :
    ∃ name, loadLocalIdentity t = some (hostId, name) ∧
      remoteHostName (handshakeHostName name) = getLocalPeerDisplayName t.device none hostnameMaxBytes := by
  have fits := displayName_fits named (show 5 ≤ hostnameMaxBytes by decide)
  obtain ⟨copied, held⟩ := copy_holds (zeroBytes hostnameMaxBytes) fits
  rw [decide_eq_true something] at copied
  refine ⟨(copyLocalPeerDisplayName t.device none (zeroBytes hostnameMaxBytes)).2.val, ?_, ?_⟩
  · simp [loadLocalIdentity, host, copied]
  have short : (upTo 0 (copyLocalPeerDisplayName t.device none (zeroBytes hostnameMaxBytes)).2.val).length <
      hostnameMaxBytes := by
    rw [held.2]
    exact fits.terminated
  have kept : Holds (handshakeHostName (copyLocalPeerDisplayName t.device none (zeroBytes hostnameMaxBytes)).2.val) _ :=
    strncpys_holds short
  rw [held.2] at kept
  exact kept.2

end Names

def holding (s : Session κ σ) (inbox : List Bytes) : Session κ σ := { s with inbox := inbox }

theorem holding_stage (s : Session κ σ) (inbox : List Bytes) : (holding s inbox).stage = s.stage := rfl

section Advances

variable {hostId : HostId} {name : Bytes} {clientKeys : KeyPair} {header : Sized secretstreamHeaderBytes}
  {tx rx : Strand κ σ} {state : σ}

def offerOf (N : Sodium κ σ) (t : Turn) (hostId : HostId) (name : Bytes) : HandshakePlaintext :=
  fillHandshakePlaintext (N.kx.publicKey t.secretKey) hostId (localCaps t.build) t.build.osType name

theorem clientStart_reliable (reliable : Reliable t) (root : NetworkKey) (keys : NetworkKeys) :
    Session.clientStart N t root keys hostId name =
      { Session.opened .client root keys (.reply (generateKeyPair N t.secretKey)) with
        localPlaintext := some (offerOf N t hostId name)
        written := sealHandshakeFrame N t.nonce (offerOf N t hostId name) keys.clientToServer } := by
  simp only [Session.clientStart, Session.sendHandshakeFrame, sendAll_reliable reliable, generateKeyPair]
  rfl

theorem hello_advance (works : Works N inStep) (reliable : Reliable t) (here : s.stage = .hello)
    (brought : inbox.flatten = sealHandshakeFrame N nonce p s.openKey)
    (identity : loadLocalIdentity t = some (hostId, name))
    (derived : N.kx.server (N.kx.publicKey t.secretKey) t.secretKey p.ephemeralPk = some keys) :
    ∃ rest, rest.flatten = [] ∧ (holding s inbox).advance N t = holding
      { s with
        remotePlaintext := some p
        localPlaintext := some (offerOf N t hostId name)
        written := s.written ++ sealHandshakeFrame N t.nonce (offerOf N t hostId name) s.sealKey
        stage := .clientHeader keys } rest := by
  obtain ⟨rest, left, -, received⟩ := receive_sealed (s := holding s inbox) works brought
  refine ⟨rest, left, ?_⟩
  rw [Session.advance, holding_stage, here]
  simp only [Session.serverHello, received, identity, Session.sendHandshakeFrame, sendAll_reliable reliable,
    generateKeyPair, derived]
  rfl

theorem reply_advance (works : Works N inStep) (reliable : Reliable t) (here : s.stage = .reply clientKeys)
    (brought : inbox.flatten = sealHandshakeFrame N nonce p s.openKey)
    (derived : N.kx.client clientKeys.publicKey clientKeys.secretKey p.ephemeralPk = some keys)
    (started : N.secretstream.initPush keys.tx t.header.val = some state) :
    ∃ rest, rest.flatten = [] ∧ (holding s inbox).advance N t = holding
      { s with
        remotePlaintext := some p
        txState := some ⟨keys.tx, t.header.val, state, []⟩
        written := s.written ++ t.header.val
        stage := .serverHeader keys } rest := by
  obtain ⟨rest, left, -, received⟩ := receive_sealed (s := holding s inbox) works brought
  refine ⟨rest, left, ?_⟩
  rw [Session.advance, holding_stage, here]
  simp only [Session.clientReply, received, derived, sendStreamHeader_started reliable started]
  rfl

theorem clientHeader_advance {further : σ} (reliable : Reliable t) (here : s.stage = .clientHeader keys)
    (brought : inbox.flatten = header.val) (listens : N.secretstream.initPull keys.rx header.val = some state)
    (started : N.secretstream.initPush keys.tx t.header.val = some further) :
    ∃ rest, rest.flatten = [] ∧ (holding s inbox).advance N t = holding
      { s with
        rxState := some ⟨keys.rx, header.val, state, []⟩
        txState := some ⟨keys.tx, t.header.val, further, []⟩
        written := s.written ++ t.header.val
        stage := .handshakeDone } rest := by
  obtain ⟨rest, left, received⟩ := receiveStreamHeader_started (s := holding s inbox) header brought listens
  refine ⟨rest, left, ?_⟩
  rw [Session.advance, holding_stage, here]
  simp only [Session.serverHeader, received, sendStreamHeader_started reliable started]
  rfl

theorem serverHeader_advance (works : Works N inStep) (reliable : Reliable t) (here : s.stage = .serverHeader keys)
    (sending : s.txState = some tx) (brought : inbox.flatten = header.val)
    (listens : N.secretstream.initPull keys.rx header.val = some state) {cipher : Bytes} {next : σ}
    (pushed : N.secretstream.push tx.state kHandshakeDoneTag = some (cipher, next)) :
    ∃ rest, rest.flatten = [] ∧ (holding s inbox).advance N t = holding
      { s with
        rxState := some ⟨keys.rx, header.val, state, []⟩
        txState := some { tx with state := next, messages := tx.messages ++ [kHandshakeDoneTag] }
        written := s.written ++ framed cipher
        stage := .established
        authenticated := true } rest := by
  obtain ⟨rest, left, received⟩ := receiveStreamHeader_started (s := holding s inbox) header brought listens
  have sent := sendDone (N := N) (s := { holding s rest with rxState := some ⟨keys.rx, header.val, state, []⟩ })
    works reliable sending pushed
  refine ⟨rest, left, ?_⟩
  rw [Session.advance, holding_stage, here]
  simp only [holding] at received sent
  simp only [Session.clientFinish, holding, received, sent, Session.finish, reliable.inTime]
  rfl

theorem handshakeDone_advance {cipher : Bytes} {sealing next : σ} (works : Works N inStep) (reliable : Reliable t)
    (here : s.stage = .handshakeDone) (hearing : s.rxState = some rx) (step : inStep sealing rx.state)
    (pushed : N.secretstream.push sealing kHandshakeDoneTag = some (cipher, next))
    (brought : inbox.flatten = framed cipher) :
    ∃ further rest, rest.flatten = [] ∧ inStep next further ∧ (holding s inbox).advance N t = holding
      { s with
        rxState := some { rx with state := further, messages := rx.messages ++ [kHandshakeDoneTag] }
        stage := .established
        authenticated := true } rest := by
  obtain ⟨further, rest, left, kept, received⟩ := recvDone (s := holding s inbox) works step pushed brought
  refine ⟨further, rest, left, kept, ?_⟩
  have done : ¬ (kHandshakeDoneTag.length ≠ 4 ∨ kHandshakeDoneTag ≠ kHandshakeDoneTag) := by decide
  have listening : (holding s inbox).rxState = some rx := hearing
  rw [Session.advance, holding_stage, here]
  simp only [Session.serverFinish, Session.recvFrame, listening, received, if_neg done, Session.finish, reliable.inTime]
  rfl

end Advances

section Pairs

variable {w : World κ σ} {c : Session κ σ} {chunks : List Bytes}

def brings (k : Nat) (chunks : List Bytes) (t : Turn) : List Event := chunks.map (.deliver k) ++ [.advance k t]

theorem go_left (f : Session κ σ → Option (Session κ σ)) :
    World.go (w ++ [c, s]) w.length f = (f c).map fun next => w ++ [next, s] := by
  cases went : f c <;> simp [World.go, went]

theorem go_right (f : Session κ σ → Option (Session κ σ)) :
    World.go (w ++ [c, s]) (w.length + 1) f = (f s).map fun next => w ++ [c, next] := by
  cases went : f s <;> simp [World.go, went]

theorem deliver_left (chunks : List Bytes) : Path (World.step N) (Genuine N) (w ++ [holding c inbox, s])
    (chunks.map (.deliver w.length)) (w ++ [holding c (inbox ++ chunks), s]) := by
  induction chunks generalizing inbox with
  | nil =>
    rw [List.append_nil]
    exact .nil _
  | cons chunk chunks ih =>
    have rest := @ih (inbox ++ [chunk])
    rw [List.append_assoc, List.singleton_append] at rest
    exact .cons trivial (go_left _) rest

theorem deliver_right (chunks : List Bytes) : Path (World.step N) (Genuine N) (w ++ [c, holding s inbox])
    (chunks.map (.deliver (w.length + 1))) (w ++ [c, holding s (inbox ++ chunks)]) := by
  induction chunks generalizing inbox with
  | nil =>
    rw [List.append_nil]
    exact .nil _
  | cons chunk chunks ih =>
    have rest := @ih (inbox ++ [chunk])
    rw [List.append_assoc, List.singleton_append] at rest
    exact .cons trivial (go_right _) rest

theorem brings_left {next : Session κ σ} (chunks : List Bytes)
    (advanced : (holding c (inbox ++ chunks)).advance N t = next)
    (genuine : GenuineAt N (w ++ [holding c (inbox ++ chunks), s]) t (holding c (inbox ++ chunks)) c.stage) :
    Path (World.step N) (Genuine N) (w ++ [holding c inbox, s]) (brings w.length chunks t) (w ++ [next, s]) := by
  apply (deliver_left chunks).append
  apply Path.single
  · intro d found
    obtain rfl : d = holding c (inbox ++ chunks) := by simpa using found.symm
    exact genuine
  · rw [← advanced]
    exact go_left _

theorem brings_right {next : Session κ σ} (chunks : List Bytes)
    (advanced : (holding s (inbox ++ chunks)).advance N t = next)
    (genuine : GenuineAt N (w ++ [c, holding s (inbox ++ chunks)]) t (holding s (inbox ++ chunks)) s.stage) :
    Path (World.step N) (Genuine N) (w ++ [c, holding s inbox]) (brings (w.length + 1) chunks t) (w ++ [c, next]) := by
  apply (deliver_right chunks).append
  apply Path.single
  · intro d found
    obtain rfl : d = holding s (inbox ++ chunks) := by simpa using found.symm
    exact genuine
  · rw [← advanced]
    exact go_right _

end Pairs

/-- A client and a server about to meet, and what the surroundings bring to each stretch of their handshake. -/
structure Meeting where
  root : NetworkKey
  clientId : HostId
  clientDevice : DeviceName
  clientFallback : Option Bytes
  serverId : HostId
  call : Turn
  hello : Turn
  reply : Turn
  header : Turn
  finish : Turn
  done : Turn

namespace Meeting

def clientName (m : Meeting) : Bytes := getLocalPeerDisplayName m.clientDevice m.clientFallback hostnameMaxBytes

def serverName (m : Meeting) : Bytes := getLocalPeerDisplayName m.hello.device none hostnameMaxBytes

/-- Both can say who they are, draw new key pairs and have sockets that work. -/
structure Ready (N : Sodium κ σ) (w : World κ σ) (m : Meeting) : Prop where
  keys : (getKeys N m.root).isSome = true
  reliable : ∀ t ∈ [m.call, m.hello, m.reply, m.header, m.finish, m.done], Reliable t
  clientKey : FreshKey N w m.call.secretKey
  serverKey : FreshKey N w m.hello.secretKey
  apart : N.kx.publicKey m.call.secretKey ≠ N.kx.publicKey m.hello.secretKey
  clientNamed : WellNamed m.clientDevice m.clientFallback
  serverNamed : WellNamed m.hello.device none
  serverHost : m.hello.hostId = some m.serverId
  something : m.serverName ≠ []

/-- The client calls as the next session of a world and the server answers as the one behind it; each is brought
    what the other wrote, in these chunks. -/
def events (m : Meeting) (n : Nat) (first second third fourth fifth : List Bytes) : List Event :=
  [.dial m.root m.clientId m.clientName m.call, .accept m.root] ++ (brings (n + 1) first m.hello ++
    (brings n second m.reply ++ (brings (n + 1) third m.header ++ (brings n fourth m.finish ++
      brings (n + 1) fifth m.done))))

end Meeting

/-- Whatever frames the one sends over a socket that works, the other receives those that are not too long. -/
def Carries (N : Sodium κ σ) (a b : Session κ σ) : Prop :=
  ∃ tx ∈ a.txState, ∃ rx ∈ b.rxState, ∀ (link : Link) (frames : List Framing.Frame),
    (∀ written buffer, link written buffer = none) → ∀ chunks calls,
      chunks.flatten = (sendFrames N.secretstream.toSecretStream link ⟨tx.state, []⟩ frames).2.written →
      recvFrames N.secretstream.toSecretStream calls rx.state (b.inbox ++ chunks) =
        ((frames.filter fun f => f.message.length ≤ kMaxPlaintext).map Framing.Frame.message).take calls

structure Met (N : Sodium κ σ) (m : Meeting) (c s : Session κ σ) : Prop where
  clientDone : c.authenticated = true
  serverDone : s.authenticated = true
  clientSees : c.remotePlaintext.map copyRemoteIdentity =
    some ⟨m.serverId, localCaps m.hello.build, m.hello.build.osType, m.serverName⟩
  serverSees : s.remotePlaintext.map copyRemoteIdentity =
    some ⟨m.clientId, localCaps m.call.build, m.call.build.osType, m.clientName⟩
  toServer : Carries N c s
  toClient : Carries N s c

section Meetings

variable {w : World κ σ} {c : Session κ σ} {m : Meeting}

theorem delivered_filter (frames : List Framing.Frame) :
    delivered (frames.map fun f => (f, decide (f.message.length ≤ kMaxPlaintext))) =
      (frames.filter fun f => f.message.length ≤ kMaxPlaintext).map Framing.Frame.message := by
  induction frames with
  | nil => rfl
  | cons f frames ih =>
    by_cases fits : f.message.length ≤ kMaxPlaintext
    · simpa [delivered, fits] using ih
    · simpa [delivered, fits] using ih

theorem carries_of_inStep (works : Works N inStep) {tx rx : Strand κ σ} (sending : c.txState = some tx)
    (hearing : s.rxState = some rx) (step : inStep tx.state rx.state) (read : s.inbox.flatten = []) :
    Carries N c s := by
  refine ⟨tx, sending, rx, hearing, fun link frames reliable chunks calls brought => ?_⟩
  obtain ⟨results, bytes, written, sealed⟩ := sendFrames_sealed works.stream.toIdeal reliable ⟨tx.state, []⟩ frames
  rw [written, List.nil_append] at brought
  rw [results, delivered_filter] at sealed
  have incoming : (s.inbox ++ chunks).flatten = bytes := by rw [List.flatten_append, read, brought, List.nil_append]
  apply recvFrames_sealed works.stream.toIdeal sealed step _ incoming
  intro message member
  rw [← delivered_filter] at member
  exact delivered_sized member

theorem boxGenuine_sealed (works : Works N inStep)
    (brought : s.inbox.flatten = sealHandshakeFrame N nonce p s.openKey) (member : c ∈ w) (key : c.sealKey = s.openKey)
    (offered : p ∈ c.localPlaintext) : BoxGenuine N w s := by
  obtain ⟨rest, -, taken, -⟩ := receive_sealed works brought
  intro got found plain decrypted
  obtain rfl := Option.some.inj (taken.symm.trans found)
  obtain rfl := Option.some.inj ((boxPlain_sealed works).symm.trans decrypted)
  exact ⟨c, member, key, p, offered, rfl⟩

theorem streamGenuine_done (works : Works N inStep) {tx rx : Strand κ σ} {sealing next : σ} {cipher : Bytes}
    (hearing : s.rxState = some rx) (step : inStep sealing rx.state)
    (pushed : N.secretstream.push sealing kHandshakeDoneTag = some (cipher, next))
    (brought : s.inbox.flatten = framed cipher) (member : c ∈ w) (under : c.txState = some tx)
    (follows : Strand.Follows { rx with messages := rx.messages ++ [kHandshakeDoneTag] } tx) : StreamGenuine N w s := by
  obtain ⟨further, rest, -, -, received⟩ := recvDone works step pushed brought
  intro rx' hearing' theirs _ _ got found
  obtain rfl := Option.some.inj (hearing.symm.trans hearing')
  obtain rfl := Option.some.inj (received.symm.trans found)
  exact ⟨c, member, tx, under, follows.key, follows.header, follows.messages⟩

theorem freshKey_append {secretKey : Bytes} (fresh : FreshKey N w secretKey) {more : World κ σ}
    (apart : ∀ t ∈ more, ∀ p ∈ t.localPlaintext, p.ephemeralPk ≠ N.kx.publicKey secretKey) :
    FreshKey N (w ++ more) secretKey := by
  intro t member p offered
  rcases List.mem_append.mp member with old | new
  · exact fresh t old p offered
  · exact apart t new p offered

theorem flatten_brought {inbox chunks : List Bytes} {bytes : Bytes} (read : inbox.flatten = [])
    (brought : chunks.flatten = bytes) : (inbox ++ chunks).flatten = bytes := by
  rw [List.flatten_append, read, brought, List.nil_append]

variable {networkKeys : NetworkKeys}

def caller (N : Sodium κ σ) (m : Meeting) (networkKeys : NetworkKeys) : Session κ σ :=
  { Session.opened .client m.root networkKeys (.reply (generateKeyPair N m.call.secretKey)) with
    localPlaintext := some (offerOf N m.call m.clientId m.clientName)
    written :=
      sealHandshakeFrame N m.call.nonce (offerOf N m.call m.clientId m.clientName) networkKeys.clientToServer }

def callee (m : Meeting) (networkKeys : NetworkKeys) : Session κ σ := .opened .server m.root networkKeys .hello

theorem meeting_started (reliable : Reliable m.call) (fresh : FreshKey N w m.call.secretKey)
    (derived : getKeys N m.root = some networkKeys) :
    Path (World.step N) (Genuine N) w [.dial m.root m.clientId m.clientName m.call, .accept m.root]
      (w ++ [holding (caller N m networkKeys) [], holding (callee m networkKeys) []]) := by
  have called : World.step N w (.dial m.root m.clientId m.clientName m.call) =
      some (w ++ [holding (caller N m networkKeys) []]) := by
    simp only [World.step, derived, Option.map_some, clientStart_reliable reliable]
    rfl
  have accepted : World.step N (w ++ [holding (caller N m networkKeys) []]) (.accept m.root) =
      some (w ++ [holding (caller N m networkKeys) [], holding (callee m networkKeys) []]) := by
    simp only [World.step, derived, Option.map_some, List.append_assoc, List.singleton_append]
    rfl
  exact .cons fresh called (.single trivial accepted)

/-- The key pair of the server is still new behind the two. -/
theorem Meeting.Ready.serverFresh (ready : m.Ready N w) (inbox : List Bytes) :
    FreshKey N (w ++ [holding (caller N m networkKeys) [], holding (callee m networkKeys) inbox])
      m.hello.secretKey := by
  apply freshKey_append ready.serverKey
  intro t member r offered
  rcases List.mem_cons.mp member with rfl | member
  · obtain rfl := Option.some.inj offered
    exact ready.apart
  · obtain rfl := List.mem_singleton.mp member
    exact absurd offered (Option.not_mem_none r)

theorem copyRemoteIdentity_offerOf (N : Sodium κ σ) (t : Turn) (hostId : HostId) (name : Bytes) :
    copyRemoteIdentity (offerOf N t hostId name) =
      ⟨hostId, localCaps t.build, t.build.osType, remoteHostName (handshakeHostName name)⟩ := rfl

/-- In any world, at any time, two that are ready connect if nothing is lost or changed on the way, however it is
    cut up. -/
theorem undisturbed_handshake_completes (works : Works N inStep) (ready : m.Ready N w) :
    ∃ first second third fourth fifth : Bytes, ∀ b₁ b₂ b₃ b₄ b₅ : List Bytes,
      b₁.flatten = first → b₂.flatten = second → b₃.flatten = third → b₄.flatten = fourth → b₅.flatten = fifth →
      ∃ c s, Path (World.step N) (Genuine N) w (m.events w.length b₁ b₂ b₃ b₄ b₅) (w ++ [c, s]) ∧
        c.written = first ++ third ++ fifth ∧ s.written = second ++ fourth ∧ Met N m c s := by
  obtain ⟨networkKeys, derived⟩ := Option.isSome_iff_exists.mp ready.keys
  obtain ⟨name, identity, shownName⟩ := loadLocalIdentity_named ready.serverNamed ready.serverHost ready.something
  obtain ⟨keys, clientKeys, serverKeys⟩ := works.kx.agrees m.call.secretKey m.hello.secretKey
  obtain ⟨tx, rx, sending, listening, step⟩ := works.stream.starts keys.tx m.reply.header.val
  obtain ⟨tx', rx', sending', listening', step'⟩ := works.stream.starts keys.rx m.header.header.val
  obtain ⟨cipher, next, pushed, -⟩ := works.stream.seals tx kHandshakeDoneTag
  have reliable := ready.reliable
  simp only [List.mem_cons, List.not_mem_nil, or_false, forall_eq_or_imp, forall_eq] at reliable
  obtain ⟨r₁, r₂, r₃, r₄, r₅, r₆⟩ := reliable
  let p := offerOf N m.call m.clientId m.clientName
  let q := offerOf N m.hello m.serverId name
  refine ⟨sealHandshakeFrame N m.call.nonce p networkKeys.clientToServer,
    sealHandshakeFrame N m.hello.nonce q networkKeys.serverToClient, m.reply.header.val, m.header.header.val,
    framed cipher, ?_⟩
  intro b₁ b₂ b₃ b₄ b₅ e₁ e₂ e₃ e₄ e₅
  let c₀ : Session κ σ := caller N m networkKeys
  let s₀ : Session κ σ := callee m networkKeys
  let s₁ : Session κ σ := { s₀ with
    remotePlaintext := some p
    localPlaintext := some q
    written := s₀.written ++ sealHandshakeFrame N m.hello.nonce q s₀.sealKey
    stage := .clientHeader keys.swap }
  let c₁ : Session κ σ := { c₀ with
    remotePlaintext := some q
    txState := some ⟨keys.tx, m.reply.header.val, tx, []⟩
    written := c₀.written ++ m.reply.header.val
    stage := .serverHeader keys }
  let s₂ : Session κ σ := { s₁ with
    rxState := some ⟨keys.tx, m.reply.header.val, rx, []⟩
    txState := some ⟨keys.rx, m.header.header.val, tx', []⟩
    written := s₁.written ++ m.header.header.val
    stage := .handshakeDone }
  let c₂ : Session κ σ := { c₁ with
    rxState := some ⟨keys.rx, m.header.header.val, rx', []⟩
    txState := some ⟨keys.tx, m.reply.header.val, next, [kHandshakeDoneTag]⟩
    written := c₁.written ++ framed cipher
    stage := .established
    authenticated := true }
  have started := meeting_started r₁ ready.clientKey derived
  -- The server reads the call and answers it.
  obtain ⟨j₁, left₁, answered⟩ := hello_advance (s := s₀) works r₂ rfl (flatten_brought List.flatten_nil e₁) identity serverKeys
  have first := brings_right (w := w) (c := holding c₀ []) b₁ answered
    ⟨boxGenuine_sealed works (flatten_brought List.flatten_nil e₁) (List.mem_append_right _ List.mem_cons_self) rfl rfl,
      ready.serverFresh b₁⟩
  -- The client reads the answer and sends its header.
  obtain ⟨i₁, read₁, agreed⟩ :=
    reply_advance (s := c₀) (p := q) works r₃ rfl (flatten_brought List.flatten_nil e₂) clientKeys sending
  have second := brings_left (w := w) (s := holding s₁ j₁) b₂ agreed
    (boxGenuine_sealed works (flatten_brought List.flatten_nil e₂)
      (List.mem_append_right _ (List.mem_cons_of_mem _ List.mem_cons_self)) rfl rfl)
  -- The server reads the header and sends its own.
  obtain ⟨j₂, left₂, headed⟩ := clientHeader_advance (s := s₁) r₄ rfl (flatten_brought left₁ e₃) listening sending'
  have third := brings_right (w := w) (c := holding c₁ i₁) b₃ headed trivial
  -- The client reads that one and is done.
  obtain ⟨i₂, read₂, finished⟩ := serverHeader_advance (s := c₁) works r₅ rfl rfl (flatten_brought read₁ e₄) listening' pushed
  have fourth := brings_left (w := w) (s := holding s₂ j₂) b₄ finished trivial
  obtain ⟨further, j₃, left₃, step'', completed⟩ :=
    handshakeDone_advance (s := s₂) works r₆ rfl rfl step pushed (flatten_brought left₂ e₅)
  have fifth := brings_right (w := w) (c := holding c₂ i₂) b₅ completed
    (streamGenuine_done works rfl step pushed (flatten_brought left₂ e₅) (List.mem_append_right _ List.mem_cons_self) rfl
      ⟨rfl, rfl, List.prefix_rfl⟩)
  refine ⟨_, _, started.append (first.append (second.append (third.append (fourth.append fifth)))), rfl, rfl,
    ⟨rfl, rfl, ?_, ?_, carries_of_inStep works rfl rfl step'' left₃, carries_of_inStep works rfl rfl step' read₂⟩⟩
  · have seen := copyRemoteIdentity_offerOf N m.hello m.serverId name
    rw [shownName] at seen
    exact congrArg some seen
  · have seen := copyRemoteIdentity_offerOf N m.call m.clientId m.clientName
    rw [Meeting.clientName, remoteHostName_sent ready.clientNamed] at seen
    exact congrArg some seen

def exampleMeeting : Meeting where
  root := Keys.TwoThreads.oldKey
  clientId := laptop
  clientDevice := hostDevice (some (ascii "lap"))
  clientFallback := none
  serverId := desktop
  call := turnOf 3 laptop
  hello := turnOf 4 desktop
  reply := turnOf 3 laptop
  header := turnOf 4 desktop
  finish := turnOf 3 laptop
  done := turnOf 4 desktop

theorem plainSodium_works : Works plainSodium (· = ·) where
  box := Aead.keyTagged_correct (by decide)
  kx := KeyExchange.named_ideal padded
  stream := KeyedStream.counted_ideal _ _

theorem turnOf_reliable (n : UInt8) (hostId : HostId) : Reliable (turnOf n hostId) := ⟨fun _ _ => rfl, rfl⟩

theorem lap_meets_den : ∃ first second third fourth fifth : Bytes, ∀ b₁ b₂ b₃ b₄ b₅ : List Bytes,
    b₁.flatten = first → b₂.flatten = second → b₃.flatten = third → b₄.flatten = fourth → b₅.flatten = fifth →
    ∃ c s, Path (World.step plainSodium) (Genuine plainSodium) [] (exampleMeeting.events 0 b₁ b₂ b₃ b₄ b₅) [c, s] ∧
      c.written = first ++ third ++ fifth ∧ s.written = second ++ fourth ∧ Met plainSodium exampleMeeting c s := by
  have lap : WellNamed exampleMeeting.clientDevice exampleMeeting.clientFallback :=
    ⟨⟨"lap".toList, by decide⟩, ⟨"unknown".toList, by decide⟩⟩
  have den : WellNamed exampleMeeting.hello.device none :=
    ⟨⟨"den".toList, by decide⟩, ⟨"unknown".toList, by decide⟩⟩
  refine undisturbed_handshake_completes (w := []) plainSodium_works
    ⟨by decide, ?_, by decide, by decide, by decide, lap, den, rfl, by decide⟩
  intro t member
  simp only [exampleMeeting, List.mem_cons, List.not_mem_nil, or_false] at member
  rcases member with rfl | rfl | rfl | rfl | rfl | rfl <;> exact turnOf_reliable _ _

end Meetings

end ClippProof.Wire.Handshake
