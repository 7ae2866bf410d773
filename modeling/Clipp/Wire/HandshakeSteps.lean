import Clipp.Foundation.Machine
import Clipp.Wire.Handshake
import Mathlib.Logic.Relation

open Foundation

namespace ClippProof.Wire.Handshake

open ClippModel.Clipboard ClippModel.Keys ClippModel.Persistence ClippModel.Registers ClippModel.Wire
  ClippModel.Wire.Framing ClippModel.Wire.Handshake ClippModel.Wire.RegisterWire ClippProof.Clipboard ClippProof.Wire

variable {κ σ : Type} {N : Sodium κ σ} {w : World κ σ} {s s' : Session κ σ} {t : Turn} {p q : HandshakePlaintext}
  {keys : SessionKeys κ}

section Plaintext

theorem reads_plaintext (p : HandshakePlaintext) : Reader.Reads readPlaintext p.bytes p := by
  have os : p.osType.toNat < 256 ^ 2 := p.osType.toNat_lt
  have read : Reader.Reads readPlaintext _ _ :=
    (reads_sized p.ephemeralPk).bind ((reads_hostId p.hostId).bind ((reads_sized p.caps).bind
      ((Reader.Reads.int os).bind ((reads_sized p.hostNameUTF8).bind (Reader.Reads.pure _)))))
  simpa only [HandshakePlaintext.bytes, UInt16.ofNat_toNat] using read

theorem plaintext_length (p : HandshakePlaintext) : p.bytes.length = plaintextBytes := by
  simp only [HandshakePlaintext.bytes, List.length_append, bigEndian_length, p.ephemeralPk.property, p.hostId.size,
    p.caps.property, p.hostNameUTF8.property, List.length_nil]
  rfl

end Plaintext

def Computed (N : Sodium κ σ) (s : Session κ σ) (keys : SessionKeys κ) : Prop :=
  ∃ mine ∈ s.localPlaintext, ∃ theirs ∈ s.remotePlaintext, ∃ secret, mine.ephemeralPk = N.kx.publicKey secret ∧
    match s.role with
    | .client => N.kx.client mine.ephemeralPk secret theirs.ephemeralPk = some keys
    | .server => N.kx.server mine.ephemeralPk secret theirs.ephemeralPk = some keys

def Offered (w : World κ σ) (key : NetworkKey) (p : HandshakePlaintext) : Prop :=
  ∃ t ∈ w, t.sealKey = key ∧ p ∈ t.localPlaintext

def Streamed (w : World κ σ) (rx : Strand κ σ) : Prop := ∃ t ∈ w, ∃ tx ∈ t.txState, rx.Follows tx

def Unused (N : Sodium κ σ) (w : World κ σ) (p : HandshakePlaintext) : Prop :=
  (∃ secret, p.ephemeralPk = N.kx.publicKey secret) ∧ ∀ t ∈ w, ∀ q ∈ t.localPlaintext, q.ephemeralPk ≠ p.ephemeralPk

/-- The protocol without its bytes: what a party can do among the others. -/
inductive Move (N : Sodium κ σ) (w : World κ σ) : Session κ σ → Session κ σ → Prop where
  | quiet (s : Session κ σ) (stage : Stage κ) (inbox : List Bytes) (written : Bytes) :
      Move N w s { s with stage := stage, inbox := inbox, written := written }
  | offer {s : Session κ σ} {p : HandshakePlaintext} (first : s.localPlaintext = none) (early : s.txState = none)
      (deaf : s.rxState = none) (unused : Unused N w p) : Move N w s { s with localPlaintext := some p }
  | learn {s : Session κ σ} {p : HandshakePlaintext} (early : s.txState = none)
      (deaf : s.rxState = none) (offered : Offered w s.openKey p) : Move N w s { s with remotePlaintext := some p }
  | startTx {s : Session κ σ} {keys : SessionKeys κ} (header : Bytes) (state : σ) (first : s.txState = none)
      (computed : Computed N s keys) : Move N w s { s with txState := some ⟨keys.tx, header, state, []⟩ }
  | startRx {s : Session κ σ} {keys : SessionKeys κ} (header : Bytes) (state : σ) (first : s.rxState = none)
      (computed : Computed N s keys) : Move N w s { s with rxState := some ⟨keys.rx, header, state, []⟩ }
  | push {s : Session κ σ} {tx : Strand κ σ} (state : σ) (messages : List Bytes) (under : s.txState = some tx) :
      Move N w s { s with txState := some { tx with state := state, messages := tx.messages ++ messages } }
  | pull {s : Session κ σ} {rx : Strand κ σ} (state : σ) (message : Bytes) (under : s.rxState = some rx)
      (streamed : (∃ theirs ∈ s.remotePlaintext, Offered w s.openKey theirs) →
        Streamed w { rx with state := state, messages := rx.messages ++ [message] }) :
      Move N w s { s with rxState := some { rx with state := state, messages := rx.messages ++ [message] } }
  | finish {s : Session κ σ} {tx rx : Strand κ σ} (sending : s.txState = some tx) (hearing : s.rxState = some rx)
      (done : s.role = .server → [kHandshakeDoneTag] <+: rx.messages) : Move N w s { s with authenticated := true }

abbrev Advances (N : Sodium κ σ) (w : World κ σ) : Session κ σ → Session κ σ → Prop := Relation.ReflTransGen (Move N w)

def Staged (N : Sodium κ σ) (s : Session κ σ) : Prop :=
  match s.stage with
  | .reply clientKeys => s.role = .client ∧ s.txState = none ∧ s.rxState = none ∧
      clientKeys.publicKey = N.kx.publicKey clientKeys.secretKey ∧
      ∃ mine ∈ s.localPlaintext, mine.ephemeralPk = clientKeys.publicKey
  | .serverHeader keys => s.role = .client ∧ Computed N s keys ∧ s.txState ≠ none ∧ s.rxState = none
  | .hello => s.role = .server ∧ s.localPlaintext = none ∧ s.txState = none ∧ s.rxState = none
  | .clientHeader keys => s.role = .server ∧ Computed N s keys ∧ s.txState = none ∧ s.rxState = none
  | .handshakeDone => s.role = .server ∧ s.txState ≠ none ∧ ∃ rx ∈ s.rxState, rx.messages = []
  | .established | .closed => True

section Moving

variable {inbox : List Bytes} {written : Bytes} {stage : Stage κ}

theorem Advances.quiet (moved : Advances N w s s') (stage : Stage κ) (inbox : List Bytes) (written : Bytes) :
    Advances N w s { s' with stage := stage, inbox := inbox, written := written } :=
  moved.tail (.quiet s' stage inbox written)

theorem Advances.close (moved : Advances N w s s') : Advances N w s s'.close := moved.quiet .closed s'.inbox s'.written

end Moving

section Primitives

theorem receiveHandshakeFrame_moves (genuine : BoxGenuine N w s) (early : s.txState = none) (deaf : s.rxState = none) :
    ∃ inbox, (s.receiveHandshakeFrame N).2 = { s with inbox := inbox } ∧
      ∀ p ∈ (s.receiveHandshakeFrame N).1, Advances N w s { s with inbox := inbox, remotePlaintext := some p } := by
  rw [Session.receiveHandshakeFrame]
  cases taken : recvAll s.inbox handshakeFrameBytes with
  | none => exact ⟨s.inbox, rfl, fun p missing => absurd missing (Option.not_mem_none p)⟩
  | some result =>
    refine ⟨result.2, rfl, fun p opened => ?_⟩
    obtain ⟨plain, decrypted, read⟩ := Option.bind_eq_some_iff.mp opened
    obtain ⟨t, member, key, q, offered, same⟩ := genuine result taken plain decrypted
    rw [← same, (reads_plaintext q).whole] at read
    obtain rfl := Option.some.inj read
    exact (Advances.quiet .refl s.stage result.2 s.written).tail (.learn early deaf ⟨t, member, key, offered⟩)

theorem sendHandshakeFrame_moves (first : s.localPlaintext = none) (early : s.txState = none) (deaf : s.rxState = none)
    (unused : Unused N w p) :
    Advances N w s (s.sendHandshakeFrame N t p).2 ∧
      ∃ written, (s.sendHandshakeFrame N t p).2 = { s with localPlaintext := some p, written := written } :=
  ⟨Advances.quiet (.single (.offer first early deaf unused)) s.stage s.inbox _, _, rfl⟩

theorem sendStreamHeader_moves (early : s.txState = none) (computed : Computed N s keys) :
    Advances N w s (s.sendStreamHeader N t keys.tx).2 ∧ ((s.sendStreamHeader N t keys.tx).1 = true →
      ∃ tx written, (s.sendStreamHeader N t keys.tx).2 = { s with txState := some tx, written := written }) := by
  rw [Session.sendStreamHeader]
  cases N.secretstream.initPush keys.tx t.header.val with
  | none => exact ⟨.refl, fun sent => absurd sent Bool.false_ne_true⟩
  | some state =>
    have started : Advances N w s { s with txState := some ⟨keys.tx, t.header.val, state, []⟩ } :=
      .single (.startTx t.header.val state early computed)
    exact ⟨started.quiet s.stage s.inbox _, fun _ => ⟨_, _, rfl⟩⟩

theorem receiveStreamHeader_moves (deaf : s.rxState = none) (computed : Computed N s keys) :
    Advances N w s (s.receiveStreamHeader N keys.rx).2 ∧ ((s.receiveStreamHeader N keys.rx).1 = true →
      ∃ rx inbox, rx.messages = [] ∧
        (s.receiveStreamHeader N keys.rx).2 = { s with rxState := some rx, inbox := inbox }) := by
  rw [Session.receiveStreamHeader]
  cases recvAll s.inbox secretstreamHeaderBytes with
  | none => exact ⟨.refl, fun received => absurd received Bool.false_ne_true⟩
  | some taken =>
    have read : Advances N w s { s with inbox := taken.2 } := Advances.quiet .refl s.stage taken.2 s.written
    cases pulled : N.secretstream.initPull keys.rx taken.1 with
    | none =>
      simp only [pulled]
      exact ⟨read, fun received => absurd received Bool.false_ne_true⟩
    | some state =>
      simp only [pulled]
      exact ⟨read.tail (.startRx taken.1 state deaf computed), fun _ => ⟨_, taken.2, rfl, rfl⟩⟩

theorem sendFrame_moves (N : Sodium κ σ) (w : World κ σ) (link : Link) (tag4 bodyA bodyB : Bytes) (s : Session κ σ) :
    Advances N w s (s.sendFrame N link tag4 bodyA bodyB).2 ∧ ((s.sendFrame N link tag4 bodyA bodyB).1 = true →
      ∃ tx written, (s.sendFrame N link tag4 bodyA bodyB).2 = { s with txState := some tx, written := written }) := by
  rw [Session.sendFrame]
  cases sending : s.txState with
  | none => exact ⟨.refl, fun sent => absurd sent Bool.false_ne_true⟩
  | some tx => exact ⟨Advances.quiet (.single (.push _ _ sending)) s.stage s.inbox _, fun _ => ⟨_, _, rfl⟩⟩

theorem recvFrame_moves (genuine : StreamGenuine N w s) :
    Advances N w s (s.recvFrame N).2 ∧ ∀ message ∈ (s.recvFrame N).1, ∃ rx state inbox, s.rxState = some rx ∧
      (s.recvFrame N).2 =
        { s with
          rxState := some { rx with state := state, messages := rx.messages ++ [message] }
          inbox := inbox } := by
  rw [Session.recvFrame]
  cases hearing : s.rxState with
  | none => exact ⟨.refl, fun message missing => absurd missing (Option.not_mem_none message)⟩
  | some rx =>
    cases received : Framing.recvFrame N.secretstream.toSecretStream rx.state s.inbox with
    | none =>
      simp only [received]
      exact ⟨.refl, fun message missing => absurd missing (Option.not_mem_none message)⟩
    | some got =>
      simp only [received]
      have streamed : (∃ theirs ∈ s.remotePlaintext, Offered w s.openKey theirs) →
          Streamed w { rx with state := got.2.1, messages := rx.messages ++ [got.1] } := by
        intro ⟨theirs, learned, t, member, _, offered⟩
        obtain ⟨u, known, tx, under, key, header, messages⟩ :=
          genuine rx hearing theirs learned ⟨t, member, theirs, offered, rfl⟩ got received
        exact ⟨u, known, tx, under, key, header, messages⟩
      have pulled : Advances N w s _ := .single (.pull got.2.1 got.1 hearing streamed)
      refine ⟨pulled.quiet s.stage got.2.2 s.written, fun message same => ?_⟩
      obtain rfl := Option.some.inj same
      exact ⟨rx, got.2.1, got.2.2, rfl, rfl⟩

end Primitives

section Stretches

theorem finish_moves {tx rx : Strand κ σ} (t : Turn) (sending : s.txState = some tx) (hearing : s.rxState = some rx)
    (done : s.role = .server → [kHandshakeDoneTag] <+: rx.messages) :
    Advances N w s (s.finish t) ∧ Staged N (s.finish t) := by
  rw [Session.finish]
  split_ifs
  · exact ⟨Advances.close .refl, trivial⟩
  · exact ⟨Advances.quiet (.single (.finish sending hearing done)) .established s.inbox s.written, trivial⟩

theorem clientStart_moves (root : NetworkKey) (keys : NetworkKeys) (localHostId : HostId) (name : Bytes)
    (fresh : FreshKey N w t.secretKey) : ∃ stage,
    Advances N w (Session.opened .client root keys stage) (Session.clientStart N t root keys localHostId name) ∧
      Staged N (Session.clientStart N t root keys localHostId name) := by
  refine ⟨.reply (generateKeyPair N t.secretKey), ?_⟩
  have unused : Unused N w (fillHandshakePlaintext (N.kx.publicKey t.secretKey) localHostId (localCaps t.build)
      t.build.osType name) := ⟨⟨t.secretKey, rfl⟩, fresh⟩
  obtain ⟨moved, written, after⟩ := sendHandshakeFrame_moves
    (s := Session.opened .client root keys (.reply (generateKeyPair N t.secretKey))) (t := t) rfl rfl rfl unused
  simp only [Session.clientStart, generateKeyPair] at moved after ⊢
  split <;> rename_i sent <;> rw [sent] at moved after <;> subst after
  · exact ⟨moved.close, trivial⟩
  · exact ⟨moved, rfl, rfl, rfl, rfl, _, rfl, rfl⟩

theorem clientReply_moves {clientKeys : KeyPair} (staged : Staged N s) (here : s.stage = .reply clientKeys)
    (genuine : BoxGenuine N w s) :
    Advances N w s (s.clientReply N t clientKeys) ∧ Staged N (s.clientReply N t clientKeys) := by
  rw [Staged, here] at staged
  obtain ⟨role, early, deaf, own, mine, sealed, ours⟩ := staged
  obtain ⟨inbox, after, learned⟩ := receiveHandshakeFrame_moves genuine early deaf
  rw [Session.clientReply]
  split <;> rename_i result <;> rw [result] at after learned <;> subst after
  · exact ⟨Advances.quiet .refl .closed inbox s.written, trivial⟩
  rename_i theirs
  replace learned := learned theirs rfl
  split
  · exact ⟨learned.close, trivial⟩
  rename_i keys agreed
  have computed : Computed N { s with inbox := inbox, remotePlaintext := some theirs } keys := by
    refine ⟨mine, sealed, theirs, rfl, clientKeys.secretKey, ours.trans own, ?_⟩
    simp only [role, ours]
    exact agreed
  obtain ⟨moved, started⟩ := sendStreamHeader_moves (w := w) (t := t)
    (s := { s with inbox := inbox, remotePlaintext := some theirs }) early computed
  split <;> rename_i sent <;> rw [sent] at moved started
  · exact ⟨Advances.close (learned.trans moved), trivial⟩
  · obtain ⟨tx, written, rfl⟩ := started rfl
    exact ⟨Advances.quiet (learned.trans moved) _ _ _, role, computed, Option.some_ne_none _, deaf⟩

theorem clientFinish_moves (staged : Staged N s) (here : s.stage = .serverHeader keys) :
    Advances N w s (s.clientFinish N t keys) ∧ Staged N (s.clientFinish N t keys) := by
  rw [Staged, here] at staged
  obtain ⟨role, computed, sending, deaf⟩ := staged
  obtain ⟨moved, started⟩ := receiveStreamHeader_moves (w := w) deaf computed
  rw [Session.clientFinish]
  split <;> rename_i received <;> rw [received] at moved started
  · exact ⟨moved.close, trivial⟩
  obtain ⟨rx, inbox, -, rfl⟩ := started rfl
  obtain ⟨further, sealed⟩ := sendFrame_moves N w t.link kHandshakeDoneTag [] []
    { s with rxState := some rx, inbox := inbox }
  split <;> rename_i sent <;> rw [sent] at further sealed
  · exact ⟨Advances.close (moved.trans further), trivial⟩
  · obtain ⟨tx, written, rfl⟩ := sealed rfl
    have client : ∀ answer : s.role = .server, [kHandshakeDoneTag] <+: rx.messages :=
      fun answer => absurd (role.symm.trans answer) (by decide)
    obtain ⟨last, staged⟩ := finish_moves (N := N) (w := w)
      (s := { s with rxState := some rx, inbox := inbox, txState := some tx, written := written }) t rfl rfl client
    exact ⟨(moved.trans further).trans last, staged⟩

theorem serverHello_moves (staged : Staged N s) (here : s.stage = .hello) (genuine : BoxGenuine N w s)
    (fresh : FreshKey N w t.secretKey) :
    Advances N w s (s.serverHello N t) ∧ Staged N (s.serverHello N t) := by
  rw [Staged, here] at staged
  obtain ⟨role, first, early, deaf⟩ := staged
  obtain ⟨inbox, after, learned⟩ := receiveHandshakeFrame_moves genuine early deaf
  rw [Session.serverHello]
  split <;> rename_i result <;> rw [result] at after learned <;> subst after
  · exact ⟨Advances.quiet .refl .closed inbox s.written, trivial⟩
  rename_i theirs
  replace learned := learned theirs rfl
  split
  · exact ⟨learned.close, trivial⟩
  rename_i localHostId name identity
  have unused : Unused N w (fillHandshakePlaintext (N.kx.publicKey t.secretKey) localHostId (localCaps t.build)
      t.build.osType name) := ⟨⟨t.secretKey, rfl⟩, fresh⟩
  obtain ⟨moved, written, after⟩ := sendHandshakeFrame_moves (t := t)
    (s := { s with inbox := inbox, remotePlaintext := some theirs }) first early deaf unused
  simp only [generateKeyPair]
  split <;> rename_i sent <;> rw [sent] at moved after <;> subst after
  · exact ⟨Advances.close (learned.trans moved), trivial⟩
  split
  · exact ⟨Advances.close (learned.trans moved), trivial⟩
  · rename_i keys agreed
    refine ⟨Advances.quiet (learned.trans moved) _ _ _, role, ⟨_, rfl, theirs, rfl, t.secretKey, rfl, ?_⟩, early, deaf⟩
    simp only [role]
    exact agreed

theorem serverHeader_moves (staged : Staged N s) (here : s.stage = .clientHeader keys) :
    Advances N w s (s.serverHeader N t keys) ∧ Staged N (s.serverHeader N t keys) := by
  rw [Staged, here] at staged
  obtain ⟨role, computed, early, deaf⟩ := staged
  obtain ⟨moved, started⟩ := receiveStreamHeader_moves (w := w) deaf computed
  rw [Session.serverHeader]
  split <;> rename_i received <;> rw [received] at moved started
  · exact ⟨moved.close, trivial⟩
  obtain ⟨rx, inbox, silent, rfl⟩ := started rfl
  obtain ⟨further, sending⟩ := sendStreamHeader_moves (w := w) (t := t)
    (s := { s with rxState := some rx, inbox := inbox }) early computed
  split <;> rename_i sent <;> rw [sent] at further sending
  · exact ⟨Advances.close (moved.trans further), trivial⟩
  · obtain ⟨tx, written, rfl⟩ := sending rfl
    exact ⟨Advances.quiet (moved.trans further) _ _ _, role, Option.some_ne_none _, rx, rfl, silent⟩

theorem serverFinish_moves (staged : Staged N s) (here : s.stage = .handshakeDone) (genuine : StreamGenuine N w s) :
    Advances N w s (s.serverFinish N t) ∧ Staged N (s.serverFinish N t) := by
  rw [Staged, here] at staged
  obtain ⟨role, sending, rx, hearing, silent⟩ := staged
  obtain ⟨tx, under⟩ := Option.ne_none_iff_exists'.mp sending
  obtain ⟨moved, received⟩ := recvFrame_moves genuine
  rw [Session.serverFinish]
  split <;> rename_i result <;> rw [result] at moved received
  · exact ⟨moved.close, trivial⟩
  rename_i frame _
  split_ifs with other
  · exact ⟨moved.close, trivial⟩
  · obtain ⟨opened, state, inbox, before, rfl⟩ := received frame rfl
    obtain rfl := Option.some.inj (before.symm.trans hearing)
    obtain ⟨-, done⟩ := not_or.mp other
    obtain ⟨last, staged⟩ := finish_moves (N := N) (w := w) t (s := { s with
      rxState := some { opened with state := state, messages := opened.messages ++ [frame] }, inbox := inbox })
      under rfl (fun _ => by rw [silent, not_not.mp done]; exact List.prefix_rfl)
    exact ⟨moved.trans last, staged⟩

theorem advance_moves (staged : Staged N s) (genuine : GenuineAt N w t s s.stage) :
    Advances N w s (s.advance N t) ∧ Staged N (s.advance N t) := by
  rw [Session.advance]
  cases here : s.stage with
  | reply clientKeys =>
    rw [here] at genuine
    exact clientReply_moves staged here genuine
  | serverHeader keys => exact clientFinish_moves staged here
  | hello =>
    rw [here] at genuine
    exact serverHello_moves staged here genuine.1 genuine.2
  | clientHeader keys => exact serverHeader_moves staged here
  | handshakeDone =>
    rw [here] at genuine
    exact serverFinish_moves staged here genuine
  | established => exact ⟨.refl, staged⟩
  | closed => exact ⟨.refl, staged⟩

end Stretches

end ClippProof.Wire.Handshake
