import Clipp.Peers.OneShot
import Clipp.Wire.HandshakeAgreement

open Foundation

namespace ClippProof.Peers.OneShot

open ClippModel.Keys ClippModel.Peers ClippModel.Peers.OneShot ClippModel.Registers ClippModel.Wire
  ClippModel.Wire.Framing ClippModel.Wire.Handshake ClippProof.Wire.Handshake
open CryptoChannel (kMaxPlaintext)

variable {κ σ : Type} {N : Sodium κ σ} {w : World κ σ} {s s' c : Session κ σ} {link : Link} {t : Turn}

def spoken (s : Session κ σ) : List Bytes := s.txState.elim [] Strand.messages

def heard (s : Session κ σ) : List Bytes := s.rxState.elim [] Strand.messages

theorem spoken_some {tx : Strand κ σ} (sending : s.txState = some tx) : spoken s = tx.messages := by
  rw [spoken, sending, Option.elim_some]

theorem heard_some {rx : Strand κ σ} (hearing : s.rxState = some rx) : heard s = rx.messages := by
  rw [heard, hearing, Option.elim_some]

def Fits (message : Bytes) : Prop := message.length ≤ kMaxPlaintext

section Frames

variable {message : Bytes}

theorem parts_append (message : Bytes) : message.take 4 ++ message.drop 4 ++ [] = message := by
  rw [List.append_nil, List.take_append_drop]

theorem sendFrame_spoken (N : Sodium κ σ) (link : Link) (message : Bytes) (s : Session κ σ) :
    ∃ tx written out, (s.sendFrame N link (message.take 4) (message.drop 4) []).2 =
        { s with txState := tx, written := written } ∧
      tx.elim [] Strand.messages = spoken s ++ out ∧
      ((s.sendFrame N link (message.take 4) (message.drop 4) []).1 = true → out = [message]) ∧
      (out = [] ∨ out = [message] ∧ Fits message) := by
  cases sending : s.txState with
  | none =>
    refine ⟨none, s.written, [], ?_, ?_, ?_, .inl rfl⟩
    · simp only [Session.sendFrame, sending]
      rw [← sending]
    · rw [spoken, sending]
      rfl
    · intro sent
      simp only [Session.sendFrame, sending] at sent
      exact absurd sent Bool.false_ne_true
  | some tx =>
    have said : spoken s = tx.messages := spoken_some sending
    by_cases large : 4 + (message.drop 4).length + ([] : Bytes).length > kMaxPlaintext
    · refine ⟨_, _, [], by simp only [Session.sendFrame, sending]; rfl, ?_, ?_, .inl rfl⟩
      · simp only [Option.elim_some, Session.sealedMessage, if_pos large, said]
      · intro sent
        simp only [Session.sendFrame, sending, Framing.sendFrame, if_pos large] at sent
        exact absurd sent Bool.false_ne_true
    · have fits : Fits message := by
        rw [Fits]
        rw [List.length_drop, List.length_nil] at large
        omega
      cases pushed : N.secretstream.push tx.state (message.take 4 ++ message.drop 4 ++ []) with
      | none =>
        refine ⟨_, _, [], by simp only [Session.sendFrame, sending]; rfl, ?_, ?_, .inl rfl⟩
        · simp only [Option.elim_some, Session.sealedMessage, if_neg large, pushed, said]
          rfl
        · intro sent
          simp only [Session.sendFrame, sending, Framing.sendFrame, if_neg large, pushed] at sent
          exact absurd sent Bool.false_ne_true
      | some sealed =>
        refine ⟨_, _, [message], by simp only [Session.sendFrame, sending]; rfl, ?_, fun _ => rfl, .inr ⟨rfl, fits⟩⟩
        simp only [Option.elim_some, Session.sealedMessage, if_neg large, pushed, Option.isSome_some, if_true, said]
        rw [parts_append]

theorem sendMessages_spoken (N : Sodium κ σ) (link : Link) (messages : List Bytes) (s : Session κ σ) :
    ∃ tx written out, (sendMessages N link messages s).2 = { s with txState := tx, written := written } ∧
      tx.elim [] Strand.messages = spoken s ++ out ∧ out.Sublist messages := by
  induction messages generalizing s with
  | nil => exact ⟨s.txState, s.written, [], rfl, (List.append_nil _).symm, .slnil⟩
  | cons message rest ih =>
    obtain ⟨tx, written, out, after, said, -, sealed⟩ := sendFrame_spoken N link message s
    have first : out.Sublist [message] := by
      rcases sealed with rfl | ⟨rfl, -⟩
      · exact List.nil_sublist _
      · exact .refl _
    rw [sendMessages]
    split <;> rename_i result <;> rw [result] at after <;> subst after
    · exact ⟨tx, written, out, rfl, said, first.trans (List.sublist_append_left [message] rest)⟩
    · obtain ⟨tx', written', more, after, further, inside⟩ := ih { s with txState := tx, written := written }
      refine ⟨tx', written', out ++ more, after, ?_, first.append inside⟩
      rw [further, ← List.append_assoc, ← said]
      rfl

theorem sendMessages_moves (N : Sodium κ σ) (w : World κ σ) (link : Link) (messages : List Bytes)
    (s : Session κ σ) : Advances N w s (sendMessages N link messages s).2 := by
  induction messages generalizing s with
  | nil => exact .refl
  | cons message rest ih =>
    have moved := (sendFrame_moves N w link (message.take 4) (message.drop 4) [] s).1
    rw [sendMessages]
    split <;> rename_i result <;> rw [result] at moved
    · exact moved
    · exact moved.trans (ih _)

theorem recvFrame_heard (N : Sodium κ σ) (s : Session κ σ) : ∃ rx inbox,
    (s.recvFrame N).2 = { s with rxState := rx, inbox := inbox } ∧
      rx.elim [] Strand.messages = heard s ++ (s.recvFrame N).1.toList := by
  cases hearing : s.rxState with
  | none =>
    have nothing : s.recvFrame N = (none, s) := by simp only [Session.recvFrame, hearing]
    exact ⟨s.rxState, s.inbox, by rw [nothing], by rw [nothing]; exact (List.append_nil _).symm⟩
  | some rx =>
    cases received : Framing.recvFrame N.secretstream.toSecretStream rx.state s.inbox with
    | none =>
      have nothing : s.recvFrame N = (none, s) := by simp only [Session.recvFrame, hearing, received]
      exact ⟨s.rxState, s.inbox, by rw [nothing], by rw [nothing]; exact (List.append_nil _).symm⟩
    | some got =>
      refine ⟨_, _, by simp only [Session.recvFrame, hearing, received]; rfl, ?_⟩
      rw [heard_some hearing]
      simp only [Session.recvFrame, hearing, received, Option.elim_some, Option.toList_some]

end Frames

def Waits (s : Session κ σ) : Prop := s.stage ≠ .established ∧ s.stage ≠ .closed

theorem opened_stage {stage : Stage κ} (opened : isOpen stage = true) : stage = .established := by
  cases stage <;> first | rfl | exact absurd opened Bool.false_ne_true

theorem unfinished {stage : Stage κ} (shut : isOpen stage = false) : stage ≠ .established := by
  intro here
  rw [here] at shut
  exact Bool.false_ne_true shut.symm

structure Begins (role : Role) (s : Session κ σ) : Prop where
  waiting : Waits s → spoken s = [] ∧ heard s = []
  server : role = .server → spoken s = []
  listening : role = .server → s.stage = .established → heard s = [kHandshakeDoneTag]
  client : role = .client → s.stage = .established → spoken s = [kHandshakeDoneTag] ∧ heard s = []

section Handshakes

variable {keys : SessionKeys κ} {role : Role}

theorem Begins.silent (said : spoken s = []) (listened : heard s = []) (unfinished : s.stage ≠ .established) :
    Begins role s :=
  ⟨fun _ => ⟨said, listened⟩, fun _ => said, fun _ here => absurd here unfinished, fun _ here => absurd here unfinished⟩

theorem Begins.closed (server : role = .server → spoken s = []) : Begins role s.close :=
  ⟨fun waits => absurd rfl waits.2, server, fun _ here => absurd here (unfinished rfl),
    fun _ here => absurd here (unfinished rfl)⟩

theorem sendStreamHeader_quiet (said : spoken s = []) (key : κ) : ∃ tx written,
    (s.sendStreamHeader N t key).2 = { s with txState := tx, written := written } ∧
      tx.elim [] Strand.messages = [] := by
  cases started : N.secretstream.initPush key t.header.val with
  | none => exact ⟨s.txState, s.written, by simp only [Session.sendStreamHeader, started], said⟩
  | some state => exact ⟨_, _, by simp only [Session.sendStreamHeader, started]; rfl, rfl⟩

theorem receiveStreamHeader_quiet (listened : heard s = []) (key : κ) : ∃ rx inbox,
    (s.receiveStreamHeader N key).2 = { s with rxState := rx, inbox := inbox } ∧
      rx.elim [] Strand.messages = [] := by
  cases taken : recvAll s.inbox secretstreamHeaderBytes with
  | none => exact ⟨s.rxState, s.inbox, by simp only [Session.receiveStreamHeader, taken], listened⟩
  | some got =>
    cases started : N.secretstream.initPull key got.1 with
    | none => exact ⟨s.rxState, got.2, by simp only [Session.receiveStreamHeader, taken, started], listened⟩
    | some state => exact ⟨_, _, by simp only [Session.receiveStreamHeader, taken, started]; rfl, rfl⟩

theorem receiveHandshakeFrame_quiet (N : Sodium κ σ) (s : Session κ σ) :
    ∃ inbox, (s.receiveHandshakeFrame N).2 = { s with inbox := inbox } := by
  cases taken : recvAll s.inbox handshakeFrameBytes with
  | none => exact ⟨s.inbox, by simp only [Session.receiveHandshakeFrame, taken]⟩
  | some got => exact ⟨got.2, by simp only [Session.receiveHandshakeFrame, taken]⟩

theorem clientStart_begins (root : NetworkKey) (keys : NetworkKeys) (localHostId : HostId) (name : Bytes) :
    Begins .client (Session.clientStart N t root keys localHostId name) := by
  simp only [Session.clientStart]
  split
  · rename_i s result
    obtain ⟨-, rfl⟩ := Prod.mk.inj result
    exact .closed fun _ => rfl
  · rename_i s result
    obtain ⟨-, rfl⟩ := Prod.mk.inj result
    exact .silent rfl rfl (unfinished rfl)

theorem clientReply_begins (said : spoken s = []) (listened : heard s = []) (clientKeys : KeyPair)
    (client : role = .client) : Begins role (s.clientReply N t clientKeys) := by
  have gone : role = .server → False := fun server => absurd (client.symm.trans server) (by decide)
  obtain ⟨inbox, after⟩ := receiveHandshakeFrame_quiet N s
  rw [Session.clientReply]
  split <;> rename_i result <;> rw [result] at after <;> subst after
  · exact .closed fun server => (gone server).elim
  split
  · exact .closed fun server => (gone server).elim
  rename_i keys _
  obtain ⟨tx, written, after, quiet⟩ := sendStreamHeader_quiet (N := N) (t := t)
    (s := { s with inbox := inbox, remotePlaintext := some _ }) said keys.tx
  split <;> rename_i sent <;> rw [sent] at after <;> subst after
  · exact .closed fun server => (gone server).elim
  · exact .silent quiet listened (unfinished rfl)

theorem clientFinish_begins (said : spoken s = []) (listened : heard s = []) (keys : SessionKeys κ)
    (client : role = .client) : Begins role (s.clientFinish N t keys) := by
  have gone : role = .server → False := fun server => absurd (client.symm.trans server) (by decide)
  obtain ⟨rx, inbox, after, quiet⟩ := receiveStreamHeader_quiet (N := N) listened keys.rx
  rw [Session.clientFinish]
  split <;> rename_i received <;> rw [received] at after <;> subst after
  · exact .closed fun server => (gone server).elim
  obtain ⟨tx, written, out, after, spoke, sent, -⟩ :=
    sendFrame_spoken N t.link kHandshakeDoneTag { s with rxState := rx, inbox := inbox }
  rw [show kHandshakeDoneTag.take 4 = kHandshakeDoneTag by decide, show kHandshakeDoneTag.drop 4 = [] by decide] at *
  split <;> rename_i result <;> rw [result] at after sent <;> subst after
  · exact .closed fun server => (gone server).elim
  · obtain rfl := sent rfl
    have done : tx.elim [] Strand.messages = [kHandshakeDoneTag] := by
      rw [spoke]
      exact congrArg (· ++ [kHandshakeDoneTag]) said
    rw [Session.finish]
    split_ifs
    · exact .closed fun server => (gone server).elim
    · exact ⟨fun waits => absurd rfl waits.1, fun server => (gone server).elim, fun server => (gone server).elim,
        fun _ _ => ⟨done, quiet⟩⟩

theorem serverHello_begins (said : spoken s = []) (listened : heard s = []) : Begins role (s.serverHello N t) := by
  obtain ⟨inbox, after⟩ := receiveHandshakeFrame_quiet N s
  rw [Session.serverHello]
  split <;> rename_i result <;> rw [result] at after <;> subst after
  · exact .closed fun _ => said
  split
  · exact .closed fun _ => said
  simp only []
  split
  · rename_i sent
    obtain ⟨-, rfl⟩ := Prod.mk.inj sent
    exact .closed fun _ => said
  · rename_i sent
    obtain ⟨-, rfl⟩ := Prod.mk.inj sent
    split
    · exact .closed fun _ => said
    · exact .silent said listened (unfinished rfl)

theorem serverHeader_begins (said : spoken s = []) (listened : heard s = []) (keys : SessionKeys κ) :
    Begins role (s.serverHeader N t keys) := by
  obtain ⟨rx, inbox, after, quiet⟩ := receiveStreamHeader_quiet (N := N) listened keys.rx
  rw [Session.serverHeader]
  split <;> rename_i received <;> rw [received] at after <;> subst after
  · exact .closed fun _ => said
  obtain ⟨tx, written, after, mute⟩ := sendStreamHeader_quiet (N := N) (t := t)
    (s := { s with rxState := rx, inbox := inbox }) said keys.tx
  split <;> rename_i sent <;> rw [sent] at after <;> subst after
  · exact .closed fun _ => mute
  · exact .silent mute quiet (unfinished rfl)

theorem serverFinish_begins (said : spoken s = []) (listened : heard s = []) (server : role = .server) :
    Begins role (s.serverFinish N t) := by
  have gone : role = .client → False := fun client => absurd (client.symm.trans server) (by decide)
  obtain ⟨rx, inbox, after, got⟩ := recvFrame_heard N s
  rw [Session.serverFinish]
  split <;> rename_i result <;> rw [result] at after got <;> subst after
  · exact .closed fun _ => said
  split_ifs with other
  · exact .closed fun _ => said
  · rename_i frame _
    obtain ⟨-, done⟩ := not_or.mp other
    obtain rfl := not_not.mp done
    have last : rx.elim [] Strand.messages = [kHandshakeDoneTag] := by
      rw [got, listened]
      rfl
    rw [Session.finish]
    split_ifs
    · exact .closed fun _ => said
    · exact ⟨fun waits => absurd rfl waits.1, fun _ => said, fun _ _ => last, fun client => (gone client).elim⟩

theorem advance_begins (staged : Staged N s) (waits : Waits s) (said : spoken s = []) (listened : heard s = []) :
    Begins s.role (s.advance N t) := by
  rw [Staged] at staged
  rw [Session.advance]
  cases here : s.stage with
  | reply clientKeys =>
    rw [here] at staged
    exact clientReply_begins said listened clientKeys staged.1
  | serverHeader keys =>
    rw [here] at staged
    exact clientFinish_begins said listened keys staged.1
  | hello => exact serverHello_begins said listened
  | clientHeader keys => exact serverHeader_begins said listened keys
  | handshakeDone =>
    rw [here] at staged
    exact serverFinish_begins said listened staged.1
  | established => exact absurd here waits.1
  | closed => exact absurd here waits.2

end Handshakes

end ClippProof.Peers.OneShot
