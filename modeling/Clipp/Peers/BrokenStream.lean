import Clipp.Foundation.Machine
import Clipp.Gateway.NetMap
import Clipp.Gateway.Promotion
import Clipp.Peers.PeerManager
import Clipp.Wire.Framing
import Clipp.Wire.RegisterDigest

open Foundation

namespace ClippModel.Peers

open ClippModel.Clipboard ClippModel.Clipboard.ClipboardPayload ClippModel.Gateway ClippModel.Platform
  ClippModel.Registers ClippModel.Wire ClippModel.Wire.CryptoChannel ClippModel.Wire.Peer
  ClippModel.Wire.RegisterWire

def tagPING : Bytes := ascii "PING"
def tagPONG : Bytes := ascii "PONG"
def tagSYNC : Bytes := ascii "SYNC"
def tagEOSY : Bytes := ascii "EOSY"
def tagCDEL : Bytes := ascii "CDEL"
def tagRCNT : Bytes := ascii "RCNT"
def tagNMAP : Bytes := ascii "NMAP"
def tagRSYN : Bytes := ascii "RSYN"
def tagRGET : Bytes := ascii "RGET"
def tagRPUT : Bytes := ascii "RPUT"

/-- What a handler finds when it runs: the build, the stores, the settings and the clocks. -/
structure Serving (U : Type) where
  registersDaemon : Bool
  servesNetmap : Bool
  registers : RegisterStore
  clock : Readings
  rebroadcast : UInt64
  names : DisplayNames
  codec : Codec
  stamp : OriginStamp
  activity : ClipboardActivityStore
  syncMaxItems : UInt64
  wide : WideText U
  version : BuildVersion
  selfId : HostId
  selfName : Bytes
  now : Int
  requester : HostId
  displayed : List (PeerDisplayItem U)

/-- What one `SendFrame` came to: refused before the stream was touched, sent, or broken off behind the
    sealing. -/
inductive Outcome where
  | refused
  | sent
  | broken
  deriving DecidableEq

def attempt (completes : Bool) (message : Bytes) : Outcome :=
  if message.length > kMaxPlaintext then .refused else if completes then .sent else .broken

/-- Frames sent until one fails; `breaksAt` is the one during which the socket does. -/
def sendScript : Option Nat → List Bytes → Bool × List Outcome
  | _, [] => (true, [])
  | breaksAt, message :: rest =>
    match attempt (breaksAt ≠ some 0) message with
    | .sent =>
      let (sent, outcomes) := sendScript (breaksAt.map Nat.pred) rest
      (sent, .sent :: outcomes)
    | failed => (false, [failed])

def rgetReply {U : Type} (d : Serving U) (body : Bytes) : Bytes :=
  match tryDecodeName body with
  | none => tagNONE
  | some name =>
    if !isValidRegisterName name then tagNONE
    else match (d.registers.read d.clock name).result with
      | none => tagNONE
      | some rec => tagREGW ++ u32Sized (encodeRecord rec 0)

def rsynReplies {U : Type} (d : Serving U) (body : Bytes) : List Bytes :=
  match tryDecodeDigest body with
  | none => []
  | some theirDigest =>
    (d.registers.recordsToPush d.clock.expiry theirDigest).result.map
      (fun rec => tagREGW ++ u32Sized (encodeRecord rec 0)) ++ [tagREOS]

def handleRegisterFrame {U : Type} (d : Serving U) (hasCallback : Bool) (frame : Bytes) : Option (List Bytes) :=
  if !d.registersDaemon then none
  else if frame.take 4 = tagREGW then
    some (handleRegw d.registers d.clock d.rebroadcast (frame.drop 4)).reply.toList
  else if frame.take 4 = tagRSYN then some (rsynReplies d (frame.drop 4))
  else if frame.take 4 = tagREOS then some []
  else if frame.take 4 = tagRGET then some [rgetReply d (frame.drop 4)]
  else if frame.take 4 = tagRPUT then
    some [(handleRput d.codec hasCallback d.stamp d.registers d.clock (frame.drop 4)).reply]
  else if frame.take 4 = tagRLST then some [tagRLST ++ u32Sized (listResponse d.names d.registers d.clock)]
  else none

/-- What the receive loop does with a frame: leave, or send and go on; a failed send of a checked reply also
    leaves. -/
inductive Handling where
  | leave
  | reply (frames : List Bytes) (checked : Bool)

def replayFrame (payload : ClipboardPayload) : Bytes :=
  tagCLIP ++ (payload.addFlags clpmFlagSyncReplay).meta_.pack ++ u32Sized payload.encoded

def nmapReply {U : Type} (d : Serving U) : Bytes :=
  if d.servesNetmap then
    tagNMAP ++ u32Sized (netmapReport d.wide d.version d.selfId d.selfName d.now d.requester d.displayed)
  else tagNONE

def registerReply {U : Type} (d : Serving U) (hasCallback : Bool) (frame : Bytes) : Handling :=
  match handleRegisterFrame d hasCallback frame with
  | some frames => .reply frames false
  | none => .reply [] true

def handleIncoming {U : Type} (d : Serving U) (frame : Bytes) : Handling :=
  if frame.length < 4 then .leave
  else if frame.take 4 = tagPING then .reply [tagPONG] true
  else if frame.take 4 = tagCLIP then
    match ClipboardWire.tryDecodeClipboardFrame frame with
    | none => .leave
    | some _ => .reply [] true
  else if frame.take 4 = tagEOSY then .reply [] true
  else if frame.take 4 = tagCDEL then .reply [] true
  else if frame.take 4 = tagRCNT then .reply [rcntReply d.activity] true
  else if frame.take 4 = tagNMAP then .reply [nmapReply d] true
  else registerReply d true frame

def handleOutgoing {U : Type} (d : Serving U) (frame : Bytes) : Handling :=
  if frame.length < 4 then .leave
  else if frame.take 4 = tagPONG then .reply [] true
  else if frame.take 4 = tagPING then .reply [tagPONG] true
  else if frame.take 4 = tagSYNC then
    if frame.length ≠ 4 + 16 then .leave
    else .reply ((d.activity.itemsSince (frame.drop 4) d.syncMaxItems).map replayFrame ++ [tagEOSY]) true
  else if frame.take 4 = tagEOSY then .reply [] true
  else if frame.take 4 = tagCDEL then .reply [] true
  else registerReply d false frame

def handleFrame {U : Type} (connType : ConnType) (d : Serving U) (frame : Bytes) : Handling :=
  match connType with
  | .incoming => handleIncoming d frame
  | .outgoing => handleOutgoing d frame

def rsynRequest {U : Type} (d : Serving U) : List Bytes :=
  if d.registersDaemon then [tagRSYN ++ u32Sized (encodeDigest (d.registers.digest d.clock.expiry).result)] else []

def syncRequest (connType : ConnType) (firstIncoming : Bool) : List Bytes :=
  if connType = .incoming ∧ firstIncoming then [tagSYNC ++ List.replicate 16 0] else []

inductive QueuedMessage where
  | payload (item : ClipboardPayload)
  | raw (tag body : Bytes)

def QueuedMessage.frame : QueuedMessage → Bytes
  | .payload item => clipboardFrame item
  | .raw tag body => tag ++ u32Sized body

/-- An authenticated connection: whether its requests are out and its loop runs, and what every `SendFrame`
    on it came to. -/
structure Connection where
  connType : ConnType
  started : Bool
  isOpen : Bool
  outcomes : List Outcome

/-- What the threads of a connection do, and where the socket fails meanwhile. -/
inductive ConnectionEvent (U : Type) where
  | connected (d : Serving U) (firstIncoming : Bool) (syncBreaksAt rsynBreaksAt : Option Nat)
  | pingDue (breaksAt : Option Nat)
  | drained (queue : List QueuedMessage) (breaksAt : Option Nat)
  | received (d : Serving U) (frame : Bytes) (breaksAt : Option Nat)
  | ended

namespace Connection

def accepted (connType : ConnType) : Connection :=
  { connType := connType, started := false, isOpen := false, outcomes := [] }

def send (c : Connection) (frames : List Bytes) (checked : Bool) (breaksAt : Option Nat) : Connection :=
  { c with isOpen := c.isOpen && ((sendScript breaksAt frames).1 || !checked)
           outcomes := c.outcomes ++ (sendScript breaksAt frames).2 }

variable {U : Type}

def step (c : Connection) : ConnectionEvent U → Option Connection
  | .connected d firstIncoming syncBreaksAt rsynBreaksAt =>
    if c.started then none
    else some (({ c with started := true, isOpen := true }.send (syncRequest c.connType firstIncoming) false
      syncBreaksAt).send (rsynRequest d) false rsynBreaksAt)
  | .pingDue breaksAt => if c.isOpen ∧ c.connType = .outgoing then some (c.send [tagPING] true breaksAt) else none
  | .drained queue breaksAt =>
    if c.isOpen ∧ c.connType = .outgoing then some (c.send (queue.map QueuedMessage.frame) true breaksAt) else none
  | .received d frame breaksAt =>
    if c.isOpen then
      match handleFrame c.connType d frame with
      | .leave => some { c with isOpen := false }
      | .reply frames checked => some (c.send frames checked breaksAt)
    else none
  | .ended => if c.isOpen then some { c with isOpen := false } else none

end Connection

end ClippModel.Peers

namespace ClippProof.Peers

open ClippModel.Gateway ClippModel.Peers ClippModel.Registers ClippModel.Wire ClippModel.Wire.CryptoChannel
  ClippModel.Wire.RegisterWire ClippProof.Wire

variable {U : Type} {c next : Connection} {event : ConnectionEvent U} {frames : List Bytes} {breaksAt : Option Nat}

section Layers

variable {carries : Transport} {carried : List Bytes} {tag4 bodyA bodyB : Bytes}

end Layers

/-- The socket fails during one of these sends, none of the earlier being refused. -/
def Interrupted (breaksAt : Option Nat) (frames : List Bytes) : Prop :=
  match breaksAt with
  | none => False
  | some n => n < frames.length ∧ ∀ message ∈ frames.take (n + 1), message.length ≤ kMaxPlaintext

instance interruptedDecidable (breaksAt : Option Nat) (frames : List Bytes) : Decidable (Interrupted breaksAt frames) :=
  match breaksAt with
  | none => inferInstanceAs (Decidable False)
  | some n => inferInstanceAs (Decidable (n < frames.length ∧ ∀ message ∈ frames.take (n + 1), _))

/-- Once a send has broken off, every later one is refused unsent. -/
def NeverReused (outcomes : List Outcome) : Prop :=
  outcomes.Pairwise fun earlier later => earlier = .broken → later = .refused

theorem sendScript_shape (breaksAt : Option Nat) (frames : List Bytes) : ∃ n : Nat,
    ((sendScript breaksAt frames).1 = true ∧ (sendScript breaksAt frames).2 = List.replicate n .sent) ∨
    ((sendScript breaksAt frames).1 = false ∧
      ∃ failed, failed ≠ .sent ∧ (sendScript breaksAt frames).2 = List.replicate n .sent ++ [failed]) := by
  induction frames generalizing breaksAt with
  | nil => exact ⟨0, .inl ⟨rfl, rfl⟩⟩
  | cons message rest ih =>
    cases tried : attempt (breaksAt ≠ some 0) message with
    | refused => exact ⟨0, .inr ⟨by simp only [sendScript, tried], .refused, nofun, by simp only [sendScript, tried]; rfl⟩⟩
    | broken => exact ⟨0, .inr ⟨by simp only [sendScript, tried], .broken, nofun, by simp only [sendScript, tried]; rfl⟩⟩
    | sent =>
      obtain ⟨n, whole | ⟨cut, failed, notSent, outcomes⟩⟩ := ih (breaksAt.map Nat.pred)
      · refine ⟨n + 1, .inl ⟨?_, ?_⟩⟩
        · simp only [sendScript, tried, whole.1]
        · simp only [sendScript, tried, whole.2, List.replicate_succ]
      · refine ⟨n + 1, .inr ⟨?_, failed, notSent, ?_⟩⟩
        · simp only [sendScript, tried, cut]
        · simp only [sendScript, tried, outcomes, List.replicate_succ, List.cons_append]

theorem interrupted_nil (breaksAt : Option Nat) : ¬ Interrupted breaksAt [] := by
  cases breaksAt with
  | none => exact id
  | some n => exact fun cut => absurd cut.1 (Nat.not_lt_zero n)

theorem interrupted_first (message : Bytes) (rest : List Bytes) :
    Interrupted (some 0) (message :: rest) ↔ message.length ≤ kMaxPlaintext := by
  simp [Interrupted]

theorem interrupted_later (n : Nat) (message : Bytes) (rest : List Bytes) :
    Interrupted (some (n + 1)) (message :: rest) ↔ message.length ≤ kMaxPlaintext ∧ Interrupted (some n) rest := by
  simp only [Interrupted, List.length_cons, Nat.add_lt_add_iff_right, List.take_succ_cons, List.forall_mem_cons]
  exact and_left_comm

theorem broken_iff_interrupted (breaksAt : Option Nat) (frames : List Bytes) :
    .broken ∈ (sendScript breaksAt frames).2 ↔ Interrupted breaksAt frames := by
  induction frames generalizing breaksAt with
  | nil => exact iff_of_false List.not_mem_nil (interrupted_nil breaksAt)
  | cons message rest ih =>
    by_cases large : message.length > kMaxPlaintext
    · have refused : ∀ completes, attempt completes message = .refused := fun _ => if_pos large
      have small := not_le.mpr large
      have outcomes : (sendScript breaksAt (message :: rest)).2 = [.refused] := by simp only [sendScript, refused]
      have whole : ¬ Interrupted breaksAt (message :: rest) := by
        rcases breaksAt with _ | _ | n
        · exact id
        · rwa [interrupted_first]
        · exact fun cut => small ((interrupted_later n message rest).mp cut).1
      rw [outcomes]
      exact iff_of_false (by decide) whole
    · have fits := not_lt.mp large
      rcases breaksAt with _ | _ | n
      · have sent : attempt (decide ((none : Option Nat) ≠ some 0)) message = .sent := by simp [attempt, large]
        have further : .broken ∉ (sendScript none rest).2 := fun member => (ih none).mp member
        simp only [sendScript, sent, Option.map_none, List.mem_cons, reduceCtorEq, false_or]
        exact iff_of_false further id
      · have broken : attempt (decide (some 0 ≠ some 0)) message = .broken := by simp [attempt, large]
        rw [interrupted_first]
        simp only [sendScript, broken, List.mem_singleton, fits]
      · have sent : attempt (decide (some (n + 1) ≠ some 0)) message = .sent := by simp [attempt, large]
        rw [interrupted_later, and_iff_right fits, ← ih (some n)]
        simp only [sendScript, sent, Option.map_some, Nat.pred_succ, List.mem_cons, reduceCtorEq, false_or]

theorem neverReused_unbroken {outcomes : List Outcome} (whole : .broken ∉ outcomes) : NeverReused outcomes :=
  List.Pairwise.imp_of_mem (fun earlier _ _ broken => absurd (broken ▸ earlier) whole)
    (List.pairwise_of_forall (R := fun _ _ => True) fun _ _ => trivial)

theorem neverReused_last {outcomes : List Outcome} (whole : .broken ∉ outcomes) (last : Outcome) :
    NeverReused (outcomes ++ [last]) := by
  refine List.pairwise_append.mpr ⟨neverReused_unbroken whole, List.pairwise_singleton .., ?_⟩
  intro earlier member _ _ broken
  exact absurd (broken ▸ member) whole

theorem neverReused_script {outcomes : List Outcome} (whole : .broken ∉ outcomes) (breaksAt : Option Nat)
    (frames : List Bytes) : NeverReused (outcomes ++ (sendScript breaksAt frames).2) := by
  have unbroken : ∀ n, .broken ∉ outcomes ++ List.replicate n .sent := by
    intro n member
    rcases List.mem_append.mp member with earlier | replicated
    · exact whole earlier
    · exact absurd (List.eq_of_mem_replicate replicated) (by decide)
  obtain ⟨n, ⟨-, all⟩ | ⟨-, failed, -, some⟩⟩ := sendScript_shape breaksAt frames
  · rw [all]
    exact neverReused_unbroken (unbroken n)
  · rw [some, ← List.append_assoc]
    exact neverReused_last (unbroken n) failed

theorem sendScript_failed (broken : .broken ∈ (sendScript breaksAt frames).2) : (sendScript breaksAt frames).1 = false := by
  obtain ⟨n, ⟨-, all⟩ | ⟨cut, -⟩⟩ := sendScript_shape breaksAt frames
  · rw [all] at broken
    exact absurd (List.eq_of_mem_replicate broken) (by decide)
  · exact cut

/-- No reply whose failure goes unnoticed breaks off. -/
def StreamKept (c : Connection) : ConnectionEvent U → Prop
  | .connected d firstIncoming syncBreaksAt rsynBreaksAt =>
    ¬ Interrupted syncBreaksAt (syncRequest c.connType firstIncoming) ∧ ¬ Interrupted rsynBreaksAt (rsynRequest d)
  | .received d frame breaksAt => match handleFrame c.connType d frame with
    | .reply frames false => ¬ Interrupted breaksAt frames
    | _ => True
  | _ => True

/-- A connection whose stream broke off is left. -/
structure Abandoned (c : Connection) : Prop where
  neverReused : NeverReused c.outcomes
  closed : .broken ∈ c.outcomes → c.isOpen = false
  fresh : c.started = false → c.isOpen = false ∧ c.outcomes = []

theorem abandoned_accepted (connType : ConnType) : Abandoned (Connection.accepted connType) where
  neverReused := List.Pairwise.nil
  closed _ := rfl
  fresh _ := ⟨rfl, rfl⟩

theorem Abandoned.whole (abandoned : Abandoned c) (isOpen : c.isOpen = true) : .broken ∉ c.outcomes := fun broken =>
  absurd isOpen (by rw [abandoned.closed broken]; decide)

theorem Abandoned.send {checked : Bool} (started : c.started = true) (whole : .broken ∉ c.outcomes)
    (noticed : checked = true ∨ ¬ Interrupted breaksAt frames) : Abandoned (c.send frames checked breaksAt) where
  neverReused := neverReused_script whole breaksAt frames
  closed broken := by
    rcases List.mem_append.mp broken with earlier | now
    · exact absurd earlier whole
    · have failed := sendScript_failed now
      rcases noticed with rfl | whole
      · simp [Connection.send, failed]
      · exact absurd ((broken_iff_interrupted _ _).mp now) whole
  fresh unstarted := absurd unstarted (by rw [Connection.send, started]; decide)

theorem Abandoned.leave (abandoned : Abandoned c) (isOpen : c.isOpen = true) : Abandoned { c with isOpen := false } where
  neverReused := abandoned.neverReused
  closed _ := rfl
  fresh unstarted := absurd isOpen (by rw [(abandoned.fresh unstarted).1]; decide)

theorem Abandoned.started (abandoned : Abandoned c) (isOpen : c.isOpen = true) : c.started = true := by
  by_contra unstarted
  exact absurd isOpen (by rw [(abandoned.fresh (Bool.eq_false_iff.mpr unstarted)).1]; decide)

theorem send_whole (whole : .broken ∉ c.outcomes) (uncut : ¬ Interrupted breaksAt frames) (checked : Bool) :
    .broken ∉ (c.send frames checked breaksAt).outcomes := by
  intro broken
  rcases List.mem_append.mp broken with earlier | now
  · exact whole earlier
  · exact uncut ((broken_iff_interrupted _ _).mp now)

theorem Abandoned.step (abandoned : Abandoned c) (kept : StreamKept c event) (taken : c.step event = some next) :
    Abandoned next := by
  cases event with
  | connected d firstIncoming syncBreaksAt rsynBreaksAt =>
    simp only [Connection.step] at taken
    split_ifs at taken with started
    cases taken
    have nothing := (abandoned.fresh (Bool.eq_false_iff.mpr started)).2
    apply Abandoned.send
    · rfl
    · exact send_whole (by simp [nothing]) kept.1 false
    · exact .inr kept.2
  | pingDue breaksAt =>
    simp only [Connection.step] at taken
    split_ifs at taken with here
    cases taken
    exact .send (abandoned.started here.1) (abandoned.whole here.1) (.inl rfl)
  | drained queue breaksAt =>
    simp only [Connection.step] at taken
    split_ifs at taken with here
    cases taken
    exact .send (abandoned.started here.1) (abandoned.whole here.1) (.inl rfl)
  | received d frame breaksAt =>
    simp only [Connection.step] at taken
    split_ifs at taken with here
    cases handled : handleFrame c.connType d frame with
    | leave =>
      simp only [handled] at taken
      cases taken
      exact abandoned.leave here
    | reply frames checked =>
      simp only [handled] at taken
      cases taken
      apply Abandoned.send (abandoned.started here) (abandoned.whole here)
      cases checked with
      | true => exact .inl rfl
      | false =>
        simp only [StreamKept, handled] at kept
        exact .inr kept
  | ended =>
    simp only [Connection.step] at taken
    split_ifs at taken with here
    cases taken
    exact abandoned.leave here

/-- A connection that stays open although its stream broke off answers the next PING on it. -/
theorem reused_of_open (isOpen : c.isOpen = true) (broken : .broken ∈ c.outcomes) (d : Serving U) :
    ∃ last, Path Connection.step StreamKept c [.received d tagPING none] last ∧ ¬ NeverReused last.outcomes := by
  have handled : handleFrame c.connType d tagPING = .reply [tagPONG] true := by cases c.connType <;> rfl
  have kept : StreamKept c (.received d tagPING none) := by
    simp only [StreamKept, handled]
  have taken : c.step (.received d tagPING none) = some (c.send [tagPONG] true none) := by
    simp only [Connection.step, isOpen, if_true, handled]
  refine ⟨_, .single kept taken, fun never => ?_⟩
  have sent : (sendScript none [tagPONG]).2 = [.sent] := by decide
  have later := (List.pairwise_append.mp never).2.2 _ broken .sent (by rw [sent]; exact List.mem_singleton_self _) rfl
  cases later

theorem open_of_unkept (taken : c.step event = some next) (unkept : ¬ StreamKept c event) :
    next.isOpen = true ∧ .broken ∈ next.outcomes ∧ Nonempty (Serving U) := by
  cases event with
  | connected d firstIncoming syncBreaksAt rsynBreaksAt =>
    simp only [Connection.step] at taken
    split_ifs at taken with started
    cases taken
    refine ⟨by simp [Connection.send], ?_, ⟨d⟩⟩
    by_cases sync : Interrupted syncBreaksAt (syncRequest c.connType firstIncoming)
    · exact List.mem_append_left _ (List.mem_append_right _ ((broken_iff_interrupted _ _).mpr sync))
    · have rsyn := not_not.mp (fun whole => unkept ⟨sync, whole⟩)
      exact List.mem_append_right _ ((broken_iff_interrupted _ _).mpr rsyn)
  | pingDue breaksAt => exact absurd trivial unkept
  | drained queue breaksAt => exact absurd trivial unkept
  | received d frame breaksAt =>
    simp only [Connection.step] at taken
    split_ifs at taken with here
    cases handled : handleFrame c.connType d frame with
    | leave => exact absurd (by simp only [StreamKept, handled]) unkept
    | reply frames checked =>
      cases checked with
      | true => exact absurd (by simp only [StreamKept, handled]) unkept
      | false =>
        simp only [StreamKept, handled, not_not] at unkept
        simp only [handled] at taken
        cases taken
        exact ⟨by simp [Connection.send, here],
          List.mem_append_right _ ((broken_iff_interrupted _ _).mpr unkept), ⟨d⟩⟩
  | ended => exact absurd trivial unkept

theorem run_abandoned {connType : ConnType} {events : List (ConnectionEvent U)}
    (path : Path Connection.step StreamKept (Connection.accepted connType) events c) : Abandoned c :=
  path.invariant Abandoned (fun _ _ _ abandoned kept taken => abandoned.step kept taken) (abandoned_accepted connType)

/-- The initial requests and the replies to register frames are sent without a look at the result. -/
theorem broken_streams_abandoned (connType : ConnType) (events : List (ConnectionEvent U)) (c : Connection)
    (path : Path Connection.step StreamKept (Connection.accepted connType) events c) :
    NeverReused c.outcomes ∧ ∀ (event : ConnectionEvent U) (next : Connection), c.step event = some next →
      ((∀ (later : List (ConnectionEvent U)) (last : Connection), Path Connection.step StreamKept next later last →
        NeverReused last.outcomes) ↔ StreamKept c event) := by
  have abandoned := run_abandoned path
  refine ⟨abandoned.neverReused, fun event next taken => ⟨fun never => ?_, fun kept later last onward => ?_⟩⟩
  · by_contra unkept
    obtain ⟨isOpen, broken, ⟨d⟩⟩ := open_of_unkept taken unkept
    obtain ⟨last, onward, reused⟩ := reused_of_open isOpen broken d
    exact reused (never _ last onward)
  · exact (onward.invariant Abandoned (fun _ _ _ abandoned kept taken => abandoned.step kept taken)
      (abandoned.step kept taken)).neverReused

instance streamKeptDecidable (c : Connection) (event : ConnectionEvent U) : Decidable (StreamKept c event) := by
  cases event with
  | connected d firstIncoming syncBreaksAt rsynBreaksAt => exact inferInstanceAs (Decidable (_ ∧ _))
  | received d frame breaksAt =>
    cases handled : handleFrame c.connType d frame with
    | leave => exact .isTrue (by simp only [StreamKept, handled])
    | reply frames checked =>
      cases checked with
      | true => exact .isTrue (by simp only [StreamKept, handled])
      | false => exact decidable_of_iff (¬ Interrupted breaksAt frames) (by simp only [StreamKept, handled])
  | pingDue | drained | ended => exact .isTrue trivial

namespace BrokenStreamSample

open ClippModel.Clipboard ClippModel.Clipboard.ClipboardPayload ClippModel.Platform ClippModel.Registers

def stamp : OriginStamp where
  originHostId := .zero
  originHostName := zeroBytes _
  eventGuid := zeroBytes _
  originSequenceNumber := 0
  timestamp := 0

def daemon : Serving UInt32 where
  registersDaemon := true
  servesNetmap := true
  registers := ClippModel.Wire.Peer.defaultStore .zero {}
  clock := .all 0
  rebroadcast := 0
  names := { localHostId := none, localHostName := [], knownPeers := [] }
  codec := ClippProof.Clipboard.runLength
  stamp := stamp
  activity := {}
  syncMaxItems := 0
  wide := posix
  version := ⟨ascii "0.0.0.0", List.all_eq_true.mp (by decide)⟩
  selfId := .zero
  selfName := []
  now := 0
  requester := .zero
  displayed := []

def brokenPong : List (ConnectionEvent UInt32) :=
  [.connected daemon true none none, .received daemon tagRGET none, .received daemon tagPING (some 0)]

/-- The answer to a fetch breaks off, and the next PING is answered. -/
def brokenFetch : List (ConnectionEvent UInt32) :=
  [.connected daemon true none none, .received daemon tagRGET (some 0), .received daemon tagPING none]

end BrokenStreamSample

theorem broken_pong_abandoned :
    NeverReused (lastOf Connection.step (Connection.accepted .incoming) BrokenStreamSample.brokenPong).outcomes :=
  (broken_streams_abandoned _ _ _ (fitting_to_lastOf (by decide +kernel))).1

theorem broken_fetch_reused : ¬ ∀ (events : List (ConnectionEvent UInt32)) (c : Connection),
    Path Connection.step (fun _ _ => True) (Connection.accepted .incoming) events c → NeverReused c.outcomes := by
  intro never
  have reused := never BrokenStreamSample.brokenFetch _
    (path_to_lastOf (fun _ _ _ => trivial) (by decide +kernel))
  exact absurd reused (by unfold NeverReused; decide +kernel)

end ClippProof.Peers
