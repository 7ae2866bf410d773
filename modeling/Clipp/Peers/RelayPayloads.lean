import Clipp.Clipboard.Receive
import Clipp.Peers.OneShotDialogue

open Foundation

namespace ClippModel.Peers.OneShot

open ClippModel.Clipboard ClippModel.Clipboard.ClipboardPayload ClippModel.Wire.Handshake

inductive RelayStage where
  | sending (rest : List ClipboardPayload)
  | waiting
  | ending
  | left (acked : Bool)

def sendClipboardPayload {τ ρ : Type} (payload : ClipboardPayload) (next : Bool → τ) (refused : ρ) : Act Bytes τ ρ :=
  if payload.encoded.length > ClipboardWire.kMaxEncodedPayloadBytes then .leave refused
  else .send (clipboardFrame payload) next

/-- The fence: what follows a `PING`, up to its `PONG`. -/
def awaitPong {τ : Type} (waiting ending acked failed : τ) : Option Bytes → τ
  | none => failed
  | some frame =>
    if frame.length < 4 then failed
    else if frame.take 4 = tagPONG then acked
    else if frame.take 4 = tagSYNC then ending
    else waiting

def relayAct : RelayStage → Act Bytes RelayStage (Option Unit)
  | .sending (payload :: rest) =>
    sendClipboardPayload payload (fun sent => if sent then .sending rest else .left false) none
  | .sending [] => .send tagPING fun sent => if sent then .waiting else .left false
  | .waiting => .receive (awaitPong .waiting .ending (.left true) (.left false))
  | .ending => .send tagEOSY fun sent => if sent then .waiting else .left false
  | .left acked => .leave (if acked then some () else none)

def relayPayloads (payloads : List ClipboardPayload) : Verb RelayStage Unit where
  exchange := { start := .sending (payloads.map fun payload => payload.addFlags clpmFlagRelay), act := relayAct }
  needs := cap0ServesRecent

def dispatched (frame : Bytes) : Option ClipboardPayload :=
  if frame.take 4 = tagCLIP then ClipboardWire.tryDecodeClipboardFrame frame else none

end ClippModel.Peers.OneShot

namespace ClippProof.Peers.OneShot

open ClippModel.Clipboard ClippModel.Clipboard.ClipboardPayload ClippModel.Clipboard.ClipboardWire
  ClippModel.Peers ClippModel.Peers.OneShot ClippModel.Wire.Handshake ClippProof.Clipboard ClippProof.Wire.Handshake

variable {κ σ U τ ρ : Type} {N : Sodium κ σ} {caller : Caller} {payloads : List ClipboardPayload}
  {p q : ClipboardPayload} {pushed got : List Bytes} {e : Served U} {frame : Bytes}

def isPing (frame : Bytes) : Bool := frame.take 4 = tagPING

def isPong (frame : Bytes) : Bool := frame.take 4 = tagPONG

section Frames

theorem clipboardFrame_long (p : ClipboardPayload) : ¬ (clipboardFrame p).length < 4 := by
  have tagged := congrArg List.length (clipboardFrame_tag p)
  rw [List.length_take] at tagged
  have four : tagCLIP.length = 4 := rfl
  omega

theorem dispatched_own (decoded : dispatched (clipboardFrame p) = some q) : q = p := by
  rw [dispatched, if_pos (clipboardFrame_tag p)] at decoded
  rw [tryDecodeClipboardFrame, clipboardFrame_rest, reads_message p.meta_ p.encoded] at decoded
  simp only [] at decoded
  split_ifs at decoded
  exact (Option.some.inj decoded).symm

theorem handling_clip (here : e.frame = clipboardFrame p) (minded : e.handling ≠ .leave) :
    dispatched e.frame = some p := by
  rw [Served.handling, handleIncoming, here, if_neg (clipboardFrame_long p), clipboardFrame_tag,
    if_neg (by decide), if_pos rfl] at minded
  cases decoded : tryDecodeClipboardFrame (clipboardFrame p) with
  | none =>
    rw [decoded] at minded
    exact absurd rfl minded
  | some q =>
    have whole : dispatched (clipboardFrame p) = some q := by
      rw [dispatched, if_pos (clipboardFrame_tag p), decoded]
    rw [here, whole, dispatched_own whole]

theorem replies_clip (here : e.frame = clipboardFrame p) : e.replies = [] := by
  rw [Served.replies, Served.handling, handleIncoming, here, if_neg (clipboardFrame_long p), clipboardFrame_tag,
    if_neg (by decide), if_pos rfl]
  cases tryDecodeClipboardFrame (clipboardFrame p) <;> rfl

theorem replies_ping (here : e.frame = tagPING) : e.replies = [tagPONG] := by
  rw [Served.replies, Served.handling, handleIncoming, here]
  rfl

theorem replies_eosy (here : e.frame = tagEOSY) : e.replies = [] := by
  rw [Served.replies, Served.handling, handleIncoming, here]
  rfl

end Frames

section Flags

theorem or_and_flags32 (a b c : UInt32) : (a ||| b) &&& c = (a &&& c) ||| (b &&& c) :=
  UInt32.toBitVec_inj.1 BitVec.and_or_distrib_right

theorem or_and_not {flags bit : UInt32} (unset : flags &&& bit = 0) : (flags ||| bit) &&& ~~~bit = flags := by
  apply UInt32.toBitVec_inj.mp
  apply BitVec.eq_of_getLsbD_eq
  intro i inside
  have apart := congrArg (fun word => word.toBitVec.getLsbD i) unset
  simp [inside] at apart ⊢
  cases here : flags.toBitVec[i] with
  | false => simp
  | true => simp [apart here]

theorem forwarded_flagged (fresh : p.isRelay = false) (live : p.isReplay = false) :
    forwarded (p.addFlags clpmFlagRelay) = some p := by
  have unset : p.meta_.flags &&& clpmFlagRelay = 0 := by simpa [isRelay] using fresh
  have apart : clpmFlagRelay &&& clpmFlagSyncReplay = 0 := by decide
  have self : clpmFlagRelay &&& clpmFlagRelay = clpmFlagRelay := by decide
  have flagged : (p.addFlags clpmFlagRelay).isRelay = true := by
    simp only [isRelay, addFlags, or_and_flags32, unset, self, UInt32.zero_or]
    decide
  have still : (p.addFlags clpmFlagRelay).isReplay = false := by
    simpa only [isReplay, addFlags, or_and_flags32, apart, UInt32.or_zero] using live
  rw [forwarded, flagged, still]
  simp only [Bool.not_false, Bool.and_self, if_true, clearRelay, addFlags, or_and_not unset]

end Flags

section Relaying

def fenced (payloads : List ClipboardPayload) (n : Nat) : List Bytes :=
  payloads.map clipboardFrame ++ tagPING :: List.replicate n tagEOSY

def RelayTold (payloads : List ClipboardPayload) (pushed got : List Bytes) : RelayStage → Prop
  | .sending rest => ∃ done, payloads = done ++ rest ∧ pushed = done.map clipboardFrame ∧ got = []
  | .waiting | .ending => (∃ n, pushed = fenced payloads n) ∧ got.filter isPong = []
  | .left acked => acked = true → (∃ n, pushed = fenced payloads n) ∧ (got.filter isPong).length = 1

theorem fenced_succ (payloads : List ClipboardPayload) (n : Nat) :
    fenced payloads n ++ [tagEOSY] = fenced payloads (n + 1) := by
  rw [fenced, fenced, List.replicate_succ', List.append_assoc, List.cons_append]

theorem relay_send {state : RelayStage} {message : Bytes} {next : Bool → RelayStage} {out : List Bytes} {sent : Bool}
    (told : RelayTold payloads pushed got state) (act : relayAct state = .send message next)
    (whole : sent = true → out = [message]) : RelayTold payloads (pushed ++ out) got (next sent) := by
  cases state with
  | sending rest =>
    obtain ⟨done, split, before, silent⟩ := told
    cases rest with
    | nil =>
      simp only [relayAct, Act.send.injEq] at act
      obtain ⟨rfl, rfl⟩ := act
      cases sent with
      | false => exact fun acked => absurd acked Bool.false_ne_true
      | true =>
        rw [whole rfl, before, silent, ← List.append_nil done, ← split]
        exact ⟨⟨0, rfl⟩, rfl⟩
    | cons p rest =>
      simp only [relayAct, OneShot.sendClipboardPayload] at act
      split_ifs at act
      simp only [Act.send.injEq] at act
      obtain ⟨rfl, rfl⟩ := act
      cases sent with
      | false => exact fun acked => absurd acked Bool.false_ne_true
      | true =>
        refine ⟨done ++ [p], by rw [split, List.append_assoc]; rfl, ?_, silent⟩
        rw [whole rfl, before, List.map_append]
        rfl
  | waiting => simp [relayAct] at act
  | ending =>
    simp only [relayAct, Act.send.injEq] at act
    obtain ⟨rfl, rfl⟩ := act
    cases sent with
    | false => exact fun acked => absurd acked Bool.false_ne_true
    | true =>
      obtain ⟨⟨n, before⟩, quiet⟩ := told
      rw [whole rfl, before, fenced_succ]
      exact ⟨⟨n + 1, rfl⟩, quiet⟩
  | left acked => simp [relayAct] at act

theorem relay_receive {state : RelayStage} {next : Option Bytes → RelayStage} {frame : Option Bytes}
    (told : RelayTold payloads pushed got state) (act : relayAct state = .receive next) :
    RelayTold payloads pushed (got ++ frame.toList) (next frame) := by
  cases state with
  | sending rest =>
    cases rest with
    | nil => simp [relayAct] at act
    | cons p rest =>
      simp only [relayAct, OneShot.sendClipboardPayload] at act
      split_ifs at act
  | waiting =>
    simp only [relayAct, Act.receive.injEq] at act
    subst act
    obtain ⟨before, quiet⟩ := told
    cases frame with
    | none => exact fun acked => absurd acked Bool.false_ne_true
    | some frame =>
      rw [Option.toList_some]
      simp only [awaitPong]
      split_ifs with short pong sync
      · exact fun acked => absurd acked Bool.false_ne_true
      · refine fun _ => ⟨before, ?_⟩
        have marked : isPong frame = true := decide_eq_true pong
        rw [List.filter_append, quiet, List.filter_singleton, marked]
        rfl
      all_goals
        have unmarked : isPong frame = false := decide_eq_false pong
        refine ⟨before, ?_⟩
        rw [List.filter_append, quiet, List.filter_singleton, unmarked]
        rfl
  | ending => simp [relayAct] at act
  | left acked => simp [relayAct] at act

theorem relay_told {state : RelayStage} (talk : (relayPayloads payloads).exchange.Talk Fits pushed got state) :
    RelayTold (payloads.map fun payload => payload.addFlags clpmFlagRelay) pushed got state := by
  induction talk with
  | start => exact ⟨[], rfl, rfl, rfl⟩
  | send sent out _ act whole _ ih => exact relay_send ih act whole
  | receive frame _ act ih => exact relay_receive ih act

theorem fenced_frames {n : Nat} (member : frame ∈ fenced payloads n) :
    (∃ p ∈ payloads, clipboardFrame p = frame) ∨ frame = tagPING ∨ frame = tagEOSY := by
  rcases List.mem_append.mp member with clip | tail
  · exact .inl (List.mem_map.mp clip)
  · rcases List.mem_cons.mp tail with ping | word
    · exact .inr (.inl ping)
    · exact .inr (.inr (List.eq_of_mem_replicate word))

theorem clip_unmarked (p : ClipboardPayload) : isPing (clipboardFrame p) = false := by
  rw [isPing, clipboardFrame_tag]
  decide

theorem fenced_pings (payloads : List ClipboardPayload) (n : Nat) : (fenced payloads n).filter isPing = [tagPING] := by
  have clips : (payloads.map clipboardFrame).filter isPing = [] := by
    apply List.filter_eq_nil_iff.mpr
    intro frame member
    obtain ⟨p, -, rfl⟩ := List.mem_map.mp member
    rw [clip_unmarked]
    exact Bool.false_ne_true
  have words : (List.replicate n tagEOSY).filter isPing = [] := by
    apply List.filter_eq_nil_iff.mpr
    intro frame member
    rw [List.eq_of_mem_replicate member]
    decide
  rw [fenced, List.filter_append, clips, List.nil_append, List.filter_cons_of_pos (by decide), words]

theorem fenced_answering {n : Nat} {log : List (Served U)} (read : ∀ e ∈ log, e.frame ∈ fenced payloads n) :
    Answering Greets Served.replies Served.frame isPing isPong log where
  greeting m greets := by
    rcases greets with sync | rsyn
    · rw [isPong, sync]
      decide
    · rw [isPong, rsyn]
      decide
  once e member := by
    rcases fenced_frames (read e member) with ⟨p, -, here⟩ | here | here
    · simp [replies_clip here.symm]
    · rw [replies_ping here]
      decide
    · simp [replies_eosy here]
  asked e member unasked := by
    rcases fenced_frames (read e member) with ⟨p, -, here⟩ | here | here
    · rw [replies_clip here.symm]
      rfl
    · rw [here] at unasked
      exact absurd unasked (by decide)
    · rw [replies_eosy here]
      rfl

/-- Whoever has read the whole fence has dispatched what stands before it, and nothing else. -/
theorem fenced_dispatched {n : Nat} {log : List (Served U)} (read : log.map Served.frame <+: fenced payloads n)
    (through : payloads.map clipboardFrame ++ [tagPING] <+: log.map Served.frame)
    (stayed : ∀ e ∈ log.dropLast, e.handling ≠ .leave) :
    (log.map Served.frame).filterMap dispatched = payloads := by
  obtain ⟨rest, consumed⟩ := through
  have words : ∀ frame ∈ rest, frame = tagEOSY := by
    rw [← consumed, fenced, List.append_assoc, List.singleton_append] at read
    have inside := (List.prefix_cons_inj _).mp ((List.prefix_append_right_inj _).mp read)
    exact fun frame member => List.eq_of_mem_replicate (inside.subset member)
  have clips : (payloads.map clipboardFrame).filterMap dispatched = payloads := by
    rw [List.filterMap_map]
    have each : ∀ p ∈ payloads, (dispatched ∘ clipboardFrame) p = some p := by
      intro p member
      have early : clipboardFrame p ∈ (log.map Served.frame).dropLast := by
        rw [← consumed, List.append_assoc, List.dropLast_append_of_ne_nil (by simp)]
        exact List.mem_append_left _ (List.mem_map_of_mem member)
      rw [← List.map_dropLast] at early
      obtain ⟨e, inside, here⟩ := List.mem_map.mp early
      rw [Function.comp_apply, ← here]
      exact handling_clip here (stayed e inside)
    rw [List.filterMap_congr each, List.filterMap_some]
  have nothing : rest.filterMap dispatched = [] := by
    apply List.filterMap_eq_nil_iff.mpr
    intro frame member
    rw [words frame member]
    decide
  have ping : dispatched tagPING = none := by decide
  rw [← consumed, List.filterMap_append, List.filterMap_append, clips, nothing, List.filterMap_cons, ping,
    List.filterMap_nil, List.append_nil, List.append_nil]

end Relaying

section Delivery

variable {events : List (MeshEvent U)} {m : Mesh κ σ U RelayStage Unit} {r : Finished Unit}

theorem relay_acked {state : RelayStage} {value : Unit} (leaves : relayAct state = .leave (some value)) :
    state = .left true := by
  cases state with
  | sending rest =>
    cases rest with
    | nil => simp [relayAct] at leaves
    | cons p rest =>
      simp only [relayAct, OneShot.sendClipboardPayload] at leaves
      split_ifs at leaves
      simp at leaves
  | waiting => simp [relayAct] at leaves
  | ending => simp [relayAct] at leaves
  | left acked =>
    cases acked with
    | false => simp [relayAct] at leaves
    | true => rfl

/-- A relay that returned a peer went through: whatever the network did, the gateway it names has taken every payload,
    in order, once and nothing else, and what it owes the mesh for them is what was handed over. -/
theorem relay_delivered (ideal : N.kx.Ideal) (ran : Ran N caller (relayPayloads payloads) events m)
    (apart : NoCollision m.world) (done : r ∈ m.result) : caller.takes r.peer = true ∧
      ∃ log, GatewayOf caller (relayPayloads payloads) m r log ∧
        (log.map Served.frame).filterMap dispatched = payloads.map (fun payload => payload.addFlags clpmFlagRelay) ∧
        ((∀ payload ∈ payloads, payload.isRelay = false ∧ payload.isReplay = false) →
          ((log.map Served.frame).filterMap dispatched).filterMap forwarded = payloads) := by
  obtain ⟨takes, visits, pushed, got, state, -, talk, leaves, answered⟩ := ran.behind ideal apart done
  obtain rfl := relay_acked leaves
  obtain ⟨⟨n, before⟩, one⟩ := relay_told talk rfl
  have listened : got ≠ [] := by
    intro nothing
    rw [nothing] at one
    exact absurd one (by decide)
  obtain ⟨log, behind⟩ := answered listened
  obtain ⟨sent, came, responded⟩ := behind.answered
  have read := behind.read
  rw [before] at read
  have answering := fenced_answering fun e member => read.subset (List.mem_map_of_mem member)
  have enough : ((fenced (payloads.map fun payload => payload.addFlags clpmFlagRelay) n).filter isPing).length ≤
      (got.filter isPong).length := by
    rw [fenced_pings, one]
    exact le_rfl
  obtain ⟨asked, -⟩ := settled answering responded read came enough
  have reached : ∃ frame ∈ log.map Served.frame, isPing frame = true := by
    have member : tagPING ∈ (log.map Served.frame).filter isPing := by
      rw [asked, fenced_pings]
      exact List.mem_cons_self
    exact ⟨tagPING, List.mem_of_mem_filter member, by decide⟩
  have clear : ∀ frame ∈ (payloads.map fun payload => payload.addFlags clpmFlagRelay).map clipboardFrame,
      isPing frame = false := by
    intro frame member
    obtain ⟨p, -, rfl⟩ := List.mem_map.mp member
    exact clip_unmarked p
  have all := fenced_dispatched read (read_through read reached clear) behind.stayed
  refine ⟨takes, log, behind.gateway, all, fun fresh => ?_⟩
  rw [all, List.filterMap_map]
  have each : ∀ payload ∈ payloads,
      (forwarded ∘ fun payload => payload.addFlags clpmFlagRelay) payload = some payload :=
    fun payload member => forwarded_flagged (fresh payload member).1 (fresh payload member).2
  rw [List.filterMap_congr each, List.filterMap_some]

def copied : ClipboardPayload := (setUncompressedBytes runLength utf8Item (ascii "hi" ++ [0])).getD utf8Item

def copying : SampleRun (relayPayloads [copied]) id () 0 where
  events :=
    meeting ++ [.greet 1 BrokenStreamSample.daemon true (fun _ _ => none) (fun _ _ => none)] ++
      asks (clipboardFrame (copied.addFlags clpmFlagRelay)) 1 BrokenStreamSample.daemon ++
      asks tagPING 2 BrokenStreamSample.daemon ++ hears (tagSYNC ++ List.replicate 16 0) 0 ++
      [.proceed fun _ _ => none] ++ hears ((rsynRequest BrokenStreamSample.daemon).flatten) 1 ++ hears tagPONG 2 ++
      [.proceed fun _ _ => none]
  sound := by decide +kernel

theorem copied_through_den : ∃ (m : Mesh _ _ UInt32 RelayStage Unit) (log : List (Served UInt32)),
    Ran plainSodium lapCalls (relayPayloads [copied]) copying.events m ∧ m.result.map Finished.value = some () ∧
      ((log.map Served.frame).filterMap dispatched).filterMap forwarded = [copied] := by
  obtain ⟨m, r, ran, apart, done, told, -⟩ := copying.ended
  obtain ⟨-, log, -, -, passed⟩ := relay_delivered (KeyExchange.named_ideal padded) ran apart done
  exact ⟨_, log, ran, Option.map_eq_some_iff.mpr ⟨r, done, told⟩, passed (by decide)⟩

end Delivery

end ClippProof.Peers.OneShot
