import Clipp.Cli.GatewayAnswers
import Clipp.Wire.RegisterCodecs

open Foundation

namespace ClippProof.Cli

open ClippModel.Cli ClippModel.Clipboard ClippModel.Clipboard.ClipboardPayload ClippModel.Gateway ClippModel.Peers
  ClippModel.Peers.OneShot ClippModel.Registers ClippModel.Registers.RegisterStore ClippModel.Wire
  ClippModel.Wire.CryptoChannel ClippModel.Wire.Handshake ClippModel.Wire.Peer ClippModel.Wire.RegisterWire
  ClippProof.Gateway ClippProof.Peers ClippProof.Peers.OneShot ClippProof.Registers ClippProof.Wire
  ClippProof.Wire.Handshake

variable {κ σ U μ ρ : Type} {N : Sodium κ σ} {caller : Caller} {needs : UInt8} {events : List (MeshEvent U)}
  {I : Interview μ ρ} {known : μ} {exchanges : List (Exchanged μ)} {e : Served U} {name answer : Bytes}

section Speaking

theorem heeds_waitsOn : Heeds (waitsOn : Bytes → Verdict μ) := fun _ heeded => absurd rfl heeded

theorem Heeds.onTag {tag : Bytes} {next : μ} {otherwise : Bytes → Verdict μ} (word : tag ≠ tagSYNC ∧ tag ≠ tagRSYN)
    (rest : Heeds otherwise) : Heeds (onTag tag next otherwise) := by
  intro frame heeded
  rw [ClippModel.Cli.onTag] at heeded
  split_ifs at heeded with tagged
  · rw [isAnswer, tagged]
    exact decide_eq_true word
  · exact rest frame heeded

theorem Heeds.map {ν : Type} {verdict : Bytes → Verdict μ} (heeds : Heeds verdict) (f : μ → ν) :
    Heeds fun frame => (verdict frame).map f := by
  intro frame heeded
  apply heeds
  intro ignored
  simp only [ignored, Verdict.map] at heeded
  exact heeded rfl

theorem heeds_tagged {tag : Bytes} {verdict : Bytes → Verdict μ} (word : tag ≠ tagSYNC ∧ tag ≠ tagRSYN)
    {rest : Bytes → Verdict μ} (otherwise : Heeds rest) :
    Heeds fun frame => if frame.take 4 = tag then verdict frame else rest frame := by
  intro frame heeded
  by_cases tagged : frame.take 4 = tag
  · rw [isAnswer, tagged]
    exact decide_eq_true word
  · simp only [if_neg tagged] at heeded
    exact otherwise frame heeded

theorem heeds_record (name : Bytes) : Heeds (onRecord name) :=
  heeds_tagged (by decide) (heeds_waitsOn.onTag (by decide))

theorem heeds_list : Heeds onList := heeds_tagged (by decide) heeds_waitsOn

theorem heeds_recent (C : Codec) (windows : Bool) : Heeds (onRecent C windows) :=
  heeds_tagged (by decide) (heeds_waitsOn.onTag (by decide))

theorem asks_one {frame tag : Bytes} (tagged : frame.take 4 = tag)
    (listed : tag ∈ [tagPING, tagRCNT, tagREGW, tagRGET, tagRLST]) : ∃ before last, [frame] = before ++ [last] ∧
      isQuestion last = true ∧ ∀ frame ∈ before, frame.take 4 = tagCLIP :=
  ⟨[], frame, rfl, isQuestion_of_tag tagged listed, fun _ member => absurd member List.not_mem_nil⟩

theorem wellAsked_record (name : Bytes) (next : Option RegisterRecord → μ) : WellAsked (askRecord name next) :=
  ⟨asks_one (tagged_take rfl) (by decide), (heeds_record name).map next⟩

theorem wellAsked_list (next : List RegisterListEntry → μ) : WellAsked (askList next) :=
  ⟨asks_one rfl (by decide), heeds_list.map next⟩

theorem map_answered {ν : Type} {f : μ → ν} {verdict : Verdict μ} {next : ν} :
    verdict.map f = .answered next ↔ ∃ known, verdict = .answered known ∧ f known = next := by
  cases verdict <;> simp [Verdict.map]

end Speaking

section Single

variable {η : Type}

structure Single (I : Interview (Option η) ρ) (question : Question (Option η)) : Prop where
  start : I.start = none
  first : I.next none = .inl question
  stops : ∀ told, ∃ result, I.next (some told) = .inr result
  settles : ∀ frame, question.verdict frame ≠ .answered none
  well : WellAsked question

variable {I : Interview (Option η) ρ} {question : Question (Option η)} {exchanges : List (Exchanged (Option η))}
  {known : Option η} {m : Mesh κ σ U (InterviewStage (Option η) ρ) ρ} {r : Finished ρ}

theorem Single.speaking (single : Single I question) : Speaking I := by
  intro known asked next
  cases known with
  | none =>
    rw [single.first] at next
    obtain rfl := Sum.inl.inj next
    exact single.well
  | some told =>
    obtain ⟨result, stop⟩ := single.stops told
    rw [stop] at next
    cases next

theorem Single.transcript (single : Single I question) (transcript : Transcript I exchanges known) :
    (known = none → exchanges = []) ∧ ∀ told, known = some told → ∃ frame,
      exchanges = [{ question := question, answer := frame }] ∧ question.verdict frame = .answered (some told) := by
  induction transcript with
  | start =>
    exact ⟨fun _ => rfl, fun told same => absurd (single.start.symm.trans same) (Option.some_ne_none told).symm⟩
  | @answered exchanges known next asked frame _ first verdict ih =>
    cases known with
    | none =>
      rw [single.first] at first
      obtain rfl := Sum.inl.inj first
      refine ⟨fun none => absurd (none ▸ verdict) (single.settles frame), fun told same => ⟨frame, ?_, same ▸ verdict⟩⟩
      rw [ih.1 rfl, List.nil_append]
    | some told =>
      obtain ⟨result, stop⟩ := single.stops told
      rw [stop] at first
      cases first

theorem single_answered (ideal : N.kx.Ideal) (ran : Ran N caller (I.verb needs) events m)
    (apart : NoCollision m.world) (done : r ∈ m.result) (single : Single I question) :
    caller.takes r.peer = true ∧ ∃ log e frame told, GatewayOf caller (I.verb needs) m r log ∧
      log.filter (fun e => isQuestion e.frame) = [e] ∧ e.frame = question.frames.getLastD [] ∧
      e.replies.filter isAnswer = [frame] ∧ question.verdict frame = .answered (some told) ∧
      I.next (some told) = .inr (some r.value) := by
  obtain ⟨takes, known, exchanges, next, transcript, -, behind⟩ := verb_answered ideal ran apart done single.speaking
  obtain ⟨told, rfl⟩ : ∃ told, known = some told := by
    cases known with
    | none =>
      rw [single.first] at next
      cases next
    | some told => exact ⟨told, rfl⟩
  obtain ⟨frame, rfl, verdict⟩ := (single.transcript transcript).2 told rfl
  obtain ⟨log, gateway, -, answers, -⟩ := behind (by simp)
  obtain ⟨e, rest, answered, none, asked⟩ := List.forall₂_cons_right_iff.mp answers
  rw [List.forall₂_nil_right_iff.mp none] at asked
  exact ⟨takes, log, e, frame, told, gateway, asked, answered.frame, answered.answer, verdict, next⟩

end Single

/-- Every store a gateway serves from holds what the wire can carry. -/
def Fitting (events : List (MeshEvent U)) : Prop :=
  ∀ j d link, MeshEvent.serve j d link ∈ events → WireFit d.registers

theorem gateway_fit {τ : Type} {V : Verb τ ρ} {m : Mesh κ σ U τ ρ} {r : Finished ρ} {log : List (Served U)}
    (gateway : GatewayOf caller V m r log) (ran : Ran N caller V events m) (fitting : Fitting events)
    (member : e ∈ log) : WireFit e.serving.registers := by
  obtain ⟨j, s, c, -, -, -, -, -, looped⟩ := gateway
  obtain ⟨link, served⟩ := ran.served looped member
  exact fitting j e.serving link served

section Samples

def still : Framing.Link := fun _ _ => none

def oneQuestion (question answer : Bytes) (d : Serving UInt32) : List (MeshEvent UInt32) :=
  meeting ++ [.greet 1 d false still still] ++ asks question 1 d ++ hears (rsynRequest d).flatten 0 ++
    hears answer 1 ++ [.proceed still]

theorem Fitting.append {left right : List (MeshEvent U)} (first : Fitting left) (second : Fitting right) :
    Fitting (left ++ right) := by
  intro j d link member
  rcases List.mem_append.mp member with before | after
  · exact first j d link before
  · exact second j d link after

theorem fitting_asks {d : Serving UInt32} (fit : WireFit d.registers) (message : Bytes) (n : UInt8) :
    Fitting (asks message n d) := by
  intro j d' link member
  simp only [asks, List.mem_cons, reduceCtorEq, MeshEvent.serve.injEq, List.not_mem_nil, or_false, false_or] at member
  rw [member.2.1]
  exact fit

theorem fitting_hears (message : Bytes) (n : UInt8) : Fitting (hears message n) := by
  intro j d' link member
  simp [hears] at member

theorem fitting_meeting (d : Serving UInt32) : Fitting (meeting ++ [MeshEvent.greet 1 d false still still]) := by
  intro j d' link member
  simp [meeting] at member

theorem fitting_proceed : Fitting [(.proceed still : MeshEvent U)] := by
  intro j d' link member
  simp at member

theorem oneQuestion_fitting {d : Serving UInt32} (fit : WireFit d.registers) (question answer : Bytes) :
    Fitting (oneQuestion question answer d) :=
  ((((fitting_meeting d).append (fitting_asks fit _ _)).append (fitting_hears _ _)).append (fitting_hears _ _)).append
    fitting_proceed

def key : Bytes := ascii "key"

def holding : Serving UInt32 := { BrokenStreamSample.daemon with
  registers := gatewayRun (defaultStore .zero {}) [.write (.upsertWithFlags (.all 0) key (ascii "value") 0 .zero)]
  activity := (({} : ClipboardActivityStore).addItem ⟨0, 0⟩ copied).store }

theorem holding_fit : WireFit holding.registers := wireFit_run .zero {} _

end Samples

section Copy

variable {isPrivate : Bool} {formatId : UInt32} {bytes : Bytes} {origin : HostId}
  {I : Interview (Option CopyOutcome) CopyOutcome}
  {m : Mesh κ σ U (InterviewStage (Option CopyOutcome) CopyOutcome) CopyOutcome} {r : Finished CopyOutcome}

def keyRecord : RegisterRecord := copiedRecord key false clippFormatUtf8 (ascii "value") laptop

end Copy

section Paste

variable {tty windows : Bool} {I : Interview (Option PasteOutcome) PasteOutcome}
  {m : Mesh κ σ U (InterviewStage (Option PasteOutcome) PasteOutcome) PasteOutcome} {r : Finished PasteOutcome}

theorem paste_single (verb : runRegisterPaste name tty windows = some I) : isValidRegisterName name = true ∧
    (∀ told, I.next (some told) = .inr (some told)) ∧
      Single I (askRecord name fun found => some (pasteFound tty windows found)) := by
  rw [runRegisterPaste] at verb
  split_ifs at verb with invalid
  obtain rfl := Option.some.inj verb
  refine ⟨by simpa using invalid, fun _ => rfl, rfl, rfl, fun told => ⟨some told, rfl⟩, fun frame => ?_,
    wellAsked_record name _⟩
  intro answered
  obtain ⟨found, -, same⟩ := map_answered.mp answered
  cases same

/-- What a paste wrote, or refused to write, is what the gateway read under the name. -/
theorem register_pasted (ideal : N.kx.Ideal) (verb : runRegisterPaste name tty windows = some I)
    (ran : Ran N caller (I.verb cap0ServesRegisters) events m) (fitting : Fitting events) (apart : NoCollision m.world)
    (done : r ∈ m.result) : caller.takes r.peer = true ∧
      ∃ log e, GatewayOf caller (I.verb cap0ServesRegisters) m r log ∧
        log.filter (fun e => isQuestion e.frame) = [e] ∧
        r.value = pasteFound tty windows (e.serving.registers.read e.serving.clock name).result := by
  obtain ⟨valid, stops, single⟩ := paste_single verb
  obtain ⟨takes, log, e, frame, told, gateway, asked, sent, answered, verdict, next⟩ :=
    single_answered ideal ran apart done single
  refine ⟨takes, log, e, gateway, asked, ?_⟩
  have member : e ∈ log := List.mem_of_mem_filter (by rw [asked]; exact List.mem_singleton_self e)
  obtain rfl := Option.some.inj (Sum.inr.inj ((stops told).symm.trans next))
  obtain ⟨found, heard, same⟩ := map_answered.mp verdict
  have read := asked_record valid (gateway_fit gateway ran fitting member) sent answered
  obtain rfl := Verdict.answered.inj (read.symm.trans heard)
  exact (Option.some.inj same).symm

def pasteRun : SampleRun ((registerPaste key true false).verb cap0ServesRegisters) id
    (PasteOutcome.written (ascii "value")) 0 where
  events := oneQuestion (tagRGET ++ u32Sized (encodeName key)) (rgetReply holding (encodeName key)) holding
  sound := by decide +kernel

theorem pasted_from_den : ∃ (m : Mesh _ _ UInt32 _ PasteOutcome) (r : Finished PasteOutcome) (e : Served UInt32),
    Ran plainSodium lapCalls ((registerPaste key true false).verb cap0ServesRegisters) pasteRun.events m ∧
      r ∈ m.result ∧
      r.value = .written (ascii "value") ∧
      r.value = pasteFound true false (e.serving.registers.read e.serving.clock key).result := by
  obtain ⟨m, r, ran, apart, done, written, -⟩ := pasteRun.ended
  obtain ⟨-, log, e, -, -, found⟩ := register_pasted (KeyExchange.named_ideal padded) (if_neg (by decide)) ran
    (oneQuestion_fitting holding_fit _ _) apart done
  exact ⟨_, r, e, ran, done, written, found⟩

end Paste

section Recent

variable {C : Codec} {windows : Bool}
  {m : Mesh κ σ U (InterviewStage (Option (Option Bytes)) Bytes) Bytes} {r : Finished Bytes}

def recentQuestion (C : Codec) (windows : Bool) : Question (Option (Option Bytes)) where
  frames := [tagRCNT]
  verdict frame := (onRecent C windows frame).map some
  endsChecked := true

theorem recent_single (C : Codec) (windows : Bool) : Single (runPaste C windows) (recentQuestion C windows) where
  start := rfl
  first := rfl
  stops content := ⟨content, rfl⟩
  settles frame answered := by
    obtain ⟨content, -, same⟩ := map_answered.mp answered
    cases same
  well := ⟨asks_one rfl (by decide), (heeds_recent C windows).map some⟩

/-- What a paste without a name wrote is the text of the newest item of the gateway. -/
theorem recent_pasted (ideal : N.kx.Ideal) (ran : Ran N caller ((runPaste C windows).verb cap0ServesRecent) events m)
    (apart : NoCollision m.world) (done : r ∈ m.result) : caller.takes r.peer = true ∧
      ∃ log e payload, GatewayOf caller ((runPaste C windows).verb cap0ServesRecent) m r log ∧
        log.filter (fun e => isQuestion e.frame) = [e] ∧ newestText e = some payload ∧
        recentBytes C windows payload = some r.value := by
  obtain ⟨takes, log, e, frame, told, gateway, asked, sent, answered, verdict, next⟩ :=
    single_answered ideal ran apart done (recent_single C windows)
  obtain ⟨content, heard, same⟩ := map_answered.mp verdict
  obtain rfl := Option.some.inj same
  obtain rfl := Sum.inr.inj next
  obtain ⟨payload, newest, text⟩ := asked_recent sent answered heard
  exact ⟨takes, log, e, payload, gateway, asked, newest, text⟩

def recentRun : SampleRun ((runPaste ClippProof.Clipboard.runLength false).verb cap0ServesRecent) id (ascii "hi") 0 where
  events := oneQuestion tagRCNT (rcntReply holding.activity) holding
  sound := by decide +kernel

theorem recent_from_den : ∃ (m : Mesh _ _ UInt32 _ Bytes) (r : Finished Bytes) (payload : ClipboardPayload),
    Ran plainSodium lapCalls ((runPaste ClippProof.Clipboard.runLength false).verb cap0ServesRecent)
      recentRun.events m ∧
      r ∈ m.result ∧ r.value = ascii "hi" ∧
      recentBytes ClippProof.Clipboard.runLength false payload = some (ascii "hi") := by
  obtain ⟨m, r, ran, apart, done, written, -⟩ := recentRun.ended
  obtain ⟨-, log, e, payload, -, -, -, text⟩ := recent_pasted (KeyExchange.named_ideal padded) ran apart done
  exact ⟨_, r, payload, ran, done, written, (congrArg some written) ▸ text⟩

end Recent

section Listing

variable {pattern : Bytes}
  {m : Mesh κ σ U (InterviewStage (Option (List RegisterListEntry)) (List RegisterListEntry)) (List RegisterListEntry)}
  {r : Finished (List RegisterListEntry)}

theorem ls_single (pattern : Bytes) : Single (runRegisterLs pattern) (askList some) where
  start := rfl
  first := rfl
  stops entries := ⟨some (lsShown pattern entries), rfl⟩
  settles frame answered := by
    obtain ⟨entries, -, same⟩ := map_answered.mp answered
    cases same
  well := wellAsked_list _

/-- What a listing shows is what the gateway has, as far as the wire carries it. -/
theorem registers_listed (ideal : N.kx.Ideal)
    (ran : Ran N caller ((runRegisterLs pattern).verb cap0ServesRegisters) events m) (fitting : Fitting events)
    (apart : NoCollision m.world) (done : r ∈ m.result) : caller.takes r.peer = true ∧
      ∃ log e, GatewayOf caller ((runRegisterLs pattern).verb cap0ServesRegisters) m r log ∧
        log.filter (fun e => isQuestion e.frame) = [e] ∧
        r.value = lsShown pattern (((liveRecords e.serving.registers e.serving.clock).take kMaxDigestEntries).map
          fun q => shipped (listEntry e.serving.names q)) := by
  obtain ⟨takes, log, e, frame, told, gateway, asked, sent, answered, verdict, next⟩ :=
    single_answered ideal ran apart done (ls_single pattern)
  refine ⟨takes, log, e, gateway, asked, ?_⟩
  have member : e ∈ log := List.mem_of_mem_filter (by rw [asked]; exact List.mem_singleton_self e)
  obtain ⟨entries, heard, same⟩ := map_answered.mp verdict
  have listed := asked_list (gateway_fit gateway ran fitting member) sent answered
  obtain rfl := Verdict.answered.inj (listed.symm.trans heard)
  obtain rfl := Option.some.inj same
  exact (Option.some.inj (Sum.inr.inj next)).symm

def listRun : SampleRun ((runRegisterLs []).verb cap0ServesRegisters) (List.map RegisterListEntry.name) [key] 0 where
  events :=
    oneQuestion tagRLST (tagRLST ++ u32Sized (listResponse holding.names holding.registers holding.clock)) holding
  sound := by decide +kernel

theorem listed_from_den : ∃ (m : Mesh _ _ UInt32 _ (List RegisterListEntry)) (r : Finished (List RegisterListEntry))
    (e : Served UInt32), Ran plainSodium lapCalls ((runRegisterLs []).verb cap0ServesRegisters) listRun.events m ∧
      r ∈ m.result ∧ r.value.map RegisterListEntry.name = [key] ∧
      r.value = lsShown [] (((liveRecords e.serving.registers e.serving.clock).take kMaxDigestEntries).map
        fun q => shipped (listEntry e.serving.names q)) := by
  obtain ⟨m, r, ran, apart, done, names, -⟩ := listRun.ended
  obtain ⟨-, log, e, -, -, shown⟩ := registers_listed (KeyExchange.named_ideal padded) ran
    (oneQuestion_fitting holding_fit _ _) apart done
  exact ⟨_, r, e, ran, done, names, shown⟩

end Listing

end ClippProof.Cli
