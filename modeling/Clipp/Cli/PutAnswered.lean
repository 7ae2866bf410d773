import Clipp.Cli.VerbsAnswered

open Foundation

namespace ClippProof.Cli

open ClippModel.Cli ClippModel.Clipboard ClippModel.Clipboard.ClipboardPayload ClippModel.Gateway ClippModel.Peers
  ClippModel.Peers.OneShot ClippModel.Registers ClippModel.Registers.RegisterStore ClippModel.Wire
  ClippModel.Wire.CryptoChannel ClippModel.Wire.Handshake ClippModel.Wire.Peer ClippModel.Wire.RegisterWire
  ClippProof.Gateway ClippProof.Peers ClippProof.Peers.OneShot ClippProof.Registers ClippProof.Wire
  ClippProof.Wire.Handshake

variable {κ σ U : Type} {N : Sodium κ σ} {caller : Caller} {events : List (MeshEvent U)} {C : Codec}
  {stamp : OriginStamp} {name : Bytes} {I : Interview PutStage PutOutcome} {exchanges : List (Exchanged PutStage)}
  {known : PutStage} {rec : RegisterRecord} {built : ClipboardPayload} {log : List (Served U)} {e : Served U}

section Transcripts

def promotion (stamp : OriginStamp) (built : ClipboardPayload) : ClipboardPayload :=
  (built.stampOrigin stamp).addFlags clpmFlagRelay

def promotionQuestion (stamp : OriginStamp) (built : ClipboardPayload) : Question PutStage where
  frames := [clipboardFrame (promotion stamp built), tagPING]
  verdict := onTag tagPONG (.ended .promoted) waitsOn
  endsChecked := true

theorem relayRecord_asks {question : Question PutStage} (asked : relayRecord C stamp rec = .inl question) :
    ∃ built, buildItem C rec = some built ∧ question = promotionQuestion stamp built := by
  rw [relayRecord] at asked
  split_ifs at asked
  cases made : buildItem C rec with
  | none =>
    rw [made] at asked
    cases asked
  | some built =>
    rw [made] at asked
    dsimp only at asked
    split_ifs at asked
    exact ⟨built, rfl, (Sum.inl.inj asked).symm⟩

theorem relayRecord_ended {outcome : PutOutcome} (ended : relayRecord C stamp rec = .inr (some outcome)) :
    outcome = .malformed ∧ rec.isBinary = true ∧ tryParseBinaryValue rec.value = none := by
  rw [relayRecord] at ended
  split_ifs at ended with unreadable
  · exact ⟨(Option.some.inj (Sum.inr.inj ended)).symm, unreadable⟩
  · cases made : buildItem C rec with
    | none =>
      rw [made] at ended
      cases ended
    | some built =>
      rw [made] at ended
      dsimp only at ended
      split_ifs at ended
      cases ended

def PutTold (C : Codec) (stamp : OriginStamp) (name : Bytes) (exchanges : List (Exchanged PutStage)) :
    PutStage → Prop
  | .fetching => exchanges = []
  | .fetched rec => ∃ x, exchanges = [x] ∧ x.question = askRecord name putFound ∧
      onRecord name x.answer = .answered (some rec)
  | .ended outcome =>
      (outcome = .absent ∧ ∃ x, exchanges = [x] ∧ x.question = askRecord name putFound ∧
        onRecord name x.answer = .answered none) ∨
      (outcome = .promoted ∧ ∃ x y rec built, exchanges = [x, y] ∧ x.question = askRecord name putFound ∧
        onRecord name x.answer = .answered (some rec) ∧ buildItem C rec = some built ∧
        y.question = promotionQuestion stamp built)

theorem put_eq (verb : Interview.runPut C stamp name = some I) : isValidRegisterName name = true ∧
    I.start = .fetching ∧ I.next .fetching = .inl (askRecord name putFound) ∧
      (∀ rec, I.next (.fetched rec) = relayRecord C stamp rec) ∧
      ∀ outcome, I.next (.ended outcome) = .inr (some outcome) := by
  rw [Interview.runPut] at verb
  split_ifs at verb with invalid
  obtain rfl := Option.some.inj verb
  exact ⟨by simpa using invalid, rfl, rfl, fun _ => rfl, fun _ => rfl⟩

theorem put_told (verb : Interview.runPut C stamp name = some I) (transcript : Transcript I exchanges known) :
    PutTold C stamp name exchanges known := by
  obtain ⟨-, start, fetching, fetched, ended⟩ := put_eq verb
  induction transcript with
  | start =>
    rw [start]
    rfl
  | @answered exchanges known next question frame _ asked verdict ih =>
    cases known with
    | fetching =>
      obtain rfl := Sum.inl.inj (fetching.symm.trans asked)
      obtain ⟨found, heard, rfl⟩ := map_answered.mp verdict
      have none : exchanges = [] := ih
      subst none
      cases found with
      | none => exact .inl ⟨rfl, _, rfl, rfl, heard⟩
      | some rec => exact ⟨_, rfl, rfl, heard⟩
    | fetched rec =>
      obtain ⟨x, rfl, question, heard⟩ := ih
      obtain ⟨built, made, rfl⟩ := relayRecord_asks ((fetched rec).symm.trans asked)
      have promoted : next = .ended .promoted := by
        simp only [promotionQuestion, onTag, waitsOn] at verdict
        split_ifs at verdict
        exact (Verdict.answered.inj verdict).symm
      subst promoted
      exact .inr ⟨rfl, x, _, rec, built, rfl, question, heard, made, rfl⟩
    | ended outcome => cases (ended outcome).symm.trans asked

theorem put_speaking (verb : Interview.runPut C stamp name = some I) : Speaking I := by
  obtain ⟨-, -, fetching, fetched, ended⟩ := put_eq verb
  intro known question asked
  cases known with
  | fetching =>
    obtain rfl := Sum.inl.inj (fetching.symm.trans asked)
    exact wellAsked_record name _
  | fetched rec =>
    obtain ⟨built, -, rfl⟩ := relayRecord_asks ((fetched rec).symm.trans asked)
    refine ⟨⟨[clipboardFrame (promotion stamp built)], tagPING, rfl, by decide, fun frame member => ?_⟩,
      heeds_waitsOn.onTag (by decide)⟩
    rw [List.mem_singleton.mp member]
    exact ClippProof.Clipboard.clipboardFrame_tag _
  | ended outcome => cases (ended outcome).symm.trans asked

end Transcripts

section Dispatching

theorem dispatched_other {frame : Bytes} (other : frame.take 4 ≠ tagCLIP) : dispatched frame = none := by
  rw [dispatched, if_neg other]

theorem dispatched_spoken (frames : List Bytes) : (frames.filter isSpoken).filterMap dispatched =
    frames.filterMap dispatched := by
  rw [List.filterMap_filter]
  apply List.filterMap_congr
  intro frame _
  cases spoken : isSpoken frame with
  | true => rfl
  | false =>
    have tag : frame.take 4 = tagEOSY := by simpa [isSpoken] using spoken
    rw [dispatched_other (by rw [tag]; decide)]
    rfl

theorem dispatched_before (front back : List Bytes) {last : Bytes} {p : ClipboardPayload}
    (said : (log.map Served.frame).filter isSpoken = front ++ clipboardFrame p :: (back ++ [last]))
    (other : last.take 4 ≠ tagCLIP) (stayed : ∀ e ∈ log.dropLast, e.handling ≠ .leave) :
    dispatched (clipboardFrame p) = some p := by
  have inside : clipboardFrame p ∈ (log.map Served.frame).filter isSpoken := by
    rw [said]
    exact List.mem_append_right _ List.mem_cons_self
  obtain ⟨e, member, here⟩ := List.mem_map.mp (List.mem_of_mem_filter inside)
  rcases List.eq_nil_or_concat log with none | ⟨earlier, final, rfl⟩
  · rw [none] at member
    cases member
  · rw [List.concat_eq_append] at member said stayed
    rw [List.dropLast_concat] at stayed
    rcases List.mem_append.mp member with early | late
    · rw [← here]
      exact handling_clip here (stayed e early)
    · -- The last frame of the log is spoken, so it is the last of what was said.
      obtain rfl := List.mem_singleton.mp late
      have spoken : isSpoken e.frame = true := by
        rw [here, isSpoken, ClippProof.Clipboard.clipboardFrame_tag]
        decide
      rw [List.map_append, List.filter_append, List.map_singleton, List.filter_singleton, spoken, cond_true,
        ← List.cons_append, ← List.append_assoc] at said
      have same := List.append_inj_right' said rfl
      rw [List.singleton_inj] at same
      rw [← same, here] at other
      exact absurd (ClippProof.Clipboard.clipboardFrame_tag p) other

end Dispatching

section Put

variable {m : Mesh κ σ U (InterviewStage PutStage PutOutcome) PutOutcome} {r : Finished PutOutcome}

theorem built_forwarded (made : buildItem C rec = some built) :
    forwarded (promotion stamp built) = some (built.stampOrigin stamp) := by
  obtain ⟨_, _, _, _, flags⟩ := buildItem_offered made
  have bare : (built.stampOrigin stamp).meta_.flags = 0 := flags
  apply forwarded_flagged
  · rw [isRelay, bare]
    decide
  · rw [isReplay, bare]
    decide

theorem record_spoken (e : Served U) (x : Exchanged PutStage) (question : x.question = askRecord name putFound)
    (answered : Answered e x) : e.frame = tagRGET ++ u32Sized (encodeName name) := by
  rw [answered.frame, Exchanged.ask, question]
  rfl

/-- What a put came to is what the gateway had under the name: the item it built of that went out to the mesh, once, or
    there was nothing to build one of, and nothing went out. -/
theorem register_put (ideal : N.kx.Ideal) (verb : Interview.runPut C stamp name = some I)
    (ran : Ran N caller (I.verb cap0ServesRegisters) events m) (fitting : Fitting events) (apart : NoCollision m.world)
    (done : r ∈ m.result) : caller.takes r.peer = true ∧
      ∃ log e rest, GatewayOf caller (I.verb cap0ServesRegisters) m r log ∧
        log.filter (fun e => isQuestion e.frame) = e :: rest ∧
        let found := (e.serving.registers.read e.serving.clock name).result
        let items := (log.map Served.frame).filterMap dispatched
        (r.value = .absent ∧ found = none ∧ items = []) ∨
        (∃ rec, r.value = .malformed ∧ found = some rec ∧ rec.isBinary = true ∧ tryParseBinaryValue rec.value = none ∧
          items = []) ∨
        ∃ rec built, r.value = .promoted ∧ found = some rec ∧ buildItem C rec = some built ∧
          items = [promotion stamp built] ∧ items.filterMap forwarded = [built.stampOrigin stamp] := by
  obtain ⟨valid, -, fetching, fetched, ended⟩ := put_eq verb
  obtain ⟨takes, known, exchanges, next, transcript, -, behind⟩ :=
    verb_answered ideal ran apart done (put_speaking verb)
  have told := put_told verb transcript
  have readOf : ∀ (log : List (Served U)) (e : Served U) (x : Exchanged PutStage),
      GatewayOf caller (I.verb cap0ServesRegisters) m r log → e ∈ log.filter (fun e => isQuestion e.frame) →
      x.question = askRecord name putFound → Answered e x →
      onRecord name x.answer = .answered (e.serving.registers.read e.serving.clock name).result :=
    fun log e x gateway member question answered =>
      asked_record valid (gateway_fit gateway ran fitting (List.mem_of_mem_filter member))
        (record_spoken e x question answered) answered.answer
  have silent : ∀ (x : Exchanged PutStage), x.question = askRecord name putFound →
      ([x].flatMap fun x => x.question.frames).filterMap dispatched = [] := by
    intro x question
    have asks : dispatched (tagRGET ++ u32Sized (encodeName name)) = none :=
      dispatched_other (by rw [tagged_take rfl]; decide)
    rw [List.flatMap_singleton, question, askRecord, List.filterMap_cons, asks]
    rfl
  cases known with
  | fetching => cases fetching.symm.trans next
  | fetched rec =>
    obtain ⟨x, rfl, question, heard⟩ := told
    obtain ⟨malformed, binary, unreadable⟩ := relayRecord_ended ((fetched rec).symm.trans next)
    obtain ⟨log, gateway, said, answers, -⟩ := behind (List.cons_ne_nil _ _)
    obtain ⟨e, rest, answered, others, asked⟩ := List.forall₂_cons_right_iff.mp answers
    have read := readOf log e x gateway (by rw [asked]; exact List.mem_cons_self) question answered
    refine ⟨takes, log, e, rest, gateway, asked, .inr (.inl ⟨rec, malformed, ?_, binary, unreadable, ?_⟩)⟩
    · exact Verdict.answered.inj (read.symm.trans heard)
    · rw [← dispatched_spoken, said]
      exact silent x question
  | ended outcome =>
    obtain rfl := Option.some.inj (Sum.inr.inj ((ended outcome).symm.trans next))
    rcases told with ⟨absent, x, rfl, question, heard⟩ | ⟨promoted, x, y, rec, built, rfl, question, heard, made, asks⟩
    · obtain ⟨log, gateway, said, answers, -⟩ := behind (List.cons_ne_nil _ _)
      obtain ⟨e, rest, answered, others, asked⟩ := List.forall₂_cons_right_iff.mp answers
      have read := readOf log e x gateway (by rw [asked]; exact List.mem_cons_self) question answered
      refine ⟨takes, log, e, rest, gateway, asked, .inl ⟨absent, ?_, ?_⟩⟩
      · exact Verdict.answered.inj (read.symm.trans heard)
      · rw [← dispatched_spoken, said]
        exact silent x question
    · obtain ⟨log, gateway, said, answers, stayed⟩ := behind (List.cons_ne_nil _ _)
      obtain ⟨e, rest, answered, others, asked⟩ := List.forall₂_cons_right_iff.mp answers
      have read := readOf log e x gateway (by rw [asked]; exact List.mem_cons_self) question answered
      have frames : ([x, y].flatMap fun x => x.question.frames) = (tagRGET ++ u32Sized (encodeName name)) ::
          [clipboardFrame (promotion stamp built), tagPING] := by
        rw [List.flatMap_cons, List.flatMap_singleton, question, asks]
        rfl
      rw [frames] at said
      have handed : dispatched (clipboardFrame (promotion stamp built)) = some (promotion stamp built) :=
        dispatched_before [_] [] said (by decide) stayed
      have items : (log.map Served.frame).filterMap dispatched = [promotion stamp built] := by
        have first : dispatched (tagRGET ++ u32Sized (encodeName name)) = none :=
          dispatched_other (by rw [tagged_take rfl]; decide)
        have fence : dispatched tagPING = none := by decide
        rw [← dispatched_spoken, said, List.filterMap_cons, first, List.filterMap_cons, handed, List.filterMap_cons,
          fence, List.filterMap_nil]
      refine ⟨takes, log, e, rest, gateway, asked, .inr (.inr ⟨rec, built, promoted, ?_, made, items, ?_⟩)⟩
      · exact Verdict.answered.inj (read.symm.trans heard)
      · rw [items, List.filterMap_cons, built_forwarded made, List.filterMap_nil]

/-- The answer to the fetch comes first, and the answer to the fence behind the item after it. -/
def putRun (item : ClipboardPayload) : List (MeshEvent UInt32) :=
  meeting ++ [.greet 1 holding false still still] ++ asks (tagRGET ++ u32Sized (encodeName key)) 1 holding ++
    hears (rsynRequest holding).flatten 0 ++ hears (rgetReply holding (encodeName key)) 1 ++
    asks (clipboardFrame item) 2 holding ++ asks tagPING 3 holding ++ hears tagPONG 2 ++ [.proceed still]

theorem putRun_fitting (item : ClipboardPayload) : Fitting (putRun item) :=
  ((((((fitting_meeting holding).append (fitting_asks holding_fit _ _)).append (fitting_hears _ _)).append
    (fitting_hears _ _)).append (fitting_asks holding_fit _ _)).append (fitting_asks holding_fit _ _)).append
    (fitting_hears _ _) |>.append fitting_proceed

def keyItem : ClipboardPayload :=
  promotion BrokenStreamSample.stamp ((buildItem ClippProof.Clipboard.runLength keyRecord).getD copied)

def putDone : SampleRun ((Interview.put ClippProof.Clipboard.runLength BrokenStreamSample.stamp key).verb
    cap0ServesRegisters) id PutOutcome.promoted 0 where
  events := putRun keyItem
  sound := by decide +kernel

theorem put_through_den : ∃ (m : Mesh _ _ UInt32 _ PutOutcome) (log : List (Served UInt32)),
    Ran plainSodium lapCalls ((Interview.put ClippProof.Clipboard.runLength BrokenStreamSample.stamp key).verb
      cap0ServesRegisters) (putRun keyItem) m ∧ m.result.map Finished.value = some .promoted ∧
      ∃ item, ((log.map Served.frame).filterMap dispatched).filterMap forwarded = [item] := by
  obtain ⟨m, r, ran, apart, done, promoted, -⟩ := putDone.ended
  obtain ⟨-, log, e, rest, -, -, came⟩ := register_put (KeyExchange.named_ideal padded) (if_neg (by decide)) ran
    (putRun_fitting keyItem) apart done
  rcases came with ⟨absent, -⟩ | ⟨_, malformed, -⟩ | ⟨rec, built, -, -, -, -, forwarded⟩
  · cases promoted.symm.trans absent
  · cases promoted.symm.trans malformed
  · exact ⟨_, log, ran, Option.map_eq_some_iff.mpr ⟨r, done, promoted⟩, _, forwarded⟩

end Put

end ClippProof.Cli
