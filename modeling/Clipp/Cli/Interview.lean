import Clipp.Peers.OneShotDialogue

open Foundation

namespace ClippModel.Cli

open ClippModel.Peers ClippModel.Peers.OneShot

/-- What a frame means to whoever waits for an answer. -/
inductive Verdict (μ : Type) where
  | ignored
  | givenUp
  | answered (next : μ)

/-- Frames to send, and what to make of what comes back. A gateway that asks for the history of the caller is told
    that there is none; whether the sending of that is checked, differs. -/
structure Question (μ : Type) where
  frames : List Bytes
  verdict : Bytes → Verdict μ
  endsChecked : Bool

/-- A verb that asks one question after the other: the next, or the result, from what is known. Without a result the
    next gateway is tried, but what has been counted stays counted. -/
structure Interview (μ ρ : Type) where
  start : μ
  next : μ → Question μ ⊕ Option ρ
  counts : μ → Nat := fun _ => 0

inductive InterviewStage (μ ρ : Type) where
  | sending (known : μ) (rest : List Bytes)
  | ending (known : μ)
  | left (known : μ) (result : Option ρ)

def InterviewStage.known {μ ρ : Type} : InterviewStage μ ρ → μ
  | .sending known _ | .ending known | .left known _ => known

namespace Interview

variable {μ ρ : Type}

def begin (I : Interview μ ρ) (known : μ) : InterviewStage μ ρ :=
  match I.next known with
  | .inl question => .sending known question.frames
  | .inr result => .left known result

def hear (I : Interview μ ρ) (known : μ) (question : Question μ) : Option Bytes → InterviewStage μ ρ
  | none => .left known none
  | some frame =>
    if frame.length < 4 then .left known none
    else
      match question.verdict frame with
      | .answered next => I.begin next
      | .givenUp => .left known none
      | .ignored => if frame.take 4 = tagSYNC then .ending known else .sending known []

def act (I : Interview μ ρ) : InterviewStage μ ρ → Act Bytes (InterviewStage μ ρ) (Option ρ)
  | .sending known (frame :: rest) => .send frame fun sent => if sent then .sending known rest else .left known none
  | .sending known [] =>
    match I.next known with
    | .inl question => .receive (I.hear known question)
    | .inr result => .leave result
  | .ending known =>
    match I.next known with
    | .inl question =>
      .send tagEOSY fun sent => if sent || !question.endsChecked then .sending known [] else .left known none
    | .inr result => .leave result
  | .left _ result => .leave result

def verb (I : Interview μ ρ) (needs : UInt8) : Verb (InterviewStage μ ρ) ρ where
  exchange := { start := I.begin I.start, act := I.act }
  needs := needs
  counts stage := I.counts stage.known

end Interview

end ClippModel.Cli

namespace ClippProof.Cli

open ClippModel ClippModel.Cli ClippModel.Clipboard ClippModel.Keys ClippModel.Peers ClippModel.Peers.OneShot
  ClippModel.Wire.Handshake ClippModel.Wire.Peer ClippProof.Peers.OneShot ClippProof.Wire.Handshake

variable {κ σ U μ ρ : Type} {N : Sodium κ σ} {I : Interview μ ρ} {known : μ} {asks answers : Bytes → Bool}
  {pushed got : List Bytes}

/-- A frame of a question, and not the word that ends a history. -/
def isSpoken (frame : Bytes) : Bool := frame.take 4 ≠ tagEOSY

structure Exchanged (μ : Type) where
  question : Question μ
  answer : Bytes

/-- The questions and answers that lead from the start to what is known. -/
inductive Transcript (I : Interview μ ρ) : List (Exchanged μ) → μ → Prop where
  | start : Transcript I [] I.start
  | answered {exchanges : List (Exchanged μ)} {known next : μ} {question : Question μ} {answer : Bytes} :
      Transcript I exchanges known → I.next known = .inl question → question.verdict answer = .answered next →
      Transcript I (exchanges ++ [{ question := question, answer := answer }]) next

/-- Each question ends with the frame that asks, and only an answer is heeded. -/
structure Plain (I : Interview μ ρ) (asks answers : Bytes → Bool) : Prop where
  asking : ∀ known question, I.next known = .inl question → ∃ before last, question.frames = before ++ [last] ∧
    asks last = true ∧ ∀ frame ∈ before, asks frame = false
  spoken : ∀ known question, I.next known = .inl question → ∀ frame ∈ question.frames, isSpoken frame = true
  unasked : ∀ frame, isSpoken frame = false → asks frame = false
  heeded : ∀ known question frame, I.next known = .inl question → question.verdict frame ≠ .ignored →
    answers frame = true

/-- The interview is at these questions, with a part of the last one out. -/
structure Asked (I : Interview μ ρ) (answers : Bytes → Bool) (pushed got : List Bytes) (known : μ)
    (question : Question μ) (out : List Bytes) : Prop where
  next : I.next known = .inl question
  exchanged : ∃ exchanges, Transcript I exchanges known ∧
    pushed.filter isSpoken = exchanges.flatMap (fun x => x.question.frames) ++ out ∧
    (exchanges.map Exchanged.answer).Sublist (got.filter answers)

/-- The interview broke off, with a part of a further question out. -/
def BrokenOff (I : Interview μ ρ) (answers : Bytes → Bool) (pushed got : List Bytes) (known : μ) : Prop :=
  ∃ exchanges out, Transcript I exchanges known ∧
    pushed.filter isSpoken = exchanges.flatMap (fun x => x.question.frames) ++ out ∧
    (∀ frame ∈ out, ∃ question, I.next known = .inl question ∧ frame ∈ question.frames) ∧
    (exchanges.map Exchanged.answer).Sublist (got.filter answers)

def InterviewTold (I : Interview μ ρ) (answers : Bytes → Bool) (pushed got : List Bytes) : InterviewStage μ ρ → Prop
  | .sending known rest => ∃ question out, Asked I answers pushed got known question out ∧ question.frames = out ++ rest
  | .ending known => ∃ question, Asked I answers pushed got known question question.frames
  | .left known none => BrokenOff I answers pushed got known
  | .left known (some result) => ∃ exchanges, I.next known = .inr (some result) ∧ Transcript I exchanges known ∧
      pushed.filter isSpoken = exchanges.flatMap (fun x => x.question.frames) ∧
      (exchanges.map Exchanged.answer).Sublist (got.filter answers)

section Interviews

theorem interview_begins {exchanges : List (Exchanged μ)} (transcript : Transcript I exchanges known)
    (said : pushed.filter isSpoken = exchanges.flatMap fun x => x.question.frames)
    (listened : (exchanges.map Exchanged.answer).Sublist (got.filter answers)) :
    InterviewTold I answers pushed got (I.begin known) := by
  rw [Interview.begin]
  cases next : I.next known with
  | inl question =>
    exact ⟨question, [], ⟨next, exchanges, transcript, by rw [said, List.append_nil], listened⟩, rfl⟩
  | inr result =>
    cases result with
    | none =>
      exact ⟨exchanges, [], transcript, by rw [said, List.append_nil], fun _ none => absurd none List.not_mem_nil,
        listened⟩
    | some value => exact ⟨exchanges, next, transcript, said, listened⟩

theorem Asked.more {question : Question μ} {out : List Bytes} (asked : Asked I answers pushed got known question out)
    (frame : Option Bytes) : Asked I answers pushed (got ++ frame.toList) known question out := by
  obtain ⟨next, exchanges, transcript, said, listened⟩ := asked
  refine ⟨next, exchanges, transcript, said, listened.trans ?_⟩
  rw [List.filter_append]
  exact List.sublist_append_left _ _

theorem Asked.breaks {question : Question μ} {out : List Bytes} (asked : Asked I answers pushed got known question out)
    (inside : ∀ frame ∈ out, frame ∈ question.frames) : BrokenOff I answers pushed got known := by
  obtain ⟨next, exchanges, transcript, said, listened⟩ := asked
  exact ⟨exchanges, out, transcript, said, fun frame member => ⟨question, next, inside frame member⟩, listened⟩

theorem interview_send (plain : Plain I asks answers) {stage : InterviewStage μ ρ} {message : Bytes}
    {next : Bool → InterviewStage μ ρ} {out : List Bytes} {sent : Bool}
    (told : InterviewTold I answers pushed got stage) (act : I.act stage = .send message next)
    (whole : sent = true → out = [message]) (part : out = [] ∨ out = [message]) :
    InterviewTold I answers (pushed ++ out) got (next sent) := by
  cases stage with
  | sending known rest =>
    obtain ⟨question, before, asked, frames⟩ := told
    cases rest with
    | nil => simp [Interview.act, asked.next] at act
    | cons frame rest =>
      simp only [Interview.act, Act.send.injEq] at act
      obtain ⟨rfl, rfl⟩ := act
      cases sent with
      | false =>
        obtain ⟨next, exchanges, transcript, said, listened⟩ := asked
        have asked' : Asked I answers (pushed ++ out) got known question (before ++ out.filter isSpoken) := by
          refine ⟨next, exchanges, transcript, ?_, listened⟩
          rw [List.filter_append, said, List.append_assoc]
        apply asked'.breaks
        intro f member
        rw [frames]
        rcases List.mem_append.mp member with earlier | last
        · exact List.mem_append_left _ earlier
        · have there := List.mem_of_mem_filter last
          rcases part with rfl | rfl
          · exact absurd there List.not_mem_nil
          · rw [List.mem_singleton.mp there]
            exact List.mem_append_right _ List.mem_cons_self
      | true =>
        rw [whole rfl]
        obtain ⟨next, exchanges, transcript, said, listened⟩ := asked
        have spoken := plain.spoken known question next frame (by rw [frames]; simp)
        refine ⟨question, before ++ [frame], ⟨next, exchanges, transcript, ?_, listened⟩, ?_⟩
        · rw [List.filter_append, said, List.filter_singleton, spoken, List.append_assoc]
          rfl
        · rw [frames, List.append_assoc]
          rfl
  | ending known =>
    obtain ⟨question, asked⟩ := told
    simp only [Interview.act, asked.next, Act.send.injEq] at act
    obtain ⟨rfl, rfl⟩ := act
    have still : Asked I answers (pushed ++ out) got known question question.frames := by
      obtain ⟨next, exchanges, transcript, said, listened⟩ := asked
      have unheard : out.filter isSpoken = [] := by
        rcases part with rfl | rfl <;> decide
      refine ⟨next, exchanges, transcript, ?_, listened⟩
      rw [List.filter_append, said, unheard, List.append_nil]
    beta_reduce
    split_ifs with goes
    · exact ⟨question, question.frames, still, (List.append_nil _).symm⟩
    · exact still.breaks fun _ member => member
  | left known result => simp [Interview.act] at act

theorem interview_receive (plain : Plain I asks answers) {stage : InterviewStage μ ρ}
    {next : Option Bytes → InterviewStage μ ρ} {frame : Option Bytes}
    (told : InterviewTold I answers pushed got stage) (act : I.act stage = .receive next) :
    InterviewTold I answers pushed (got ++ frame.toList) (next frame) := by
  cases stage with
  | sending known rest =>
    obtain ⟨question, before, asked, frames⟩ := told
    cases rest with
    | cons frame rest => simp [Interview.act] at act
    | nil =>
      rw [List.append_nil] at frames
      subst frames
      simp only [Interview.act, asked.next, Act.receive.injEq] at act
      subst act
      cases frame with
      | none => exact (asked.more none).breaks fun _ member => member
      | some frame =>
        have later := asked.more (some frame)
        by_cases short : frame.length < 4
        · simp only [Interview.hear, if_pos short]
          exact later.breaks fun _ member => member
        cases verdict : question.verdict frame with
        | givenUp =>
          simp only [Interview.hear, if_neg short, verdict]
          exact later.breaks fun _ member => member
        | ignored =>
          simp only [Interview.hear, if_neg short, verdict]
          split_ifs
          · exact ⟨question, later⟩
          · exact ⟨question, question.frames, later, (List.append_nil _).symm⟩
        | answered further =>
          simp only [Interview.hear, if_neg short, verdict]
          obtain ⟨next, exchanges, transcript, said, listened⟩ := asked
          have heeded := plain.heeded known question frame next (by simp [verdict])
          apply interview_begins (transcript.answered next verdict)
          · rw [List.flatMap_append, said]
            simp
          · rw [List.map_append, Option.toList_some, List.filter_append, List.filter_singleton, heeded]
            exact listened.append (.refl _)
  | ending known =>
    obtain ⟨question, asked⟩ := told
    simp [Interview.act, asked.next] at act
  | left known result => simp [Interview.act] at act

theorem interview_told (plain : Plain I asks answers) {needs : UInt8} {stage : InterviewStage μ ρ}
    (talk : (I.verb needs).exchange.Talk Fits pushed got stage) : InterviewTold I answers pushed got stage := by
  induction talk with
  | start => exact interview_begins .start rfl (List.nil_sublist _)
  | send sent out _ act whole part ih => exact interview_send plain ih act whole (part.imp_right And.left)
  | receive frame _ act ih => exact interview_receive plain ih act

theorem spoken_asks (plain : Plain I asks answers) (frames : List Bytes) :
    (frames.filter isSpoken).filter asks = frames.filter asks := by
  rw [List.filter_filter]
  apply List.filter_congr
  intro frame _
  cases spoken : isSpoken frame with
  | true => rw [Bool.and_true]
  | false => rw [plain.unasked frame spoken, Bool.false_and]

def Exchanged.ask (x : Exchanged μ) : Bytes := x.question.frames.getLastD []

theorem Plain.ask (plain : Plain I asks answers) {question : Question μ} (next : I.next known = .inl question) :
    question.frames.filter asks = [question.frames.getLastD []] ∧
      ∃ before last, question.frames = before ++ [last] ∧ asks last = true := by
  obtain ⟨before, last, frames, asked, clear⟩ := plain.asking known question next
  have silent : before.filter asks = [] :=
    List.filter_eq_nil_iff.mpr fun frame member => by simp [clear frame member]
  refine ⟨?_, before, last, frames, asked⟩
  rw [frames, List.filter_append, silent, List.filter_singleton, asked, List.getLastD_concat]
  rfl

theorem transcript_asks (plain : Plain I asks answers) {exchanges : List (Exchanged μ)}
    (transcript : Transcript I exchanges known) :
    (exchanges.flatMap fun x => x.question.frames).filter asks = exchanges.map Exchanged.ask := by
  induction transcript with
  | start => rfl
  | answered _ next _ ih =>
    rw [List.flatMap_append, List.filter_append, ih, List.map_append, List.flatMap_singleton, (plain.ask next).1]
    rfl

theorem transcript_ends (plain : Plain I asks answers) {exchanges : List (Exchanged μ)}
    (transcript : Transcript I exchanges known) (some : exchanges ≠ []) : ∃ front last,
      (exchanges.flatMap fun x => x.question.frames) = front ++ [last] ∧ asks last = true := by
  cases transcript with
  | start => exact absurd rfl some
  | @answered exchanges _ _ question _ _ next _ =>
    obtain ⟨-, before, last, frames, asked⟩ := plain.ask next
    refine ⟨(exchanges.flatMap fun x => x.question.frames) ++ before, last, ?_, asked⟩
    rw [List.flatMap_append, List.flatMap_singleton, frames, List.append_assoc]

end Interviews

section Gateways

variable {caller : Caller} {needs : UInt8} {events : List (MeshEvent U)} {m : Mesh κ σ U (InterviewStage μ ρ) ρ}
  {r : Finished ρ} {log : List (Served U)} {e : Served U}

theorem replies_ending (ending : isSpoken e.frame = false) : e.replies = [] := by
  have tag : e.frame.take 4 = tagEOSY := by simpa [isSpoken] using ending
  have long : ¬ e.frame.length < 4 := by
    have size := congrArg List.length tag
    have four : tagEOSY.length = 4 := by decide
    rw [List.length_take] at size
    omega
  rw [Served.replies, Served.handling, handleIncoming, if_neg long, tag]
  rfl

/-- A gateway answers each frame that asks once at most, and no other frame of the interview. -/
def Replying (U : Type) (I : Interview μ ρ) (asks answers : Bytes → Bool) : Prop :=
  ∀ (e : Served U) known question, I.next known = .inl question → e.frame ∈ question.frames →
    (e.replies.filter answers).length ≤ 1 ∧ (asks e.frame = false → e.replies.filter answers = [])

/-- What the gateway did, question by question: it took the frame that asks, and answered with the frame that was
    heeded. -/
structure Answers (answers : Bytes → Bool) (e : Served U) (x : Exchanged μ) : Prop where
  frame : e.frame = x.ask
  answer : e.replies.filter answers = [x.answer]

theorem transcript_question {exchanges : List (Exchanged μ)} (transcript : Transcript I exchanges known) :
    ∀ x ∈ exchanges, ∃ known, I.next known = .inl x.question := by
  induction transcript with
  | start => exact fun _ member => absurd member List.not_mem_nil
  | answered _ next _ ih =>
    intro x member
    rcases List.mem_append.mp member with earlier | last
    · exact ih x earlier
    · obtain rfl := List.mem_singleton.mp last
      exact ⟨_, next⟩

theorem BrokenOff.question (broken : BrokenOff I answers pushed got known) :
    ∀ frame ∈ pushed.filter isSpoken, ∃ known question, I.next known = .inl question ∧ frame ∈ question.frames := by
  obtain ⟨exchanges, out, transcript, said, further, -⟩ := broken
  intro frame member
  rw [said] at member
  rcases List.mem_append.mp member with earlier | last
  · obtain ⟨x, listed, asked⟩ := List.mem_flatMap.mp earlier
    obtain ⟨known, next⟩ := transcript_question transcript x listed
    exact ⟨known, x.question, next, asked⟩
  · exact ⟨known, further frame last⟩

theorem InterviewTold.breaks {stage : InterviewStage μ ρ} (told : InterviewTold I answers pushed got stage) :
    BrokenOff I answers pushed got stage.known := by
  cases stage with
  | sending known rest =>
    obtain ⟨question, out, asked, frames⟩ := told
    exact asked.breaks fun frame member => frames ▸ List.mem_append_left rest member
  | ending known =>
    obtain ⟨question, asked⟩ := told
    exact asked.breaks fun _ member => member
  | left known result =>
    cases result with
    | none => exact told
    | some value =>
      obtain ⟨exchanges, next, transcript, said, listened⟩ := told
      exact ⟨exchanges, [], transcript, by rw [said, List.append_nil], fun _ none => absurd none List.not_mem_nil,
        listened⟩

theorem interview_answering (replying : Replying U I asks answers)
    (greeting : ∀ frame, Greets frame → answers frame = false) (broken : BrokenOff I answers pushed got known)
    (read : ∀ e ∈ log, e.frame ∈ pushed) : Answering Greets Served.replies Served.frame asks answers log := by
  have each : ∀ e ∈ log, isSpoken e.frame = true → ∃ known question, I.next known = .inl question ∧
      e.frame ∈ question.frames :=
    fun e member spoken => broken.question e.frame (List.mem_filter.mpr ⟨read e member, spoken⟩)
  refine ⟨greeting, fun e member => ?_, fun e member unasked => ?_⟩
  · cases spoken : isSpoken e.frame with
    | false => simp [replies_ending spoken]
    | true =>
      obtain ⟨known, question, next, inside⟩ := each e member spoken
      exact (replying e known question next inside).1
  · cases spoken : isSpoken e.frame with
    | false => simp [replies_ending spoken]
    | true =>
      obtain ⟨known, question, next, inside⟩ := each e member spoken
      exact (replying e known question next inside).2 unasked

/-- What has been counted: what the exchanges before counted, and what this one did. -/
def Counts (caller : Caller) (I : Interview μ ρ) (needs : UInt8) (m : Mesh κ σ U (InterviewStage μ ρ) ρ) (known : μ) :
    Prop :=
  ∃ visits : List (Visit (InterviewStage μ ρ)), (∀ v ∈ visits, Ended caller (I.verb needs) m.world v) ∧
    m.counted = (visits.map fun v => I.counts v.state.known).sum + I.counts known

/-- The result of an interview comes of a transcript, and the gateway has taken every frame of it and answered every
    question in it, in order. -/
theorem interview_answered (ideal : N.kx.Ideal) (ran : Ran N caller (I.verb needs) events m)
    (apart : NoCollision m.world) (done : r ∈ m.result) (plain : Plain I asks answers)
    (replying : Replying U I asks answers) (greeting : ∀ frame, Greets frame → answers frame = false) :
    caller.takes r.peer = true ∧ ∃ known exchanges, I.next known = .inr (some r.value) ∧
      Transcript I exchanges known ∧ Counts caller I needs m known ∧
      (exchanges ≠ [] → ∃ log, GatewayOf caller (I.verb needs) m r log ∧
        (log.map Served.frame).filter isSpoken = exchanges.flatMap (fun x => x.question.frames) ∧
        List.Forall₂ (Answers answers) (log.filter fun e => asks e.frame) exchanges ∧
        ∀ e ∈ log.dropLast, e.handling ≠ .leave) := by
  obtain ⟨takes, visits, pushed, got, stage, tally, talk, leaves, answered⟩ := ran.behind ideal apart done
  have told := interview_told plain talk
  obtain ⟨known, rfl⟩ : ∃ known, stage = .left known (some r.value) := by
    cases stage with
    | sending known rest =>
      obtain ⟨question, before, asked, frames⟩ := told
      cases rest <;> simp [Interview.verb, Interview.act, asked.next] at leaves
    | ending known =>
      obtain ⟨question, asked⟩ := told
      simp [Interview.verb, Interview.act, asked.next] at leaves
    | left known result =>
      obtain rfl : result = some r.value := by simpa [Interview.verb, Interview.act] using leaves
      exact ⟨known, rfl⟩
  obtain ⟨exchanges, next, transcript, said, listened⟩ := id told
  have counts : Counts caller I needs m known := by
    refine ⟨visits, fun v member => tally.each v (List.mem_append_left _ member), ?_⟩
    rw [tally.counted, List.map_append, List.sum_append, List.map_singleton, List.sum_singleton]
    rfl
  refine ⟨takes, known, exchanges, next, transcript, counts, fun some => ?_⟩
  have heardSome : got ≠ [] := by
    rintro rfl
    exact some (List.map_eq_nil_iff.mp (List.sublist_nil.mp listened))
  obtain ⟨log, behind⟩ := answered heardSome
  obtain ⟨sent, came, responded⟩ := behind.answered
  have answering := interview_answering replying greeting told.breaks
    fun e member => behind.read.subset (List.mem_map_of_mem member)
  -- Only what is spoken asks, so the questions of the transcript are all there are.
  have asked : pushed.filter asks = exchanges.map Exchanged.ask := by
    rw [← transcript_asks plain transcript, ← said, spoken_asks plain]
  have heeded := listened.length_le
  have enough : (pushed.filter asks).length ≤ (got.filter answers).length := by
    rw [asked, List.length_map]
    rwa [List.length_map] at heeded
  obtain ⟨taken, replies⟩ := settled answering responded behind.read came enough
  have pairs := paired answering (by rw [taken, ← replies]; exact enough)
  have most := answers_length answering
  rw [replies] at listened
  have answersAll : exchanges.map Exchanged.answer = (log.flatMap Served.replies).filter answers := by
    apply listened.eq_of_length_le
    rw [taken, asked, List.length_map] at most
    rwa [List.length_map]
  rw [← answersAll, List.forall₂_map_right_iff] at pairs
  have frames : List.Forall₂ (fun e x => Served.frame e = Exchanged.ask x) (log.filter fun e => asks e.frame)
      exchanges := by
    rw [← List.forall₂_map_right_iff, ← List.forall₂_map_left_iff, List.forall₂_eq_eq_eq, ← asked, ← taken,
      List.filter_map]
    rfl
  have both : List.Forall₂ (Answers answers) (log.filter fun e => asks e.frame) exchanges :=
    List.forall₂_iff_zip.mpr ⟨frames.length_eq, fun member =>
      ⟨List.forall₂_zip frames member, List.forall₂_zip pairs member⟩⟩
  obtain ⟨front, last, ends, asking⟩ := transcript_ends plain transcript some
  have spoken := behind.read.filter isSpoken
  rw [said, ends] at spoken
  have whole : (log.map Served.frame).filter isSpoken = front ++ [last] := by
    apply prefix_eq_of_asks spoken asking
    rw [← ends, ← said, spoken_asks plain, spoken_asks plain, taken]
  rw [← ends] at whole
  exact ⟨log, behind.gateway, whole, both, behind.stayed⟩

end Gateways

section Speaking

variable {caller : Caller} {needs : UInt8} {events : List (MeshEvent U)} {m : Mesh κ σ U (InterviewStage μ ρ) ρ}
  {r : Finished ρ} {e : Served U}

def isQuestion (frame : Bytes) : Bool :=
  [tagPING, tagRCNT, tagREGW, tagRGET, tagRLST].any fun tag => frame.take 4 = tag

/-- A frame that is not one of those a gateway sends before anything is asked. -/
def isAnswer (frame : Bytes) : Bool := frame.take 4 ≠ tagSYNC ∧ frame.take 4 ≠ tagRSYN

def Heeds (verdict : Bytes → Verdict μ) : Prop := ∀ frame, verdict frame ≠ .ignored → isAnswer frame = true

/-- A question is a word that asks, behind clipboard items. -/
structure WellAsked (question : Question μ) : Prop where
  asking : ∃ before last, question.frames = before ++ [last] ∧ isQuestion last = true ∧
    ∀ frame ∈ before, frame.take 4 = tagCLIP
  heeded : Heeds question.verdict

def Speaking (I : Interview μ ρ) : Prop := ∀ known question, I.next known = .inl question → WellAsked question

theorem isQuestion_of_tag {frame tag : Bytes} (tagged : frame.take 4 = tag)
    (listed : tag ∈ [tagPING, tagRCNT, tagREGW, tagRGET, tagRLST]) : isQuestion frame = true :=
  List.any_eq_true.mpr ⟨tag, listed, decide_eq_true tagged⟩

theorem tag_of_isQuestion {frame : Bytes} (asked : isQuestion frame = true) :
    frame.take 4 ∈ [tagPING, tagRCNT, tagREGW, tagRGET, tagRLST] := by
  obtain ⟨tag, listed, same⟩ := List.any_eq_true.mp asked
  rw [of_decide_eq_true same]
  exact listed

theorem clip_silent {frame : Bytes} (clip : frame.take 4 = tagCLIP) : isQuestion frame = false := by
  rw [isQuestion, clip]
  decide

theorem replies_le_one (other : e.frame.take 4 ≠ tagRSYN) : e.replies.length ≤ 1 := by
  rw [Served.replies, Served.handling, handleIncoming]
  split_ifs
  · exact Nat.zero_le 1
  · exact le_rfl
  · cases ClipboardWire.tryDecodeClipboardFrame e.frame <;> exact Nat.zero_le 1
  · exact Nat.zero_le 1
  · exact Nat.zero_le 1
  · exact le_rfl
  · exact le_rfl
  · rw [registerReply, handleRegisterFrame]
    split_ifs
    · exact Nat.zero_le 1
    · cases (Gateway.handleRegw e.serving.registers e.serving.clock e.serving.rebroadcast (e.frame.drop 4)).reply with
      | none => exact Nat.zero_le 1
      | some reply => exact le_rfl
    · exact Nat.zero_le 1
    · exact le_rfl
    · exact le_rfl
    · exact le_rfl
    · exact Nat.zero_le 1

theorem replies_to_clip (clip : e.frame.take 4 = tagCLIP) : e.replies = [] := by
  have long : ¬ e.frame.length < 4 := by
    have size := congrArg List.length clip
    have four : tagCLIP.length = 4 := rfl
    rw [List.length_take] at size
    omega
  rw [Served.replies, Served.handling, handleIncoming, if_neg long, clip, if_neg (by decide), if_pos rfl]
  cases ClipboardWire.tryDecodeClipboardFrame e.frame <;> rfl

theorem Speaking.plain (speaking : Speaking I) : Plain I isQuestion isAnswer where
  asking known question next := by
    obtain ⟨before, last, frames, asked, clips⟩ := (speaking known question next).asking
    exact ⟨before, last, frames, asked, fun frame member => clip_silent (clips frame member)⟩
  spoken known question next frame member := by
    obtain ⟨before, last, frames, asked, clips⟩ := (speaking known question next).asking
    rw [frames] at member
    rw [isSpoken, decide_eq_true_eq]
    intro ending
    rcases List.mem_append.mp member with clip | end_
    · exact absurd ((clips frame clip).symm.trans ending) (by decide)
    · obtain rfl := List.mem_singleton.mp end_
      have listed := tag_of_isQuestion asked
      rw [ending] at listed
      exact absurd listed (by decide)
  unasked frame ending := by
    have tag : frame.take 4 = tagEOSY := by simpa [isSpoken] using ending
    rw [isQuestion, tag]
    decide
  heeded known question frame next := (speaking known question next).heeded frame

theorem Speaking.replying (speaking : Speaking I) : Replying U I isQuestion isAnswer := by
  intro e known question next member
  obtain ⟨before, last, frames, asked, clips⟩ := (speaking known question next).asking
  rw [frames] at member
  rcases List.mem_append.mp member with clip | end_
  · simp [replies_to_clip (clips _ clip)]
  · have same := List.mem_singleton.mp end_
    rw [same]
    have other : e.frame.take 4 ≠ tagRSYN := by
      intro digest
      have listed := tag_of_isQuestion (same ▸ asked)
      rw [digest] at listed
      exact absurd listed (by decide)
    exact ⟨(List.length_filter_le _ _).trans (replies_le_one other),
      fun unasked => absurd asked (by simp [unasked])⟩

theorem greeting_unheeded (frame : Bytes) (greets : Greets frame) : isAnswer frame = false := by
  rcases greets with sync | rsyn
  · rw [isAnswer, sync]
    decide
  · rw [isAnswer, rsyn]
    decide

/-- An answered question: the gateway took the frame that asks, and its one answer is what the caller took. -/
abbrev Answered (e : Served U) (x : Exchanged μ) : Prop := Answers isAnswer e x

theorem verb_answered (ideal : N.kx.Ideal) (ran : Ran N caller (I.verb needs) events m)
    (apart : NoCollision m.world) (done : r ∈ m.result) (speaking : Speaking I) :
    caller.takes r.peer = true ∧ ∃ known exchanges, I.next known = .inr (some r.value) ∧
      Transcript I exchanges known ∧ Counts caller I needs m known ∧
      (exchanges ≠ [] → ∃ log, GatewayOf caller (I.verb needs) m r log ∧
        (log.map Served.frame).filter isSpoken = exchanges.flatMap (fun x => x.question.frames) ∧
        List.Forall₂ Answered (log.filter fun e => isQuestion e.frame) exchanges ∧
        ∀ e ∈ log.dropLast, e.handling ≠ .leave) :=
  interview_answered ideal ran apart done speaking.plain speaking.replying greeting_unheeded

end Speaking

end ClippProof.Cli
