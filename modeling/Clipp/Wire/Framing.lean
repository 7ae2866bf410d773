import Clipp.Foundation.SecretStream
import Clipp.Wire.Frame

open Foundation

namespace ClippModel.Wire.Framing

open CryptoChannel (kMaxCiphertextMessageBytes secretstreamABytes kMaxPlaintext)

variable {σ : Type}

/-- After how many bytes a write stops short, given the bytes already out. -/
abbrev Link := Bytes → Bytes → Option Nat

def sendAll (link : Link) (written buffer : Bytes) : Bool × Bytes :=
  match link written buffer with
  | some total => if total < buffer.length then (false, written ++ buffer.take total) else (true, written ++ buffer)
  | none => (true, written ++ buffer)

/-- `recv`, call by call. An empty chunk is a wakeup or an interrupted call, the end of the list a
    socket that brings nothing more. -/
def recvAll : List Bytes → Nat → Option (Bytes × List Bytes)
  | chunks, 0 => some ([], chunks)
  | [], _ + 1 => none
  | chunk :: chunks, length + 1 =>
    if chunk.length ≤ length + 1 then
      (recvAll chunks (length + 1 - chunk.length)).map fun (buffer, rest) => (chunk ++ buffer, rest)
    else some (chunk.take (length + 1), chunk.drop (length + 1) :: chunks)

structure Sender (σ : Type) where
  txState : σ
  written : Bytes

def sendFrame (S : SecretStream σ) (link : Link) (s : Sender σ) (tag4 bodyA bodyB : Bytes) : Bool × Sender σ :=
  if 4 + bodyA.length + bodyB.length > kMaxPlaintext then (false, s)
  else
    match S.push s.txState (tag4 ++ bodyA ++ bodyB) with
    | none => (false, s)
    | some (ciphertext, txState) =>
      if ciphertext.length > kMaxCiphertextMessageBytes then (false, { s with txState })
      else
        match sendAll link s.written (bigEndian 4 ciphertext.length) with
        | (false, written) => (false, ⟨txState, written⟩)
        | (true, written) =>
          let (sent, written) := sendAll link written ciphertext
          (sent, ⟨txState, written⟩)

def isCiphertextMessageSizeValid (ciphertextSize : Nat) : Bool :=
  ciphertextSize > secretstreamABytes && ciphertextSize ≤ kMaxCiphertextMessageBytes

def recvFrame (S : SecretStream σ) (rxState : σ) (chunks : List Bytes) : Option (Bytes × σ × List Bytes) := do
  let (networkSize, chunks) ← recvAll chunks 4
  let ciphertextSize := number networkSize
  guard (isCiphertextMessageSizeValid ciphertextSize)
  let (ciphertext, chunks) ← recvAll chunks ciphertextSize
  let (outPlaintext, rxState) ← S.pull rxState ciphertext
  pure (outPlaintext, rxState, chunks)

structure Frame where
  tag4 : Bytes
  bodyA : Bytes
  bodyB : Bytes
  tagged : tag4.length = 4

def Frame.message (f : Frame) : Bytes := f.tag4 ++ f.bodyA ++ f.bodyB

def sendFrames (S : SecretStream σ) (link : Link) : Sender σ → List Frame → List (Frame × Bool) × Sender σ
  | s, [] => ([], s)
  | s, f :: frames =>
    let (sent, s) := sendFrame S link s f.tag4 f.bodyA f.bodyB
    let (results, s) := sendFrames S link s frames
    ((f, sent) :: results, s)

def delivered (results : List (Frame × Bool)) : List Bytes :=
  (results.filter Prod.snd).map fun result => result.1.message

/-- Up to `calls` calls of `RecvFrame`; its callers drop the connection at the first that fails. -/
def recvFrames (S : SecretStream σ) : Nat → σ → List Bytes → List Bytes
  | 0, _, _ => []
  | calls + 1, rxState, chunks =>
    match recvFrame S rxState chunks with
    | none => []
    | some (message, rxState, chunks) => message :: recvFrames S calls rxState chunks

def framed (ciphertext : Bytes) : Bytes := bigEndian 4 ciphertext.length ++ ciphertext

end ClippModel.Wire.Framing

namespace ClippProof.Wire

open ClippModel.Wire ClippModel.Wire.Framing
open CryptoChannel (kMaxCiphertextMessageBytes secretstreamABytes kMaxPlaintext)

variable {σ : Type} {S : SecretStream σ} {inStep : σ → σ → Prop} {link : Link}

theorem recvAll_enough (chunks : List Bytes) (length : Nat) (enough : length ≤ chunks.flatten.length) :
    ∃ rest, recvAll chunks length = some (chunks.flatten.take length, rest) ∧
      rest.flatten = chunks.flatten.drop length := by
  induction chunks generalizing length with
  | nil =>
    obtain rfl : length = 0 := by simpa using enough
    exact ⟨[], rfl, rfl⟩
  | cons chunk chunks ih =>
    cases length with
    | zero => exact ⟨chunk :: chunks, rfl, rfl⟩
    | succ length =>
      rw [List.flatten_cons, List.length_append] at enough
      rw [List.flatten_cons, List.take_append, List.drop_append]
      by_cases inside : chunk.length ≤ length + 1
      · obtain ⟨rest, taken, left⟩ := ih (length + 1 - chunk.length) (by omega)
        refine ⟨rest, ?_, ?_⟩
        · rw [recvAll, if_pos inside, taken, List.take_of_length_le inside]
          rfl
        · rw [left, List.drop_of_length_le inside, List.nil_append]
      · have past : length + 1 - chunk.length = 0 := by omega
        refine ⟨chunk.drop (length + 1) :: chunks, ?_, ?_⟩
        · rw [recvAll, if_neg inside, past, List.take_zero, List.append_nil]
        · rw [past, List.drop_zero, List.flatten_cons]

theorem recvAll_short (chunks : List Bytes) (length : Nat) (short : chunks.flatten.length < length) :
    recvAll chunks length = none := by
  induction chunks generalizing length with
  | nil =>
    cases length with
    | zero => exact absurd short (Nat.not_lt_zero _)
    | succ length => rfl
  | cons chunk chunks ih =>
    rw [List.flatten_cons, List.length_append] at short
    cases length with
    | zero => exact absurd short (Nat.not_lt_zero _)
    | succ length =>
      have inside : chunk.length ≤ length + 1 := by omega
      rw [recvAll, if_pos inside, ih _ (by omega)]
      rfl

theorem recvAll_front {chunks : List Bytes} {front back : Bytes} (incoming : chunks.flatten = front ++ back) :
    ∃ rest, recvAll chunks front.length = some (front, rest) ∧ rest.flatten = back := by
  obtain ⟨rest, taken, left⟩ := recvAll_enough chunks front.length (by simp [incoming])
  rw [incoming, List.take_left] at taken
  rw [incoming, List.drop_left] at left
  exact ⟨rest, taken, left⟩

theorem isCiphertextMessageSizeValid_iff (size : Nat) : isCiphertextMessageSizeValid size = true ↔
    secretstreamABytes < size ∧ size ≤ kMaxCiphertextMessageBytes := by
  simp only [isCiphertextMessageSizeValid, Bool.and_eq_true, decide_eq_true_eq, gt_iff_lt]

theorem ciphertext_numbered {size : Nat} (small : size ≤ kMaxCiphertextMessageBytes) : size < 256 ^ 4 :=
  lt_of_le_of_lt small (by decide)

section Receiving

variable {tx rx next : σ} {message cipher more : Bytes} {chunks : List Bytes}

theorem recvFrame_length (S : SecretStream σ) (rx : σ) (numbered : cipher.length < 256 ^ 4)
    (incoming : chunks.flatten = framed cipher ++ more) :
    ∃ rest, rest.flatten = cipher ++ more ∧ recvFrame S rx chunks =
      (do guard (isCiphertextMessageSizeValid cipher.length)
          let (ciphertext, chunks) ← recvAll rest cipher.length
          let (outPlaintext, rxState) ← S.pull rx ciphertext
          pure (outPlaintext, rxState, chunks)) := by
  rw [framed, List.append_assoc] at incoming
  obtain ⟨rest, taken, left⟩ := recvAll_front incoming
  rw [bigEndian_length] at taken
  refine ⟨rest, left, ?_⟩
  simp only [recvFrame, taken, Option.bind_eq_bind, Option.bind_some, number_bigEndian_of_lt numbered]

theorem recvFrame_taken (ideal : S.Ideal secretstreamABytes inStep) (step : inStep tx rx)
    (pushed : S.push tx message = some (cipher, next)) (incoming : chunks.flatten = framed cipher ++ more)
    (valid : isCiphertextMessageSizeValid cipher.length = true) :
    ∃ further rest, recvFrame S rx chunks = some (message, further, rest) ∧
      inStep next further ∧ rest.flatten = more := by
  have numbered := ciphertext_numbered ((isCiphertextMessageSizeValid_iff _).mp valid).2
  obtain ⟨rest, left, reads⟩ := recvFrame_length S rx numbered incoming
  obtain ⟨last, taken, onward⟩ := recvAll_front left
  obtain ⟨further, opened, kept⟩ := ideal.opens _ _ _ _ _ step pushed
  refine ⟨further, last, ?_, kept, onward⟩
  rw [reads]
  simp [valid, taken, opened]

theorem recvFrame_refused (S : SecretStream σ) (rx : σ) (numbered : cipher.length < 256 ^ 4)
    (incoming : chunks.flatten = framed cipher ++ more) (invalid : isCiphertextMessageSizeValid cipher.length = false) :
    recvFrame S rx chunks = none := by
  obtain ⟨rest, -, reads⟩ := recvFrame_length S rx numbered incoming
  rw [reads]
  simp [invalid]

end Receiving

theorem recvFrames_sealed (ideal : S.Ideal secretstreamABytes inStep) {tx rx last : σ} {messages : List Bytes}
    {bytes : Bytes} (sealed : S.Sealed framed tx messages bytes last) (step : inStep tx rx)
    (valid : ∀ message ∈ messages, 0 < message.length ∧ message.length ≤ kMaxPlaintext)
    {chunks : List Bytes} (incoming : chunks.flatten = bytes) (calls : Nat) :
    recvFrames S calls rx chunks = messages.take calls := by
  induction sealed generalizing rx chunks calls with
  | nil tx =>
    cases calls with
    | zero => rfl
    | succ calls =>
      have nothing := recvAll_short chunks 4 (by simp [incoming])
      simp [recvFrames, recvFrame, nothing]
  | @cons tx next last message cipher more messages pushed sealed ih =>
    cases calls with
    | zero => rfl
    | succ calls =>
      obtain ⟨nonempty, small⟩ := valid message (List.mem_cons_self ..)
      obtain ⟨_, _, again, size⟩ := ideal.seals tx message
      obtain ⟨rfl, rfl⟩ := Prod.mk.inj (Option.some.inj (pushed.symm.trans again))
      have fits : isCiphertextMessageSizeValid cipher.length = true := by
        rw [kMaxPlaintext] at small
        exact (isCiphertextMessageSizeValid_iff _).mpr (by omega)
      obtain ⟨further, rest, received, kept, left⟩ := recvFrame_taken ideal step pushed incoming fits
      have onward := ih kept (fun later member => valid later (List.mem_cons_of_mem _ member)) left calls
      rw [recvFrames, received, List.take_succ_cons]
      exact congrArg _ onward

section Sending

variable {s : Sender σ} {tag4 bodyA bodyB : Bytes}

theorem sendFrame_refused (tag4 : Bytes) (large : kMaxPlaintext < 4 + bodyA.length + bodyB.length) :
    sendFrame S link s tag4 bodyA bodyB = (false, s) := if_pos large

theorem sendFrame_sent (ideal : S.Ideal secretstreamABytes inStep) (reliable : ∀ written buffer, link written buffer = none)
    (tagged : tag4.length = 4) (fits : 4 + bodyA.length + bodyB.length ≤ kMaxPlaintext) :
    ∃ cipher next, S.push s.txState (tag4 ++ bodyA ++ bodyB) = some (cipher, next) ∧
      sendFrame S link s tag4 bodyA bodyB = (true, ⟨next, s.written ++ framed cipher⟩) := by
  obtain ⟨cipher, next, pushed, size⟩ := ideal.seals s.txState (tag4 ++ bodyA ++ bodyB)
  have notLarge : ¬ 4 + bodyA.length + bodyB.length > kMaxPlaintext := not_lt.mpr fits
  have notLong : ¬ cipher.length > kMaxCiphertextMessageBytes := by
    rw [kMaxPlaintext] at fits
    rw [List.length_append, List.length_append, tagged] at size
    omega
  refine ⟨cipher, next, pushed, ?_⟩
  simp only [sendFrame, if_neg notLarge, pushed, if_neg notLong, sendAll, reliable]
  rw [List.append_assoc, framed]

end Sending

theorem frame_message_length (f : Frame) : f.message.length = 4 + f.bodyA.length + f.bodyB.length := by
  rw [Frame.message, List.length_append, List.length_append, f.tagged]

/-- A refused frame leaves no trace: what is written is the sequence of the others. -/
theorem sendFrames_sealed (ideal : S.Ideal secretstreamABytes inStep) (reliable : ∀ written buffer, link written buffer = none)
    (s : Sender σ) (frames : List Frame) :
    (sendFrames S link s frames).1 = frames.map (fun f => (f, decide (f.message.length ≤ kMaxPlaintext))) ∧
    ∃ bytes, (sendFrames S link s frames).2.written = s.written ++ bytes ∧
      S.Sealed framed s.txState (delivered (sendFrames S link s frames).1) bytes (sendFrames S link s frames).2.txState := by
  induction frames generalizing s with
  | nil => exact ⟨rfl, [], (List.append_nil _).symm, .nil _⟩
  | cons f frames ih =>
    by_cases fits : f.message.length ≤ kMaxPlaintext
    · have small := fits
      rw [frame_message_length f] at small
      obtain ⟨cipher, next, pushed, sent⟩ := sendFrame_sent (s := s) ideal reliable f.tagged small
      obtain ⟨results, bytes, written, sealed⟩ := ih ⟨next, s.written ++ framed cipher⟩
      simp only [sendFrames, sent]
      refine ⟨by rw [results, List.map_cons, decide_eq_true fits], framed cipher ++ bytes, ?_, ?_⟩
      · rw [written, List.append_assoc]
      · exact .cons pushed sealed
    · have large := not_le.mp fits
      rw [frame_message_length f] at large
      have refused : sendFrame S link s f.tag4 f.bodyA f.bodyB = (false, s) := sendFrame_refused f.tag4 large
      obtain ⟨results, bytes, written, sealed⟩ := ih s
      simp only [sendFrames, refused]
      exact ⟨by rw [results, List.map_cons, decide_eq_false fits], bytes, written, sealed⟩

theorem delivered_sized {frames : List Frame} {message : Bytes}
    (member : message ∈ delivered (frames.map fun f => (f, decide (f.message.length ≤ kMaxPlaintext)))) :
    0 < message.length ∧ message.length ≤ kMaxPlaintext := by
  obtain ⟨⟨f, sent⟩, kept, rfl⟩ := List.mem_map.mp member
  obtain ⟨listed, carried⟩ := List.mem_filter.mp kept
  obtain ⟨f', -, same⟩ := List.mem_map.mp listed
  obtain ⟨rfl, rfl⟩ := Prod.mk.inj same
  have four := frame_message_length f'
  exact ⟨by dsimp only; omega, of_decide_eq_true carried⟩

/-- The receiver's lower bound admits the ciphertexts of one to three bytes, which no `SendFrame` sends. -/
theorem framing_round_trip (ideal : S.Ideal secretstreamABytes inStep)
    (reliable : ∀ written buffer, link written buffer = none) {tx rx : σ} (step : inStep tx rx) :
    (∀ frames : List Frame,
      (sendFrames S link ⟨tx, []⟩ frames).1 = frames.map (fun f => (f, decide (f.message.length ≤ kMaxPlaintext))) ∧
      ∀ chunks calls, chunks.flatten = (sendFrames S link ⟨tx, []⟩ frames).2.written →
        recvFrames S calls rx chunks = (delivered (sendFrames S link ⟨tx, []⟩ frames).1).take calls) ∧
    ∀ message cipher next chunks more, S.push tx message = some (cipher, next) → cipher.length < 256 ^ 4 →
      chunks.flatten = framed cipher ++ more →
        ((∀ outPlaintext further rest, recvFrame S rx chunks = some (outPlaintext, further, rest) →
          4 ≤ outPlaintext.length) ↔ ¬ (1 ≤ message.length ∧ message.length ≤ 3)) := by
  constructor
  · intro frames
    obtain ⟨results, bytes, written, sealed⟩ := sendFrames_sealed (S := S) ideal reliable ⟨tx, []⟩ frames
    refine ⟨results, fun chunks calls incoming => ?_⟩
    rw [written, List.nil_append] at incoming
    apply recvFrames_sealed ideal sealed step _ incoming
    intro message member
    rw [results] at member
    exact delivered_sized member
  · intro message cipher next chunks more pushed numbered incoming
    obtain ⟨_, _, again, size⟩ := ideal.seals tx message
    obtain ⟨rfl, rfl⟩ := Prod.mk.inj (Option.some.inj (pushed.symm.trans again))
    by_cases valid : isCiphertextMessageSizeValid cipher.length = true
    · obtain ⟨further, rest, received, -, -⟩ := recvFrame_taken ideal step pushed incoming valid
      have nonempty := ((isCiphertextMessageSizeValid_iff _).mp valid).1
      constructor
      · intro tagged
        have four := tagged _ _ _ received
        omega
      · intro long outPlaintext further' rest' same
        obtain ⟨rfl, -⟩ := Prod.mk.inj (Option.some.inj (received.symm.trans same))
        omega
    · have refused := recvFrame_refused S rx numbered incoming (Bool.eq_false_iff.mpr valid)
      have notShort : ¬ (1 ≤ message.length ∧ message.length ≤ 3) := by
        rintro ⟨nonempty, short⟩
        apply valid
        rw [isCiphertextMessageSizeValid_iff, size]
        exact ⟨by omega, le_trans (Nat.add_le_add_right short _) (by decide)⟩
      simp [refused, notShort]

def pingFrame : Frame := ⟨[80, 73, 78, 71], [], [], rfl⟩

def nmapFrame : Frame := ⟨[78, 77, 65, 80], [1], [2, 3], rfl⟩

def cutChunks : List Bytes :=
  [[0, 0], [], [0, 21, 80, 73, 78, 71, 0], List.replicate 16 0 ++ [0, 0, 0, 24, 78, 77, 65, 80, 1, 2, 3] ++
    List.replicate 17 1]

theorem ping_nmap_round_trip :
    recvFrames (SecretStream.counted secretstreamABytes) 3 0 cutChunks =
        [[80, 73, 78, 71], [78, 77, 65, 80, 1, 2, 3]] ∧
    ∀ outPlaintext further rest, recvFrame (SecretStream.counted secretstreamABytes) 0 cutChunks =
      some (outPlaintext, further, rest) → 4 ≤ outPlaintext.length := by
  have reliable : ∀ written buffer, (fun _ _ => none : Link) written buffer = none := fun _ _ => rfl
  have started : (0 : Nat) = 0 := rfl
  have trip := framing_round_trip (SecretStream.counted_ideal secretstreamABytes) reliable started
  constructor
  · have received := (trip.1 [pingFrame, nmapFrame]).2 cutChunks 3 (by decide +kernel)
    rw [received]
    decide +kernel
  · exact (trip.2 [80, 73, 78, 71] ([80, 73, 78, 71] ++ List.replicate 17 0) 1 cutChunks
      (framed ([78, 77, 65, 80, 1, 2, 3] ++ List.replicate 17 1)) rfl (by decide) (by decide +kernel)).mpr (by decide)

theorem short_message_untagged :
    ¬ ∀ message outPlaintext further rest,
      recvFrame (SecretStream.counted secretstreamABytes) 0 [framed (message ++ List.replicate secretstreamABytes 0)] =
        some (outPlaintext, further, rest) → 4 ≤ outPlaintext.length := by
  intro tagged
  have received : recvFrame (SecretStream.counted secretstreamABytes) 0
      [framed ([80, 73, 78] ++ List.replicate secretstreamABytes 0)] = some ([80, 73, 78], 1, []) := by
    decide +kernel
  exact absurd (tagged _ _ _ _ received) (by decide)

end ClippProof.Wire
