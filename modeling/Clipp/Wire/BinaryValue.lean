import Clipp.Wire.RegisterList

open Foundation

namespace ClippProof.Wire

open ClippModel.Registers ClippModel.Wire.RegisterWire

variable {version reserved : UInt8} {formatId : UInt32} {extra stream value : Bytes} {info : BinaryValueInfo}

/-- The header of any version: the fields a reader relies on, and behind them fields it passes over. -/
def binaryHeader (version reserved : UInt8) (formatId : UInt32) (extra : Bytes) : Bytes :=
  [version, reserved] ++ bigEndian 2 (kBinaryHeaderV1Size + extra.length) ++ bigEndian 4 formatId.toNat ++ extra

theorem binaryHeader_length : (binaryHeader version reserved formatId extra).length = kBinaryHeaderV1Size + extra.length := by
  simp only [binaryHeader, List.length_append, bigEndian_length, List.length_cons, List.length_nil]
  rfl

theorem encodeBinaryValue_eq (formatId : UInt32) (stream : Bytes) :
    encodeBinaryValue formatId stream = binaryHeader kBinaryHeaderVersion 0 formatId [] ++ stream := by
  simp [encodeBinaryValue, binaryHeader]

theorem drop_binaryHeader :
    (binaryHeader version reserved formatId extra ++ stream).drop (kBinaryHeaderV1Size + extra.length) = stream :=
  List.drop_left' binaryHeader_length

theorem tryParseBinaryValue_header (fits : kBinaryHeaderV1Size + extra.length < 2 ^ 16) :
    tryParseBinaryValue (binaryHeader version reserved formatId extra ++ stream) =
      some { formatId := formatId, streamOffset := kBinaryHeaderV1Size + extra.length } := by
  have whole : (binaryHeader version reserved formatId extra ++ stream).length =
      kBinaryHeaderV1Size + extra.length + stream.length := by rw [List.length_append, binaryHeader_length]
  have size : ((binaryHeader version reserved formatId extra ++ stream).drop 2).take 2 =
      bigEndian 2 (kBinaryHeaderV1Size + extra.length) := by
    simp only [binaryHeader, List.append_assoc, List.cons_append, List.nil_append, List.drop_succ_cons, List.drop_zero]
    exact List.take_left' (bigEndian_length _ _)
  have format : ((binaryHeader version reserved formatId extra ++ stream).drop 4).take 4 = bigEndian 4 formatId.toNat := by
    have front : ([version, reserved] ++ bigEndian 2 (kBinaryHeaderV1Size + extra.length)).length = 4 := by
      simp only [List.length_append, bigEndian_length, List.length_cons, List.length_nil]
    rw [binaryHeader, List.append_assoc, List.append_assoc, List.drop_left' front]
    exact List.take_left' (bigEndian_length _ _)
  have headerLen : number (bigEndian 2 (kBinaryHeaderV1Size + extra.length)) = kBinaryHeaderV1Size + extra.length :=
    number_bigEndian_of_lt fits
  have code : number (bigEndian 4 formatId.toNat) = formatId.toNat := number_bigEndian_of_lt formatId.toNat_lt
  rw [tryParseBinaryValue, if_neg (by omega)]
  simp only [size, format, headerLen, code, UInt32.ofNat_toNat]
  rw [if_neg (by omega)]

theorem encodeBinaryValue_parsed (formatId : UInt32) (stream : Bytes) :
    tryParseBinaryValue (encodeBinaryValue formatId stream) =
      some { formatId := formatId, streamOffset := kBinaryHeaderV1Size } := by
  rw [encodeBinaryValue_eq]
  exact tryParseBinaryValue_header (by decide)

theorem encodeBinaryValue_drop (formatId : UInt32) (stream : Bytes) :
    (encodeBinaryValue formatId stream).drop kBinaryHeaderV1Size = stream := by
  rw [encodeBinaryValue_eq]
  exact List.drop_left' binaryHeader_length

theorem header_of_tryParse (parsed : tryParseBinaryValue value = some info) : ∃ version reserved extra,
    info.streamOffset = kBinaryHeaderV1Size + extra.length ∧ kBinaryHeaderV1Size + extra.length < 2 ^ 16 ∧
    value = binaryHeader version reserved info.formatId extra ++ value.drop info.streamOffset := by
  unfold tryParseBinaryValue at parsed
  split_ifs at parsed with short
  dsimp only at parsed
  split_ifs at parsed with outside
  cases parsed
  dsimp only
  rcases value with _ | ⟨b0, _ | ⟨b1, _ | ⟨b2, _ | ⟨b3, _ | ⟨b4, _ | ⟨b5, _ | ⟨b6, _ | ⟨b7, rest⟩⟩⟩⟩⟩⟩⟩⟩
  case cons.cons.cons.cons.cons.cons.cons.cons =>
    simp only [List.drop_succ_cons, List.drop_zero, List.take_succ_cons, List.take_zero, List.length_cons] at outside ⊢
    have size : number [b2, b3] < 2 ^ 16 := (number_lt [b2, b3]).trans_eq (by norm_num)
    have format : number [b4, b5, b6, b7] < 2 ^ 32 := (number_lt [b4, b5, b6, b7]).trans_eq (by norm_num)
    obtain ⟨more, headerLen⟩ : ∃ more, number [b2, b3] = kBinaryHeaderV1Size + more :=
      Nat.exists_eq_add_of_le (by omega)
    have fixed : kBinaryHeaderV1Size = 8 := rfl
    have extra : (rest.take more).length = more := List.length_take_of_le (by omega)
    have sizeBytes : bigEndian 2 (number [b2, b3]) = [b2, b3] := bigEndian_number [b2, b3]
    have formatBytes : bigEndian 4 (UInt32.ofNat (number [b4, b5, b6, b7])).toNat = [b4, b5, b6, b7] := by
      rw [UInt32.toNat_ofNat', Nat.mod_eq_of_lt format]
      exact bigEndian_number [b4, b5, b6, b7]
    have behind : (b0 :: b1 :: b2 :: b3 :: b4 :: b5 :: b6 :: b7 :: rest).drop (kBinaryHeaderV1Size + more) =
        rest.drop more := by
      rw [← List.drop_drop]
      rfl
    refine ⟨b0, b1, rest.take more, by rw [extra, headerLen], by rwa [extra, ← headerLen], ?_⟩
    rw [headerLen, behind, binaryHeader, extra, ← headerLen, sizeBytes, formatBytes]
    simp only [List.cons_append, List.nil_append, List.take_append_drop]
  all_goals exact absurd (by simp [kBinaryHeaderV1Size]) short

theorem encodeBinaryValue_of_parsed (parsed : tryParseBinaryValue value = some info)
    (current : value.take 2 = [kBinaryHeaderVersion, 0]) (short : info.streamOffset = kBinaryHeaderV1Size) :
    encodeBinaryValue info.formatId (value.drop info.streamOffset) = value := by
  obtain ⟨version, reserved, extra, offset, _, split⟩ := header_of_tryParse parsed
  have none : extra = [] := by
    apply List.eq_nil_of_length_eq_zero
    omega
  subst none
  have front : value.take 2 = [version, reserved] := by
    rw [split]
    rfl
  obtain ⟨rfl, rfl⟩ : version = kBinaryHeaderVersion ∧ reserved = 0 := by
    rw [front] at current
    simpa using current
  rw [encodeBinaryValue_eq]
  exact split.symm

/-- Encoder and parser undo each other, and what a newer header adds only moves the stream. -/
structure HeadersInvert : Prop where
  parsed : ∀ formatId stream,
    tryParseBinaryValue (encodeBinaryValue formatId stream) =
        some { formatId := formatId, streamOffset := kBinaryHeaderV1Size } ∧
      (encodeBinaryValue formatId stream).drop kBinaryHeaderV1Size = stream
  encoded : ∀ value info, tryParseBinaryValue value = some info → value.take 2 = [kBinaryHeaderVersion, 0] →
    info.streamOffset = kBinaryHeaderV1Size → encodeBinaryValue info.formatId (value.drop info.streamOffset) = value
  longer : ∀ version reserved formatId extra stream, kBinaryHeaderV1Size + extra.length < 2 ^ 16 →
    tryParseBinaryValue (binaryHeader version reserved formatId extra ++ stream) =
        some { formatId := formatId, streamOffset := kBinaryHeaderV1Size + extra.length } ∧
      (binaryHeader version reserved formatId extra ++ stream).drop (kBinaryHeaderV1Size + extra.length) = stream

theorem headers_invert : HeadersInvert where
  parsed formatId stream := ⟨encodeBinaryValue_parsed formatId stream, encodeBinaryValue_drop formatId stream⟩
  encoded _ _ parsed current short := encodeBinaryValue_of_parsed parsed current short
  longer _ _ _ _ _ fits := ⟨tryParseBinaryValue_header fits, drop_binaryHeader⟩

end ClippProof.Wire
