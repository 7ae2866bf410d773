import Clipp.Gateway.Promotion

open Foundation

namespace ClippProof.Gateway

open ClippModel.Registers ClippModel.Registers.RegisterStore ClippModel.Wire ClippModel.Wire.CryptoChannel
  ClippModel.Wire.RegisterWire ClippModel.Wire.Peer ClippModel.Gateway ClippModel.Cli ClippModel.Clipboard
  ClippModel.Clipboard.ClipboardPayload ClippModel.Clipboard.ClipboardWire ClippProof.Registers ClippProof.Wire
  ClippProof.Clipboard

variable {C : Codec} {s : RegisterStore} {t : Readings} {stamp : OriginStamp} {name : Bytes}
  {r : RegisterRecord} {built : ClipboardPayload}

def reliable : Transport := fun _ _ => true

/-- The format and the bytes a record offers the clipboard. -/
def shareable (r : RegisterRecord) : Option (UInt32 × Bytes) :=
  if r.isBinary then
    (tryParseBinaryValue r.value).map (fun info => (info.formatId, r.value.drop info.streamOffset))
  else some (clippFormatUtf8, r.value ++ [0])

def encodedContent (C : Codec) (format : UInt32) (content : Bytes) : Option Bytes :=
  if worthCompressing format (canonicalBytes format content) then C.compress (canonicalBytes format content)
  else some (canonicalBytes format content)

/-- The header cannot be parsed, or the compressor fails. -/
def Unbuildable (C : Codec) (r : RegisterRecord) : Prop :=
  ∀ format content, shareable r = some (format, content) → encodedContent C format content = none

/-- Both frames of the command line's way fit: the record on its way out, and the item on its way back. -/
def PutFits (C : Codec) (r : RegisterRecord) : Prop :=
  Sendable r ∧ ∀ format content packed, shareable r = some (format, content) →
    encodedContent C format content = some packed → 4 + clipboardMessageSize + packed.length ≤ kMaxPlaintext

structure SameItem (C : Codec) (a b : ClipboardPayload) : Prop where
  format : a.meta_.formatId = b.meta_.formatId
  hash : a.meta_.hashBytes = b.meta_.hashBytes
  content : tryGetUncompressedBytes C a = tryGetUncompressedBytes C b

/-- All refuse, or all produce one item, marked private exactly when the register is. -/
def PutsAgree (C : Codec) (r : RegisterRecord) (current routed relayed : Option ClipboardPayload) : Prop :=
  (current = none ∧ routed = none ∧ relayed = none) ∨
  ∃ a b c, current = some a ∧ routed = some b ∧ relayed = some c ∧ SameItem C a b ∧ SameItem C a c ∧
    ∀ item ∈ [a, b, c], item.isSourceMarkedPrivate = r.isPrivate

/-- The same content under other stamps and flags. -/
structure Restamped (p q : ClipboardPayload) : Prop where
  encoded : q.encoded = p.encoded
  format : q.meta_.formatId = p.meta_.formatId
  hash : q.meta_.hashBytes = p.meta_.hashBytes
  compressed : q.meta_.isCompressed = p.meta_.isCompressed
  size : q.meta_.uncompressedDataSize = p.meta_.uncompressedDataSize

theorem restamped_addFlags (p : ClipboardPayload) (flags : UInt32) : Restamped p (p.addFlags flags) :=
  ⟨rfl, rfl, rfl, rfl, rfl⟩

theorem restamped_stampOrigin (p : ClipboardPayload) (stamp : OriginStamp) : Restamped p (p.stampOrigin stamp) :=
  ⟨rfl, rfl, rfl, rfl, rfl⟩

theorem Restamped.trans {p q u : ClipboardPayload} (first : Restamped p q) (second : Restamped q u) : Restamped p u :=
  ⟨second.encoded.trans first.encoded, second.format.trans first.format, second.hash.trans first.hash,
    second.compressed.trans first.compressed, second.size.trans first.size⟩

theorem Restamped.tryGet {p q : ClipboardPayload} (same : Restamped p q) :
    tryGetUncompressedBytes C q = tryGetUncompressedBytes C p := by
  unfold tryGetUncompressedBytes
  rw [same.encoded, same.compressed, same.size]

theorem Restamped.sameItem {p a b : ClipboardPayload} (left : Restamped p a) (right : Restamped p b) :
    SameItem C a b :=
  ⟨left.format.trans right.format.symm, left.hash.trans right.hash.symm, left.tryGet.trans right.tryGet.symm⟩

theorem read_live (found : unexpired s t.expiry name = some r) (living : r.isTombstone = false) :
    (s.read t name).result = some { r with touched := (s.clock.now t.mint).1 } := by
  obtain ⟨resident, fresh⟩ := unexpired_eq_some.mp found
  simp only [RegisterStore.read, resident, fresh, living, Bool.false_eq_true, if_false]

theorem setUncompressedBytes_encoded (C : Codec) (p : ClipboardPayload) (content : Bytes) :
    (setUncompressedBytes C p content).map ClipboardPayload.encoded =
      encodedContent C p.meta_.formatId content := by
  unfold setUncompressedBytes encodedContent
  by_cases worth : worthCompressing p.meta_.formatId (canonicalBytes p.meta_.formatId content) = true
  · simp only [worth, Bool.not_true, Bool.false_eq_true, if_false, if_true]
    cases C.compress (canonicalBytes p.meta_.formatId content) <;> rfl
  · simp only [worth, Bool.not_false, if_true, Bool.false_eq_true, if_false, Option.map_some]

theorem buildItem_eq (C : Codec) (r : RegisterRecord) :
    buildItem C r = (shareable r).bind (fun offered => setUncompressedBytes C (blankItem offered.1) offered.2) := by
  unfold buildItem shareable
  by_cases binary : r.isBinary = true
  · simp only [binary, if_true]
    cases tryParseBinaryValue r.value <;> rfl
  · simp only [binary, Bool.false_eq_true, if_false]
    rfl

theorem unbuildable_iff (C : Codec) (r : RegisterRecord) : Unbuildable C r ↔ buildItem C r = none := by
  rw [buildItem_eq]
  cases offered : shareable r with
  | none => simp [Unbuildable, offered]
  | some pair =>
    obtain ⟨format, content⟩ := pair
    have encoding : (setUncompressedBytes C (blankItem format) content).map ClipboardPayload.encoded =
        encodedContent C format content := setUncompressedBytes_encoded C (blankItem format) content
    have stored : encodedContent C format content = none ↔ setUncompressedBytes C (blankItem format) content = none := by
      rw [← encoding, Option.map_eq_none_iff]
    simp only [Unbuildable, offered, Option.some.injEq, Prod.mk.injEq, and_imp, Option.bind_some]
    rw [← stored]
    exact ⟨fun all => all format content rfl rfl, fun absent f b sameFormat sameContent => by
      rw [← sameFormat, ← sameContent]
      exact absent⟩

theorem buildItem_offered (made : buildItem C r = some built) :
    ∃ format content, shareable r = some (format, content) ∧
      encodedContent C format content = some built.encoded ∧ built.meta_.flags = 0 := by
  rw [buildItem_eq] at made
  obtain ⟨⟨format, content⟩, offered, set_⟩ := Option.bind_eq_some_iff.mp made
  have encoding := setUncompressedBytes_encoded C (blankItem format) content
  rw [set_] at encoding
  exact ⟨format, content, offered, encoding.symm, (setUncompressedBytes_built set_).flags⟩

theorem sendClipboardPayload_reliable (p : ClipboardPayload) (sent : List Bytes) :
    (sendClipboardPayload reliable sent p).1 = true ↔
      4 + clipboardMessageSize + p.encoded.length ≤ kMaxPlaintext := by
  have limit : kMaxPlaintext = kMaxEncodedPayloadBytes + (4 + clipboardMessageSize) := by decide
  constructor
  · intro delivered
    unfold sendClipboardPayload at delivered
    split_ifs at delivered with large
    omega
  · intro fits
    rw [sendClipboardPayload_carried fits rfl]

theorem makeRegisterCurrent_live (found : unexpired s t.expiry name = some r) (living : r.isTombstone = false) :
    (makeRegisterCurrent C stamp s t name).1 = (buildItem C r).map (fun payload =>
      (if r.isPrivate then payload.addFlags clpmFlagSourceMarkedPrivate else payload).stampOrigin stamp) := by
  have same : buildItem C { r with touched := (s.clock.now t.mint).1 } = buildItem C r := rfl
  simp only [makeRegisterCurrent, read_live found living, same]
  cases buildItem C r <;> rfl

theorem handleRput_live (found : unexpired s t.expiry name = some r) (living : r.isTombstone = false)
    (valid : isValidRegisterName name = true) :
    (handleRput C true stamp s t (encodeName name)).routed =
      (buildItem C r).map (fun payload => (payload.stampOrigin stamp).addFlags clpmFlagRelay) := by
  have same : buildItem C { r with touched := (s.clock.now t.mint).1 } = buildItem C r := rfl
  have named := tryDecodeName_encodeName (validName_length valid)
  simp only [handleRput, named, valid, Bool.not_true, Bool.false_eq_true, if_false, read_live found living, same]
  cases buildItem C r <;> rfl

theorem handleRget_live (found : unexpired s t.expiry name = some r) (living : r.isTombstone = false)
    (valid : isValidRegisterName name = true) :
    (handleRget reliable s t (encodeName name) []).2 =
      (sendFrame reliable [] tagREGW (u32Sized (encodeRecord { r with touched := (s.clock.now t.mint).1 } 0)) []).2 := by
  have named := tryDecodeName_encodeName (validName_length valid)
  simp only [handleRget, named, valid, Bool.not_true, Bool.false_eq_true, if_false, read_live found living]

theorem fetchRecord_frame (caps : WithinCaps r) (named : r.name = name) (rest : List Bytes) :
    fetchRecord name ((tagREGW ++ encodeRecord r 0) :: rest) = .record r := by
  have long : ¬ (tagREGW ++ encodeRecord r 0).length < 4 := by
    rw [List.length_append]
    exact not_lt.mpr (Nat.le_add_right 4 _)
  have tag : (tagREGW ++ encodeRecord r 0).take 4 = tagREGW := List.take_left' rfl
  have body : (tagREGW ++ encodeRecord r 0).drop 4 = encodeRecord r 0 := List.drop_left' rfl
  simp only [fetchRecord, if_neg long, if_pos tag, body, tryDecodeRecord_encodeRecord caps 0, ne_eq, named,
    not_true_eq_false, if_false]

theorem runPut_live (found : unexpired s t.expiry name = some r) (living : r.isTombstone = false)
    (valid : isValidRegisterName name = true) (size : r.value.length ≤ kMaxValueLen) :
    runPut C stamp reliable [] name (handleRget reliable s t (encodeName name) []).2 =
      if r.name.length + r.value.length ≤ kLargestReplicated then
        ((buildItem C r).map (fun payload => (payload.stampOrigin stamp).addFlags clpmFlagRelay)).filter
          (fun payload => (sendClipboardPayload reliable [] payload).1)
      else none := by
  have named : r.name = name := unexpired_name found
  let touched : RegisterRecord := { r with touched := (s.clock.now t.mint).1 }
  have caps : WithinCaps touched := ⟨by rw [show touched.name = name from named]; exact validName_length valid, size⟩
  rw [handleRget_live found living valid, encoded_u32 caps]
  split_ifs with fits
  · have frame : 4 + (encodeRecord touched 0).length + ([] : Bytes).length ≤ kMaxPlaintext :=
      (sendable_iff touched).mp fits
    have sent : sendFrame reliable [] tagREGW (encodeRecord touched 0) [] =
        (true, [] ++ [tagREGW ++ encodeRecord touched 0 ++ []]) := sendFrame_carried frame rfl
    rw [sent, List.append_nil, List.nil_append, runPut, fetchRecord_frame caps named]
    have same : buildItem C touched = buildItem C r := rfl
    simp only [same]
    cases buildItem C r with
    | none => rfl
    | some payload =>
      simp only [Option.map_some, Option.filter_some]
  · have tooLarge : kMaxPlaintext < 4 + (encodeRecord touched 0).length + ([] : Bytes).length :=
      not_le.mp (mt (sendable_iff touched).mpr fits)
    rw [sendFrame_too_large tooLarge]
    rfl

theorem putFits_iff (made : buildItem C r = some built) :
    PutFits C r ↔ Sendable r ∧ 4 + clipboardMessageSize + built.encoded.length ≤ kMaxPlaintext := by
  obtain ⟨format, content, offered, encoding, _⟩ := buildItem_offered made
  refine and_congr_right fun _ => ⟨fun all => all format content _ offered encoding, ?_⟩
  intro fits format' content' packed offered' encoding'
  rw [offered, Option.some.injEq, Prod.mk.injEq] at offered'
  obtain ⟨rfl, rfl⟩ := offered'
  rw [encoding, Option.some.injEq] at encoding'
  rw [← encoding']
  exact fits

theorem relayed_unmarked (made : buildItem C r = some built) :
    ((built.stampOrigin stamp).addFlags clpmFlagRelay).isSourceMarkedPrivate = false := by
  obtain ⟨_, _, _, _, flags⟩ := buildItem_offered made
  have bits : ((built.stampOrigin stamp).addFlags clpmFlagRelay).meta_.flags = 0 ||| clpmFlagRelay := by
    rw [← flags]
    rfl
  rw [isSourceMarkedPrivate, bits]
  decide

def currentItem (stamp : OriginStamp) (r : RegisterRecord) (built : ClipboardPayload) : ClipboardPayload :=
  (if r.isPrivate then built.addFlags clpmFlagSourceMarkedPrivate else built).stampOrigin stamp

theorem currentItem_marked (made : buildItem C r = some built) :
    (currentItem stamp r built).isSourceMarkedPrivate = r.isPrivate := by
  obtain ⟨_, _, _, _, flags⟩ := buildItem_offered made
  cases isPrivate : r.isPrivate with
  | true =>
    have bits : (currentItem stamp r built).meta_.flags = 0 ||| clpmFlagSourceMarkedPrivate := by
      rw [currentItem, isPrivate, ← flags]
      rfl
    rw [isSourceMarkedPrivate, bits]
    decide
  | false =>
    have bits : (currentItem stamp r built).meta_.flags = 0 := by
      rw [currentItem, isPrivate, ← flags]
      rfl
    rw [isSourceMarkedPrivate, bits]
    decide

theorem restamped_currentItem (stamp : OriginStamp) (r : RegisterRecord) (built : ClipboardPayload) :
    Restamped built (currentItem stamp r built) := by
  unfold currentItem
  split_ifs
  · exact (restamped_addFlags _ _).trans (restamped_stampOrigin _ _)
  · exact restamped_stampOrigin _ _

theorem restamped_relayed (stamp : OriginStamp) (built : ClipboardPayload) :
    Restamped built ((built.stampOrigin stamp).addFlags clpmFlagRelay) :=
  (restamped_stampOrigin _ _).trans (restamped_addFlags _ _)

structure Attempt where
  t : Readings
  stamp : OriginStamp

/-- The three ways to make one live register of this store current, each over connections that work. -/
def AttemptsAgree (C : Codec) (s : RegisterStore) (name : Bytes) (r : RegisterRecord) (here there cli : Attempt) : Prop :=
  PutsAgree C r (makeRegisterCurrent C here.stamp s here.t name).1
    (handleRput C true there.stamp s there.t (encodeName name)).routed
    (runPut C cli.stamp reliable [] name (handleRget reliable s cli.t (encodeName name) []).2)

section Paths

variable {here there cli : Attempt} (living : r.isTombstone = false) (valid : isValidRegisterName name = true)
  (size : r.value.length ≤ kMaxValueLen) (foundHere : unexpired s here.t.expiry name = some r)
  (foundThere : unexpired s there.t.expiry name = some r) (foundCli : unexpired s cli.t.expiry name = some r)

include living valid size foundHere foundThere foundCli

theorem agree_of_unbuildable (refused : buildItem C r = none) : AttemptsAgree C s name r here there cli := by
  refine .inl ⟨?_, ?_, ?_⟩
  · rw [makeRegisterCurrent_live foundHere living, refused, Option.map_none]
  · rw [handleRput_live foundThere living valid, refused, Option.map_none]
  · rw [runPut_live foundCli living valid size, refused]
    split_ifs <;> rfl

theorem agree_of_fits (made : buildItem C r = some built) (shown : r.isPrivate = false) (fits : PutFits C r) :
    AttemptsAgree C s name r here there cli := by
  obtain ⟨sendable, frame⟩ := (putFits_iff made).mp fits
  refine .inr ⟨currentItem here.stamp r built, (built.stampOrigin there.stamp).addFlags clpmFlagRelay,
    (built.stampOrigin cli.stamp).addFlags clpmFlagRelay, ?_, ?_, ?_,
    (restamped_currentItem _ _ _).sameItem (restamped_relayed _ _),
    (restamped_currentItem _ _ _).sameItem (restamped_relayed _ _), ?_⟩
  · rw [makeRegisterCurrent_live foundHere living, made]
    rfl
  · rw [handleRput_live foundThere living valid, made]
    rfl
  · have room : r.name.length + r.value.length ≤ kLargestReplicated := sendable
    have delivered := (sendClipboardPayload_reliable ((built.stampOrigin cli.stamp).addFlags clpmFlagRelay) []).mpr frame
    rw [runPut_live foundCli living valid size, if_pos room, made, Option.map_some, Option.filter_some,
      if_pos delivered]
  · intro item member
    rcases List.mem_cons.mp member with rfl | later
    · exact currentItem_marked made
    rcases List.mem_cons.mp later with rfl | last
    · exact (relayed_unmarked made).trans shown.symm
    · rw [List.mem_singleton.mp last]
      exact (relayed_unmarked made).trans shown.symm

theorem fits_of_agree (made : buildItem C r = some built) (agree : AttemptsAgree C s name r here there cli) :
    r.isPrivate = false ∧ PutFits C r := by
  rcases agree with ⟨refused, _⟩ | ⟨a, b, c, _, routed, relayed, _, _, marks⟩
  · rw [makeRegisterCurrent_live foundHere living, made] at refused
    cases refused
  · rw [handleRput_live foundThere living valid, made, Option.map_some, Option.some.injEq] at routed
    rw [runPut_live foundCli living valid size, made] at relayed
    have unmarked : ((built.stampOrigin there.stamp).addFlags clpmFlagRelay).isSourceMarkedPrivate = false :=
      relayed_unmarked made
    rw [routed, marks b (by simp)] at unmarked
    refine ⟨unmarked, (putFits_iff made).mpr ?_⟩
    split_ifs at relayed with sendable
    rw [Option.map_some, Option.filter_some] at relayed
    split_ifs at relayed with delivered
    exact ⟨sendable,
      (sendClipboardPayload_reliable ((built.stampOrigin cli.stamp).addFlags clpmFlagRelay) []).mp delivered⟩

end Paths

/-- In every reachable store the three ways agree on a live register exactly when no item can be built from it,
    or it is not private and both frames of the command line's way fit. -/
theorem puts_agree_iff (C : Codec) (localHost : HostId) (ttlMs : UInt64) (maxCount : Nat) (floor : Hlc)
    (steps : List GatewayStep) (here there cli : Attempt) (named : name ≠ [])
    (living : r.isTombstone = false)
    (live : ∀ a ∈ [here, there, cli], unexpired (gatewayRun
      ((create localHost ttlMs maxCount kDefaultMaxValueBytes).seedClockFloor floor) steps) a.t.expiry name = some r) :
    AttemptsAgree C (gatewayRun ((create localHost ttlMs maxCount kDefaultMaxValueBytes).seedClockFloor floor) steps)
        name r here there cli ↔
      Unbuildable C r ∨ (r.isPrivate = false ∧ PutFits C r) := by
  have foundHere := live here (by simp)
  have foundThere := live there (by simp)
  have foundCli := live cli (by simp)
  have fits := ((residents_create RegisterFits localHost ttlMs maxCount kDefaultMaxValueBytes floor).run
    registerFits_closed steps).resident name r (unexpired_eq_some.mp foundHere).1
  have key : r.name = name := unexpired_name foundHere
  rw [RegisterFits, key] at fits
  obtain ⟨valid, size⟩ := fits named
  rw [unbuildable_iff]
  cases made : buildItem C r with
  | none =>
    exact iff_of_true (agree_of_unbuildable living valid size foundHere foundThere foundCli made) (.inl rfl)
  | some built =>
    constructor
    · intro agree
      exact .inr (fits_of_agree living valid size foundHere foundThere foundCli made agree)
    · rintro (refused | ⟨shown, frames⟩)
      · cases refused
      · exact agree_of_fits living valid size foundHere foundThere foundCli made shown frames

section Samples

def noStamp : OriginStamp where
  originHostId := HostId.zero
  originHostName := zeroBytes hostnameMaxBytes
  eventGuid := zeroBytes 16
  originSequenceNumber := 0
  timestamp := 0

def attempt : Attempt := { t := .all 1000, stamp := noStamp }

def putSteps (isPrivate : Bool) : List GatewayStep := [.write (.upsert (.all 1000) [0x6B] [0x76] isPrivate)]

def putStore (isPrivate : Bool) : RegisterStore :=
  gatewayRun ((create HostId.zero kDefaultTtlMs 1024 kDefaultMaxValueBytes).seedClockFloor {}) (putSteps isPrivate)

def putRecord (isPrivate : Bool) : RegisterRecord :=
  writtenRecord [0x6B] [0x76] (if isPrivate then RegisterFlags.private_ else 0) HostId.zero
    { wallMs := 1000, counter := 0 }

theorem putRecord_live (isPrivate : Bool) :
    ∀ a ∈ [attempt, attempt, attempt], unexpired (putStore isPrivate) a.t.expiry [0x6B] = some (putRecord isPrivate) := by
  have found : unexpired (putStore isPrivate) 1000 [0x6B] = some (putRecord isPrivate) := by
    cases isPrivate <;> decide +kernel
  intro a member
  have same : a = attempt := by simpa using member
  rw [same]
  exact found

def putItem (isPrivate : Bool) : ClipboardPayload := (buildItem runLength (putRecord isPrivate)).getD (blankItem 0)

theorem putItem_built (isPrivate : Bool) :
    buildItem runLength (putRecord isPrivate) = some (putItem isPrivate) := by
  cases isPrivate <;> decide +kernel

theorem public_register_agrees :
    AttemptsAgree runLength (putStore false) [0x6B] (putRecord false) attempt attempt attempt := by
  have fits : PutFits runLength (putRecord false) :=
    (putFits_iff (putItem_built false)).mpr ⟨show 2 ≤ kLargestReplicated by decide, by decide +kernel⟩
  exact (puts_agree_iff runLength HostId.zero kDefaultTtlMs 1024 {} (putSteps false) attempt attempt attempt
    (by decide) (by decide) (putRecord_live false)).mpr (.inr ⟨by decide, fits⟩)

def PutsAlwaysAgree : Prop :=
  ∀ (C : Codec) (localHost : HostId) (ttlMs : UInt64) (maxCount : Nat) (floor : Hlc) (steps : List GatewayStep)
    (here there cli : Attempt) (name : Bytes) (r : RegisterRecord), name ≠ [] → r.isTombstone = false →
    (∀ a ∈ [here, there, cli], unexpired (gatewayRun
      ((create localHost ttlMs maxCount kDefaultMaxValueBytes).seedClockFloor floor) steps) a.t.expiry name = some r) →
    AttemptsAgree C (gatewayRun ((create localHost ttlMs maxCount kDefaultMaxValueBytes).seedClockFloor floor) steps)
      name r here there cli

/-- A private register reaches the clipboard marked on one of the three ways only. -/
theorem private_register_disagrees : ¬ PutsAlwaysAgree := by
  intro agrees
  have found := putRecord_live true
  have agree := agrees runLength HostId.zero kDefaultTtlMs 1024 {} (putSteps true) attempt attempt attempt [0x6B]
    (putRecord true) (by decide) (by decide) found
  have here := found attempt List.mem_cons_self
  have shown := (fits_of_agree (s := putStore true) (by decide) (by decide) (by decide) here here here
    (putItem_built true) agree).1
  exact absurd shown (by decide)

end Samples

end ClippProof.Gateway
