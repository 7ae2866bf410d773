import Clipp.Clipboard.LineEndings
import Clipp.Clipboard.ReadModifyWrite
import Clipp.Clipboard.Sharing
import Clipp.Gateway.PutAgreement
import Clipp.Wire.BinaryValue

open Foundation

namespace ClippProof.Clipboard

open ClippModel.Registers ClippModel.Registers.RegisterStore ClippModel.Wire.RegisterWire ClippModel.Gateway
  ClippModel.Clipboard ClippModel.Clipboard.ClipboardPayload ClippModel.Clipboard.ClipboardWire ClippProof.Registers
  ClippProof.Wire ClippProof.Gateway

variable {β : Type} {C : Codec} {render : ClipboardPayload → Option β} {d later : Sharer β} {s : RegisterStore}
  {t : Readings} {stamp : OriginStamp} {occasion : Occasion} {now : UInt64} {itemID : Nat} {name : Bytes}
  {markPrivate : Bool} {base p q built : ClipboardPayload} {formatId : UInt32} {raw bytes value : Bytes}
  {flags : UInt8} {r : RegisterRecord}

/-- The buffer handed to the compressor has room for whatever the text comes to. -/
def Codec.Packs (C : Codec) : Prop := ∀ plain, ∃ packed, C.compress plain = some packed

structure HasContent (C : Codec) (p : ClipboardPayload) (bytes : Bytes) : Prop where
  content : tryGetUncompressedBytes C p = some bytes
  hashAlg : p.meta_.hashAlg = 1
  hash : p.meta_.hashBytes = hashField (C.hash128 p.meta_.formatId bytes)

/-- An item comes into the history through a decoder, or is built here and stamped. -/
inductive CameIn (C : Codec) (p : ClipboardPayload) : Prop where
  | decoded (consistent : Consistent p) (addressable : p.encoded.length < 2 ^ 64)
  | captured (base : ClipboardPayload) (raw : Bytes) (built : ClipboardPayload)
      (made : setUncompressedBytes C base raw = some built) (stamped : Restamped built p)

/-- Text with its line ends settled and the terminator behind it, or an image. -/
inductive Canonical : UInt32 → Bytes → Prop where
  | text (text : Bytes) (settled : 0x0D ∉ text) : Canonical clippFormatUtf8 (text ++ [0])
  | image (formatId : UInt32) (bytes : Bytes) (isImage : isClippImageFormat formatId = true) : Canonical formatId bytes

structure CanonicalItem (C : Codec) (p : ClipboardPayload) (bytes : Bytes) : Prop where
  hasContent : HasContent C p bytes
  cameIn : CameIn C p
  canonical : Canonical p.meta_.formatId bytes

def savedValue (formatId : UInt32) (bytes : Bytes) : Bytes :=
  if isClippTextFormat formatId then logicalText bytes else encodeBinaryValue formatId bytes

def savedFlags (markPrivate : Bool) (formatId : UInt32) : UInt8 :=
  let flags := if markPrivate then RegisterFlags.private_ else 0
  if isClippTextFormat formatId then flags else flags ||| RegisterFlags.binaryHeader

theorem isImage_iff : isClippImageFormat formatId = true ↔ formatId = clippFormatPng ∨ formatId = clippFormatJpeg := by
  simp [isClippImageFormat]

theorem image_not_text (isImage : isClippImageFormat formatId = true) : isClippTextFormat formatId = false := by
  rcases isImage_iff.mp isImage with rfl | rfl
  · rfl
  · rfl

theorem canonicalizeCrlfToLf_settled (settled : 0x0D ∉ bytes) : canonicalizeCrlfToLf bytes = bytes := by
  fun_induction canonicalizeCrlfToLf bytes with
  | case1 => rfl
  | case2 rest ih => exact absurd List.mem_cons_self settled
  | case3 rest _ ih => exact absurd List.mem_cons_self settled
  | case4 b rest _ _ ih => rw [ih (fun later => settled (List.mem_cons_of_mem b later))]

theorem Canonical.fixed (canonical : Canonical formatId bytes) : canonicalBytes formatId bytes = bytes := by
  unfold canonicalBytes
  cases canonical with
  | text text settled =>
    rw [if_pos rfl]
    apply canonicalizeCrlfToLf_settled
    simpa using settled
  | image formatId bytes isImage =>
    have other : formatId ≠ clippFormatUtf8 := by
      rcases isImage_iff.mp isImage with rfl | rfl <;> decide
    rw [if_neg other]

theorem logicalText_terminated (text : Bytes) : logicalText (text ++ [0]) = text := by
  rw [logicalText, if_pos List.getLast?_concat, List.dropLast_concat]

theorem Canonical.offered (canonical : Canonical formatId bytes) (markPrivate : Bool) :
    registerContent markPrivate formatId bytes = some (savedValue formatId bytes, savedFlags markPrivate formatId) := by
  unfold registerContent savedValue savedFlags
  cases canonical with
  | text text settled => rfl
  | image formatId bytes isImage => simp [image_not_text isImage, isImage]

section Content

theorem setUncompressedBytes_hashAlg (made : setUncompressedBytes C base raw = some built) : built.meta_.hashAlg = 1 := by
  unfold setUncompressedBytes at made
  dsimp only at made
  split at made
  · cases made
    rfl
  · split at made <;> cases made
    rfl

theorem plain_within (cameIn : CameIn C p) (isText : isClippTextFormat p.meta_.formatId = true)
    (plain : p.meta_.isCompressed = 0) : p.encoded.length ≤ kMaxDecompressedClipboardBytes := by
  cases cameIn with
  | decoded consistent addressable =>
    have within := consistent.uncompressedSize
    rw [← consistent.plain plain, consistent.payloadSize, UInt64.toNat_ofNat', Nat.mod_eq_of_lt addressable] at within
    exact within
  | captured base raw built made stamped =>
    have format := (setUncompressedBytes_built made).format
    rw [stamped.encoded]
    rw [stamped.compressed] at plain
    have utf8 : base.meta_.formatId = clippFormatUtf8 := by
      rw [← format, ← stamped.format]
      exact of_decide_eq_true isText
    unfold setUncompressedBytes at made
    dsimp only at made
    split at made
    case isTrue small =>
      cases made
      simp only [worthCompressing, utf8, and_true, Bool.not_eq_true', decide_eq_false_iff_not, not_le] at small
      have room : 512 ≤ kMaxDecompressedClipboardBytes := by decide
      simp only [utf8]
      omega
    case isFalse worth =>
      split at made <;> cases made
      cases plain

theorem packed_within (packed : p.meta_.isCompressed ≠ 0) (content : tryGetUncompressedBytes C p = some bytes) :
    bytes.length ≤ kMaxDecompressedClipboardBytes := by
  unfold tryGetUncompressedBytes at content
  rw [if_neg packed] at content
  dsimp only at content
  split_ifs at content with large
  split at content
  · cases content
  · split_ifs at content
    split at content
    · cases content
    · split_ifs at content with sized
      cases content
      rw [not_not.mp sized]
      exact not_lt.mp large

theorem CanonicalItem.within (item : CanonicalItem C p bytes) (isText : isClippTextFormat p.meta_.formatId = true) :
    bytes.length ≤ kMaxDecompressedClipboardBytes := by
  by_cases plain : p.meta_.isCompressed = 0
  · have content := item.hasContent.content
    rw [tryGet_uncompressed plain] at content
    cases content
    exact plain_within item.cameIn isText plain
  · exact packed_within plain item.hasContent.content

theorem setUncompressedBytes_some (packs : Codec.Packs C) (base : ClipboardPayload) (raw : Bytes) :
    ∃ built, setUncompressedBytes C base raw = some built := by
  unfold setUncompressedBytes
  dsimp only
  split_ifs
  · exact ⟨_, rfl⟩
  · obtain ⟨packed, made⟩ := packs (canonicalBytes base.meta_.formatId raw)
    rw [made]
    exact ⟨_, rfl⟩

theorem built_hasContent (correct : Codec.Correct C) (made : setUncompressedBytes C base bytes = some built)
    (fixed : canonicalBytes base.meta_.formatId bytes = bytes)
    (small : isClippTextFormat base.meta_.formatId = true → bytes.length ≤ kMaxDecompressedClipboardBytes) :
    HasContent C built bytes := by
  have b := setUncompressedBytes_built made
  refine ⟨?_, setUncompressedBytes_hashAlg made, by rw [b.hash, b.format, fixed]⟩
  by_cases isText : isClippTextFormat base.meta_.formatId = true
  · have room := small isText
    rw [← fixed] at room
    rw [tryGet_built correct b room, fixed]
  · have plain : worthCompressing base.meta_.formatId (canonicalBytes base.meta_.formatId bytes) = false := by
      have other : base.meta_.formatId ≠ clippFormatUtf8 := fun utf8 => isText (decide_eq_true utf8)
      simp [worthCompressing, other]
    unfold setUncompressedBytes at made
    simp only [plain, Bool.not_false, if_true, Option.some.injEq] at made
    subst made
    rw [tryGet_uncompressed rfl, fixed]

theorem HasContent.restamped (has : HasContent C p bytes) (same : Restamped p q)
    (hashAlg : q.meta_.hashAlg = p.meta_.hashAlg) : HasContent C q bytes :=
  ⟨same.tryGet.trans has.content, hashAlg.trans has.hashAlg, by rw [same.hash, has.hash, same.format]⟩

end Content

section Register

theorem getForBroadcast_held (s : RegisterStore) (now : UInt64) (name : Bytes) :
    heldIn (s.getForBroadcast now name).store name = heldIn s name ∨
      heldIn (s.getForBroadcast now name).store name = none := by
  unfold RegisterStore.getForBroadcast
  split
  · exact .inl rfl
  · split_ifs
    · right
      unfold heldIn
      rw [KeyedMap.find_erase, if_pos rfl]
      rfl
    · exact .inl rfl

theorem living_holds (living : Living s t name) (held : heldIn s name = some (value, flags)) :
    ∃ r, unexpired s t.expiry name = some r ∧ r.isTombstone = false ∧ r.value = value ∧ r.flags = flags := by
  obtain ⟨r, found, alive⟩ := living
  rw [heldIn_of_value (unexpired_eq_some.mp found).1 alive, Option.some.injEq, holdingOf, Prod.mk.injEq] at held
  exact ⟨r, found, alive, held⟩

theorem savedFlags_binary (markPrivate : Bool) (formatId : UInt32) :
    (savedFlags markPrivate formatId &&& ~~~RegisterFlags.tombstone) &&& RegisterFlags.binaryHeader =
      if isClippTextFormat formatId then 0 else RegisterFlags.binaryHeader := by
  unfold savedFlags
  cases isClippTextFormat formatId <;> cases markPrivate <;> decide

theorem saved_shareable (canonical : Canonical formatId bytes) (value : r.value = savedValue formatId bytes)
    (flags : r.flags = savedFlags markPrivate formatId &&& ~~~RegisterFlags.tombstone) :
    shareable r = some (formatId, bytes) := by
  have binary : r.isBinary = !isClippTextFormat formatId := by
    rw [RegisterRecord.isBinary, flags, savedFlags_binary]
    cases isClippTextFormat formatId <;> decide
  unfold shareable
  rw [binary, value, savedValue]
  cases canonical with
  | text text settled =>
    rw [show isClippTextFormat clippFormatUtf8 = true from rfl]
    simp only [Bool.not_true, Bool.false_eq_true, if_false, if_true, logicalText_terminated]
  | image formatId bytes isImage =>
    rw [image_not_text isImage]
    simp only [Bool.not_false, if_true, Bool.false_eq_true, if_false, encodeBinaryValue_parsed, Option.map_some,
      encodeBinaryValue_drop]

end Register

section Verbs

theorem save_eq (stored : d.activity.payloadReference itemID = some p) (item : CanonicalItem C p bytes)
    (nonempty : bytes ≠ []) (markPrivate : Bool) :
    d.saveActivityItemAsRegister C t now itemID name markPrivate =
      let wrote := d.registers.upsertWithFlags t name (savedValue p.meta_.formatId bytes)
        (savedFlags markPrivate p.meta_.formatId) d.localHost
      if wrote.result = .ok then
        let told := broadcastRegisterRecord wrote.store now name
        (true, { d with registers := told.1, undoSlot := .none, sent := d.sent ++ told.2 })
      else (false, { d with registers := wrote.store }) := by
  have some_ : bytes.isEmpty = false := by simpa using nonempty
  simp only [Sharer.saveActivityItemAsRegister, stored, item.hasContent.content, some_, Bool.false_eq_true, if_false,
    item.canonical.offered markPrivate]

theorem save_iff (stored : d.activity.payloadReference itemID = some p) (item : CanonicalItem C p bytes) :
    (d.saveActivityItemAsRegister C t now itemID name markPrivate).1 = true ↔
      bytes ≠ [] ∧ Admitted d.registers t name (savedValue p.meta_.formatId bytes) := by
  by_cases nonempty : bytes = []
  · simp [Sharer.saveActivityItemAsRegister, stored, item.hasContent.content, nonempty]
  · rw [save_eq stored item nonempty, upsertWithFlags_eq, ← verdict_iff]
    dsimp only
    split_ifs with accepted
    · simp [nonempty, accepted]
    · simp [accepted]

theorem save_held (stored : d.activity.payloadReference itemID = some p) (item : CanonicalItem C p bytes)
    (saved : (d.saveActivityItemAsRegister C t now itemID name markPrivate).1 = true) :
    let held := heldIn (d.saveActivityItemAsRegister C t now itemID name markPrivate).2.registers name
    held = some (savedValue p.meta_.formatId bytes,
      savedFlags markPrivate p.meta_.formatId &&& ~~~RegisterFlags.tombstone) ∨ held = none := by
  obtain ⟨nonempty, admitted⟩ := (save_iff stored item).mp saved
  have accepted : (d.registers.upsertWithFlags t name (savedValue p.meta_.formatId bytes)
      (savedFlags markPrivate p.meta_.formatId) d.localHost).result = .ok := by
    rw [upsertWithFlags_eq]
    exact verdict_iff.mpr admitted
  rw [save_eq stored item nonempty]
  dsimp only
  rw [if_pos accepted]
  have written := upsert_held (savedFlags markPrivate p.meta_.formatId) d.localHost admitted
  rcases getForBroadcast_held _ now name with kept | dropped
  · exact .inl (kept.trans written)
  · exact .inr dropped

theorem currentItem_hashAlg (stamp : OriginStamp) (r : RegisterRecord) (built : ClipboardPayload) :
    (currentItem stamp r built).meta_.hashAlg = built.meta_.hashAlg := by
  unfold currentItem
  split_ifs <;> rfl

theorem makeCurrent_of_shareable (correct : Codec.Correct C) (packs : Codec.Packs C)
    (found : unexpired d.registers t.expiry name = some r) (alive : r.isTombstone = false)
    (offered : shareable r = some (formatId, bytes)) (fixed : canonicalBytes formatId bytes = bytes)
    (small : isClippTextFormat formatId = true → bytes.length ≤ kMaxDecompressedClipboardBytes) :
    ∃ q, (d.makeRegisterCurrent C render t stamp occasion name).1 = true ∧
      (d.makeRegisterCurrent C render t stamp occasion name).2.sent = d.sent ++ [.clipboard q] ∧
      q.meta_.formatId = formatId ∧ HasContent C q bytes := by
  obtain ⟨built, made⟩ := setUncompressedBytes_some packs (blankItem formatId) bytes
  have buildable : buildItem C r = some built := by
    rw [buildItem_eq, offered]
    exact made
  let origin : OriginStamp := { stamp with originHostId := d.localHost }
  have current : (ClippModel.Gateway.makeRegisterCurrent C origin d.registers t name).1 =
      some (currentItem origin r built) := by
    rw [makeRegisterCurrent_live found alive, buildable]
    rfl
  have same := restamped_currentItem origin r built
  have format : built.meta_.formatId = formatId := (setUncompressedBytes_built made).format
  have content : HasContent C built bytes := built_hasContent correct made fixed small
  have verb : d.makeRegisterCurrent C render t stamp occasion name =
      (true, { ({ d with registers := (ClippModel.Gateway.makeRegisterCurrent C origin d.registers t name).2 } :
        Sharer β).applyAndBroadcastPayload C render occasion (currentItem origin r built) with undoSlot := .none }) := by
    simp only [Sharer.makeRegisterCurrent]
    rw [current]
  rw [verb]
  exact ⟨currentItem origin r built, rfl, rfl, same.format.trans format,
    content.restamped same (currentItem_hashAlg origin r built)⟩

end Verbs

/-- What was saved comes back when the register is made current, whatever else was done to the store meanwhile. -/
theorem saved_item_comes_back (render : ClipboardPayload → Option β) (t : Readings) (now : UInt64) (name : Bytes)
    (markPrivate : Bool) (correct : Codec.Correct C) (packs : Codec.Packs C)
    (stored : d.activity.payloadReference itemID = some p) (item : CanonicalItem C p bytes) :
    HeadersInvert ∧
    ((d.saveActivityItemAsRegister C t now itemID name markPrivate).1 = true ↔
      bytes ≠ [] ∧ Admitted d.registers t name (savedValue p.meta_.formatId bytes)) ∧
    ((d.saveActivityItemAsRegister C t now itemID name markPrivate).1 = true →
      ∀ (later : Sharer β) (u : Readings) (stamp : OriginStamp) (occasion : Occasion),
        heldIn later.registers name =
          heldIn (d.saveActivityItemAsRegister C t now itemID name markPrivate).2.registers name →
        Living later.registers u name →
        ∃ q, (later.makeRegisterCurrent C render u stamp occasion name).1 = true ∧
          (later.makeRegisterCurrent C render u stamp occasion name).2.sent = later.sent ++ [.clipboard q] ∧
          q.meta_.formatId = p.meta_.formatId ∧ tryGetUncompressedBytes C q = some bytes ∧
          q.meta_.hashAlg = p.meta_.hashAlg ∧ q.meta_.hashBytes = p.meta_.hashBytes) := by
  refine ⟨headers_invert, save_iff stored item, fun saved later u stamp occasion kept living => ?_⟩
  have held : heldIn later.registers name = some (savedValue p.meta_.formatId bytes,
      savedFlags markPrivate p.meta_.formatId &&& ~~~RegisterFlags.tombstone) := by
    rcases save_held stored item saved with written | dropped
    · exact kept.trans written
    · have present := living_held living
      rw [kept, dropped] at present
      cases present
  obtain ⟨r, found, alive, value, flags⟩ := living_holds living held
  obtain ⟨q, made, sent, format, content⟩ := makeCurrent_of_shareable correct packs found alive
    (saved_shareable item.canonical value flags) item.canonical.fixed item.within
  refine ⟨q, made, sent, format, content.content, ?_, ?_⟩
  · rw [content.hashAlg, item.hasContent.hashAlg]
  · rw [content.hash, item.hasContent.hash, format]

namespace SavedText

open Redelivery

def device : Sharer Bytes where
  activity := { items := [{ header := { id := 1, timestamp := 0 }, payload := text 0x61 1 }], nextItemID := 2 }
  guard := {}
  clipboard := none
  registers := RegisterStore.create HostId.zero 1 8 8
  undoSlot := .none
  localHost := HostId.zero
  sent := []

def again : OriginStamp where
  originHostId := HostId.zero
  originHostName := zeroBytes 128
  eventGuid := zeroBytes 16
  originSequenceNumber := 1
  timestamp := 2

def onTime : Occasion where
  clock := { added := 0, limited := 0 }
  access := .taken
  readings := .all 0

def savedOnce : Bool × Sharer Bytes := device.saveActivityItemAsRegister codec (.all 0) 0 1 [0x6E] true

theorem codec_packs : Codec.Packs codec := by
  intro plain
  show ∃ packed, runLength.compress plain = some packed
  unfold runLength
  dsimp only
  split_ifs
  · exact ⟨_, rfl⟩
  · exact ⟨_, rfl⟩

theorem text_canonical : CanonicalItem codec (text 0x61 1) [0x61, 0] where
  hasContent := ⟨by decide +kernel, by decide +kernel, by decide +kernel⟩
  cameIn := .captured utf8Item [0x61, 0] ((setUncompressedBytes codec utf8Item [0x61, 0]).getD utf8Item)
    (by decide +kernel) (restamped_stampOrigin _ _)
  canonical := .text [0x61] (by decide)

end SavedText

open Redelivery SavedText in
theorem saved_text_comes_back : ∃ q,
    (savedOnce.2.makeRegisterCurrent codec asText (.all 0) again onTime [0x6E]).2.sent =
      savedOnce.2.sent ++ [.clipboard q] ∧ tryGetUncompressedBytes codec q = some [0x61, 0] := by
  have correct : Codec.Correct codec := ⟨runLength_correct.sized, runLength_correct.unpacks⟩
  have back := saved_item_comes_back asText (.all 0) 0 [0x6E] true correct codec_packs
    (show device.activity.payloadReference 1 = some (text 0x61 1) from rfl) text_canonical
  have living : Living savedOnce.2.registers (.all 0) [0x6E] := currentlyLiveValue_iff.mp (by decide +kernel)
  obtain ⟨q, _, sent, _, content, _⟩ := back.2.2 (by decide +kernel) savedOnce.2 (.all 0) again onTime rfl living
  exact ⟨q, sent, content⟩

end ClippProof.Clipboard
