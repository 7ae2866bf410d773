import Clipp.Clipboard.Activity
import Clipp.Clipboard.Sharing
import Clipp.Foundation.Text
import Clipp.Platform.WideConversion

open Foundation

namespace ClippModel.Clipboard

open ClippModel.Platform ClippModel.Persistence ClippModel.Registers

variable {U : Type} [DecidableEq U]

def kMaxTextPreviewCharacters : Nat := 640

/-- `wchar_t` with the locale's classification of it, the local host and the setting that masks short texts. -/
structure DisplaySettings (U : Type) where
  wide : WideChar U
  iswspace : U → Bool
  towlower : U → U
  localHostId : HostId
  maskShortTextPreviews : Bool

inductive ClipboardActivityDirection where
  | incoming
  | outgoing
  deriving DecidableEq

inductive ClipboardActivityPayloadKind where
  | unsupported
  | text
  | privateText
  | privatePlaceholder
  | link
  | image
  deriving DecidableEq

/-- The event time is counted in milliseconds here. -/
structure ClipboardActivityDisplayItem (U : Type) where
  header : ClipboardActivityItemHeader
  eventTimestamp : UInt64
  direction : ClipboardActivityDirection := .incoming
  deviceName : List U := []
  kind : ClipboardActivityPayloadKind := .unsupported
  sourceMarked : Bool := false
  previewText : List U := []
  revealedPreviewText : List U := []
  detailText : List U := []
  linkHost : List U := []
  imageFormatId : UInt32 := clippFormatNone
  imageData : Option Bytes := none
  deriving DecidableEq

namespace DisplaySettings

variable (D : DisplaySettings U)

def literal (D : DisplaySettings U) (text : String) : List U := text.toList.map fun c => D.wide.ofCode c.val

def TrimCopy (text : List U) : List U := ((text.dropWhile D.iswspace).reverse.dropWhile D.iswspace).reverse

def StartsWithInsensitive (text front : List U) : Bool :=
  front.length ≤ text.length ∧ (text.take front.length).map D.towlower = front.map D.towlower

def HasWhitespace (text : List U) : Bool := text.any D.iswspace

def LooksPrivateText (text : List U) : Bool := text ≠ [] ∧ text.length ≤ 256 ∧ D.HasWhitespace text = false

def LooksLikeUrl (text : List U) : Bool :=
  (D.StartsWithInsensitive text (D.literal "http://") ∨ D.StartsWithInsensitive text (D.literal "https://")) ∧
    D.HasWhitespace text = false

def behind (separator : List U) : List U → Option (List U)
  | [] => if separator = [] then some [] else none
  | u :: rest => if separator <+: u :: rest then some ((u :: rest).drop separator.length) else behind separator rest

def ExtractUrlHost (url : List U) : List U :=
  match behind (D.literal "://") url with
  | none => []
  | some rest =>
    let host := rest.takeWhile fun u => u ∉ D.literal "/?#"
    (host.reverse.takeWhile fun u => u ∉ D.literal "@").reverse

def PreviewText (text : List U) : List U :=
  if text.length ≤ kMaxTextPreviewCharacters then text else text.take kMaxTextPreviewCharacters ++ D.literal "..."

def TextFromPayload (C : Codec) (payload : ClipboardPayload) : Option (List U) :=
  if payload.meta_.formatId ≠ clippFormatUtf8 then none
  else
    match payload.tryGetUncompressedBytes C with
    | none => none
    | some bytes => some (utf8ToUtf16String D.wide (bytes.reverse.dropWhile (· = 0)).reverse)

def datedItem (header : ClipboardActivityItemHeader) (payload : ClipboardPayload) : ClipboardActivityDisplayItem U :=
  let here := payload.meta_.originHostId = D.localHostId
  { header := header
    eventTimestamp := payload.meta_.timestamp
    direction := if here then .outgoing else .incoming
    deviceName :=
      if here then D.literal "This device" else utf8ToUtf16String D.wide (upTo 0 payload.meta_.originHostName.val) }

def BuildDisplayItem (C : Codec) (header : ClipboardActivityItemHeader) (payload : Option ClipboardPayload) :
    Option (ClipboardActivityDisplayItem U) :=
  match payload with
  | none => none
  | some payload =>
    let display := D.datedItem header payload
    let sourceMarkedPrivate := payload.isSourceMarkedPrivate
    if sourceMarkedPrivate ∧ payload.encoded = [] then
      some { display with kind := .privatePlaceholder, sourceMarked := true }
    else if isClippImageFormat payload.meta_.formatId then
      some { display with kind := .image, imageFormatId := payload.meta_.formatId, imageData := some payload.encoded }
    else if payload.meta_.formatId = clippFormatUtf8 then
      match D.TextFromPayload C payload with
      | none => none
      | some text =>
        let detailed := { display with detailText := text }
        let trimmed := D.TrimCopy text
        if sourceMarkedPrivate then
          some { detailed with
            kind := .privateText
            sourceMarked := true
            previewText := D.literal "••••••••"
            revealedPreviewText := D.PreviewText trimmed }
        else if D.LooksLikeUrl trimmed then
          some { detailed with
            kind := .link, previewText := D.PreviewText trimmed, linkHost := D.ExtractUrlHost trimmed }
        else if D.maskShortTextPreviews ∧ D.LooksPrivateText trimmed then
          some { detailed with
            kind := .privateText
            previewText := D.literal "••••••••"
            revealedPreviewText := D.PreviewText trimmed }
        else some { detailed with kind := .text, previewText := D.PreviewText trimmed }
    else some { display with kind := .unsupported }

end DisplaySettings

/-- What an activity list shows of an item before anything is revealed: all but the detail and the revealed preview. -/
structure ShownItem (U : Type) where
  header : ClipboardActivityItemHeader
  eventTimestamp : UInt64
  direction : ClipboardActivityDirection
  deviceName : List U
  kind : ClipboardActivityPayloadKind
  sourceMarked : Bool
  previewText : List U
  linkHost : List U
  imageFormatId : UInt32
  imageData : Option Bytes

def ClipboardActivityDisplayItem.shown (item : ClipboardActivityDisplayItem U) : ShownItem U where
  header := item.header
  eventTimestamp := item.eventTimestamp
  direction := item.direction
  deviceName := item.deviceName
  kind := item.kind
  sourceMarked := item.sourceMarked
  previewText := item.previewText
  linkHost := item.linkHost
  imageFormatId := item.imageFormatId
  imageData := item.imageData

/-- The list shows the two payloads alike, in items with one header. -/
def ShownAlike (D : DisplaySettings U) (C : Codec) (p q : ClipboardPayload) : Prop :=
  ∀ header, (D.BuildDisplayItem C header (some p)).map ClipboardActivityDisplayItem.shown =
    (D.BuildDisplayItem C header (some q)).map ClipboardActivityDisplayItem.shown

end ClippModel.Clipboard

namespace ClippProof.Clipboard

open ClippModel.Platform ClippModel.Persistence ClippModel.Registers ClippModel.Clipboard ClippModel.Clipboard.ClipboardPayload
  ClippModel.Clipboard.DisplaySettings

variable {U : Type} {D : DisplaySettings U} {C : Codec} {p q : ClipboardPayload} {header : ClipboardActivityItemHeader}

/-- What the list makes of a payload that is marked private. -/
inductive MarkedFace where
  | placeholder
  | image (bytes : Bytes)
  | maskedText
  | unreadable
  | unsupported

def markedFace (C : Codec) (p : ClipboardPayload) : MarkedFace :=
  if p.encoded = [] then .placeholder
  else if isClippImageFormat p.meta_.formatId then .image p.encoded
  else if p.meta_.formatId = clippFormatUtf8 then
    if (tryGetUncompressedBytes C p).isSome then .maskedText else .unreadable
  else .unsupported

def faceShown (D : DisplaySettings U) (display : ClipboardActivityDisplayItem U) (formatId : UInt32) :
    MarkedFace → Option (ShownItem U)
  | .placeholder =>
    some { display with kind := .privatePlaceholder, sourceMarked := true : ClipboardActivityDisplayItem U }.shown
  | .image bytes => some { display with
      kind := .image, imageFormatId := formatId, imageData := some bytes : ClipboardActivityDisplayItem U }.shown
  | .maskedText => some { display with
      kind := .privateText, sourceMarked := true,
      previewText := D.literal "••••••••" : ClipboardActivityDisplayItem U }.shown
  | .unreadable => none
  | .unsupported => some { display with kind := .unsupported : ClipboardActivityDisplayItem U }.shown

theorem faceShown_injective {display : ClipboardActivityDisplayItem U} {formatId : UInt32} {a b : MarkedFace}
    (alike : faceShown D display formatId a = faceShown D display formatId b) : a = b := by
  have kinds := congrArg (Option.map ShownItem.kind) alike
  have bytes := congrArg (Option.map ShownItem.imageData) alike
  cases a <;> cases b <;> simp_all [faceShown, ClipboardActivityDisplayItem.shown]

variable [DecidableEq U]

theorem shown_marked (marked : p.isSourceMarkedPrivate = true) :
    (D.BuildDisplayItem C header (some p)).map ClipboardActivityDisplayItem.shown =
      faceShown D (D.datedItem header p) p.meta_.formatId (markedFace C p) := by
  rw [BuildDisplayItem.eq_def, markedFace]
  simp only [marked, true_and, if_true]
  by_cases empty : p.encoded = []
  · simp only [if_pos empty, Option.map_some, faceShown]
  · simp only [if_neg empty]
    by_cases image : isClippImageFormat p.meta_.formatId = true
    · simp only [if_pos image, Option.map_some, faceShown]
    · simp only [if_neg image]
      by_cases text : p.meta_.formatId = clippFormatUtf8
      · have read : D.TextFromPayload C p =
            (tryGetUncompressedBytes C p).map fun bytes =>
              utf8ToUtf16String D.wide (bytes.reverse.dropWhile (· = 0)).reverse := by
          rw [TextFromPayload, if_neg (not_not.mpr text)]
          cases tryGetUncompressedBytes C p <;> rfl
        simp only [if_pos text, read]
        cases tryGetUncompressedBytes C p <;> rfl
      · simp only [if_neg text, Option.map_some, faceShown]

theorem markedFace_eq_iff (same : q.meta_ = p.meta_) : markedFace C p = markedFace C q ↔
    (p.encoded = [] ↔ q.encoded = []) ∧ (isClippImageFormat p.meta_.formatId = true → p.encoded = q.encoded) ∧
      (p.meta_.formatId = clippFormatUtf8 → p.encoded ≠ [] →
        (tryGetUncompressedBytes C p).isSome = (tryGetUncompressedBytes C q).isSome) := by
  have notBoth : isClippImageFormat p.meta_.formatId = true → p.meta_.formatId ≠ clippFormatUtf8 := by
    intro image text
    rw [text] at image
    exact absurd image (by decide)
  unfold markedFace
  rw [same]
  by_cases emptyP : p.encoded = []
  · by_cases emptyQ : q.encoded = []
    · simp [emptyP, emptyQ]
    · simp only [if_pos emptyP, if_neg emptyQ]
      apply iff_of_false _ (fun alike => emptyQ (alike.1.mp emptyP))
      split_ifs <;> simp
  · by_cases emptyQ : q.encoded = []
    · simp only [if_neg emptyP, if_pos emptyQ]
      apply iff_of_false _ (fun alike => emptyP (alike.1.mpr emptyQ))
      split_ifs <;> simp
    · simp only [if_neg emptyP, if_neg emptyQ]
      by_cases image : isClippImageFormat p.meta_.formatId = true
      · simp [image, notBoth image, emptyP, emptyQ]
      · by_cases text : p.meta_.formatId = clippFormatUtf8
        · have readable : ((p.encoded = [] ↔ q.encoded = []) ∧
              (isClippImageFormat p.meta_.formatId = true → p.encoded = q.encoded) ∧
              (p.meta_.formatId = clippFormatUtf8 → p.encoded ≠ [] →
                (tryGetUncompressedBytes C p).isSome = (tryGetUncompressedBytes C q).isSome)) ↔
              (tryGetUncompressedBytes C p).isSome = (tryGetUncompressedBytes C q).isSome := by
            constructor
            · intro alike
              exact alike.2.2 text emptyP
            · intro both
              exact ⟨iff_of_false emptyP emptyQ, fun shown => absurd shown image, fun _ _ => both⟩
          rw [readable, if_neg image, if_pos text, if_neg image, if_pos text]
          cases (tryGetUncompressedBytes C p).isSome <;> cases (tryGetUncompressedBytes C q).isSome <;> simp
        · simp [image, text, emptyP, emptyQ]

/-- The list shows two marked payloads of one metadata alike if and only if both or neither is empty, images have the
same bytes, and texts can be read in both or in neither. -/
theorem marked_shown_alike_iff (D : DisplaySettings U) (C : Codec) (marked : p.isSourceMarkedPrivate = true)
    (same : q.meta_ = p.meta_) :
    ShownAlike D C p q ↔ (p.encoded = [] ↔ q.encoded = []) ∧
      (isClippImageFormat p.meta_.formatId = true → p.encoded = q.encoded) ∧
      (p.meta_.formatId = clippFormatUtf8 → p.encoded ≠ [] →
        (tryGetUncompressedBytes C p).isSome = (tryGetUncompressedBytes C q).isSome) := by
  have markedToo : q.isSourceMarkedPrivate = true := by rwa [isSourceMarkedPrivate, same]
  have dated : ∀ header, D.datedItem header q = D.datedItem header p := by
    intro header
    simp only [datedItem, same]
  rw [← markedFace_eq_iff same, ShownAlike]
  simp only [shown_marked marked, shown_marked markedToo, dated, same]
  constructor
  · intro every
    exact faceShown_injective (every ⟨0, 0⟩)
  · intro face header
    rw [face]

def privateImage (content : UInt8) : ClipboardPayload where
  meta_ := { ClipboardMessage.zero with
    flags := clpmFlagSourceMarkedPrivate, formatId := clippFormatPng, payloadDataSize := 1, uncompressedDataSize := 1 }
  encoded := [content]

def plainSettings : DisplaySettings UInt16 where
  wide := wchar16
  iswspace := fun u => u = 0x20
  towlower := id
  localHostId := HostId.zero
  maskShortTextPreviews := false

def storedCodec : Codec where
  compress := fun _ => none
  frameContentSize := fun _ => none
  decompress := fun _ _ => none
  hash128 := fun _ _ => zeroBytes 16

theorem marked_images_compared : ShownAlike plainSettings storedCodec (privateImage 1) (privateImage 2) ↔
    ((privateImage 1).encoded = [] ↔ (privateImage 2).encoded = []) ∧
      (isClippImageFormat (privateImage 1).meta_.formatId = true → (privateImage 1).encoded = (privateImage 2).encoded) ∧
      ((privateImage 1).meta_.formatId = clippFormatUtf8 → (privateImage 1).encoded ≠ [] →
        (tryGetUncompressedBytes storedCodec (privateImage 1)).isSome =
          (tryGetUncompressedBytes storedCodec (privateImage 2)).isSome) :=
  marked_shown_alike_iff plainSettings storedCodec (by decide) rfl

/-- Two marked images that differ in their bytes are shown as they are. -/
theorem private_images_shown : ¬ ∀ p q : ClipboardPayload, p.isSourceMarkedPrivate = true → q.meta_ = p.meta_ →
    ShownAlike plainSettings storedCodec p q := by
  intro every
  have alike := every (privateImage 1) (privateImage 2) (by decide) rfl ⟨0, 0⟩
  have bytes := congrArg (Option.map ShownItem.imageData) alike
  revert bytes
  decide +kernel

end ClippProof.Clipboard
