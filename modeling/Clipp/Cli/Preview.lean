import Clipp.Cli.MapReport
import Clipp.Gateway.Listing
import Clipp.Platform.Utf8Text

open Foundation

namespace ClippProof.Cli

open ClippModel.Registers ClippModel.Platform ClippModel.Gateway ClippModel.Cli ClippProof.Platform

variable {preview value : Bytes} {chars : List Char}

theorem scrub_length (bytes : Bytes) : (scrub bytes).length = bytes.length := List.length_map _

theorem scrub_append (front back : Bytes) : scrub (front ++ back) = scrub front ++ scrub back := List.map_append

def dotted (c : Char) : Char := if c.val < 0x20 ∨ c.val = 0x7F then '.' else c

theorem dotted_val (c : Char) : (dotted c).val = scrubUnit c.val := by
  unfold dotted scrubUnit
  split_ifs <;> rfl

theorem scrub_encodeChar (c : Char) : scrub (encodeChar c) = encodeChar (dotted c) := by
  have scrubbed := append_scrubUnit (append_char c)
  rw [← dotted_val, append_char] at scrubbed
  exact (Option.some.inj scrubbed).symm

theorem scrub_text (chars : List Char) : scrub (utf8.text chars) = utf8.text (chars.map dotted) := by
  induction chars with
  | nil => rfl
  | cons c chars ih =>
    rw [CharacterCode.text_cons, scrub_append, ih, utf8_encode, scrub_encodeChar, List.map_cons, CharacterCode.text_cons,
      utf8_encode]

theorem scrub_byte (b : UInt8) : scrub [b] = [b] ∨ (b < 0x80 ∧ scrub [b] = [0x2E]) :=
  byte_of_each (P := fun b => scrub [b] = [b] ∨ (b < 0x80 ∧ scrub [b] = [0x2E])) (by decide +kernel) b

theorem scrub_of_high {bytes : Bytes} (high : ∀ b ∈ scrub bytes, 0x80 ≤ b) : scrub bytes = bytes := by
  induction bytes with
  | nil => rfl
  | cons b bytes ih =>
    have split : scrub (b :: bytes) = scrub [b] ++ scrub bytes := scrub_append [b] bytes
    rw [split] at high ⊢
    rw [ih fun x member => high x (List.mem_append_right _ member)]
    rcases scrub_byte b with same | ⟨_, dot⟩
    · rw [same]
      rfl
    · have bound := high 0x2E (List.mem_append_left _ (dot ▸ List.mem_singleton_self _))
      exact absurd bound (by decide)

theorem char_of_ascii {b : UInt8} (low : b < 0x80) : ∃ c : Char, encodeChar c = [b] := by
  obtain ⟨c, _, encoded⟩ := char_of_append (append_ascii b low)
  exact ⟨c, encoded⟩

theorem encodeChar_of_scrub {bytes : Bytes} {c : Char} (scrubbed : scrub bytes = encodeChar c) :
    ∃ d : Char, bytes = encodeChar d := by
  by_cases small : c.val ≤ 0x7F
  · rw [encodeChar_ascii small] at scrubbed
    obtain ⟨b, rfl⟩ : ∃ b, bytes = [b] := List.length_eq_one_iff.mp (by
      rw [← scrub_length bytes, scrubbed, List.length_singleton])
    have low : b < 0x80 := by
      rcases scrub_byte b with same | ⟨low, _⟩
      · rw [same] at scrubbed
        rw [List.singleton_inj.mp scrubbed]
        exact of_small (P := fun y => y.toUInt8 < 0x80) 128 (by decide) c.val (Nat.lt_succ_of_le small)
      · exact low
    obtain ⟨d, encoded⟩ := char_of_ascii low
    exact ⟨d, encoded.symm⟩
  · have high := appendUtf8CodePoint_high small (append_char c)
    rw [← scrubbed] at high
    exact ⟨c, (scrub_of_high high).symm.trans scrubbed⟩

theorem scrub_wellFormed (preview : Bytes) : (∃ chars : List Char, scrub preview = utf8.text chars) ↔
    ∃ chars : List Char, preview = utf8.text chars := by
  constructor
  · intro written
    obtain ⟨chars, scrubbed⟩ := written
    induction chars generalizing preview with
    | nil => exact ⟨[], List.map_eq_nil_iff.mp scrubbed⟩
    | cons c chars ih =>
      obtain ⟨front, back, rfl, first, rest⟩ := List.map_eq_append_iff.mp scrubbed
      obtain ⟨d, rfl⟩ := encodeChar_of_scrub first
      obtain ⟨others, rfl⟩ := ih back rest
      exact ⟨d :: others, rfl⟩
  · intro written
    obtain ⟨chars, rfl⟩ := written
    exact ⟨chars.map dotted, scrub_text chars⟩

theorem sanitize_text (chars : List Char) :
    sanitizePreview posix (utf8.text chars) = chars.map fun c => scrubUnit c.val := by
  have wide : sanitizePreview posix (utf8.text chars) = posixUtf8ToWide (scrub (utf8.text chars)) := rfl
  rw [wide, scrub_text, posixUtf8ToWide_text, List.map_map]
  exact List.map_congr_left fun c _ => dotted_val c

theorem sanitize_malformed (malformed : ¬ ∃ chars : List Char, preview = utf8.text chars) :
    sanitizePreview posix preview = [] :=
  posixUtf8ToWide_malformed (mt (scrub_wellFormed preview).mp malformed)

theorem scrubUnit_control (unit : UInt32) : isControl (scrubUnit unit) ↔ unit ≥ 0x80 ∧ unit ≤ 0x9F := by
  unfold isControl scrubUnit
  by_cases plain : unit < 0x20 ∨ unit = 0x7F
  · rw [if_pos plain]
    refine iff_of_false (by decide) ?_
    intro upper
    have least : 0x80 ≤ unit.toNat := upper.1
    rcases plain with below | delete
    · have small : unit.toNat < 0x20 := below
      omega
    · rw [delete] at least
      exact absurd least (by decide)
  · rw [if_neg plain, ← or_assoc]
    exact or_iff_right plain

theorem append_upperControl : ∀ b : UInt8, 0x80 ≤ b ∧ b ≤ 0x9F → appendUtf8CodePoint b.toUInt32 = some [0xC2, b] :=
  byte_of_each (by decide +kernel)

theorem upperControl_byte {c : Char} (upper : c.val ≥ 0x80 ∧ c.val ≤ 0x9F) :
    ∃ b : UInt8, (0x80 ≤ b ∧ b ≤ 0x9F) ∧ encodeChar c = [0xC2, b] := by
  have small : c.val.toNat < 0xA0 := Nat.lt_succ_of_le upper.2
  obtain ⟨low, back⟩ := of_small (P := fun y => y ≥ 0x80 ∧ y ≤ 0x9F →
    (0x80 ≤ y.toUInt8 ∧ y.toUInt8 ≤ 0x9F) ∧ y.toUInt8.toUInt32 = y) 0xA0 (by decide +kernel) c.val small upper
  have appended := append_upperControl c.val.toUInt8 low
  rw [back, append_char] at appended
  exact ⟨_, low, Option.some.inj appended⟩

theorem byte_upperControl {b : UInt8} (upper : 0x80 ≤ b ∧ b ≤ 0x9F) :
    ∃ c : Char, (c.val ≥ 0x80 ∧ c.val ≤ 0x9F) ∧ encodeChar c = [0xC2, b] := by
  obtain ⟨c, value, encoded⟩ := char_of_append (append_upperControl b upper)
  have range := byte_of_each (P := fun b => 0x80 ≤ b ∧ b ≤ 0x9F → b.toUInt32 ≥ 0x80 ∧ b.toUInt32 ≤ 0x9F)
    (by decide +kernel) b upper
  rw [← value] at range
  exact ⟨c, range, encoded⟩

/-- A text has a control of the upper range just where its bytes have the lead of that range before one of
    its continuations. -/
theorem upperControl_mem_iff (chars : List Char) : (∃ c ∈ chars, c.val ≥ 0x80 ∧ c.val ≤ 0x9F) ↔
    ∃ b : UInt8, (0x80 ≤ b ∧ b ≤ 0x9F) ∧ [0xC2, b] <:+: utf8.text chars := by
  constructor
  · intro held
    obtain ⟨c, member, upper⟩ := held
    obtain ⟨b, range, encoded⟩ := upperControl_byte upper
    obtain ⟨front, back, rfl⟩ := List.append_of_mem member
    refine ⟨b, range, utf8.text front, utf8.text back, ?_⟩
    rw [CharacterCode.text_append, CharacterCode.text_cons, utf8_encode, encoded, List.append_assoc]
  · intro held
    obtain ⟨b, range, word⟩ := held
    obtain ⟨c, upper, encoded⟩ := byte_upperControl range
    rw [← encoded, ← utf8_encode] at word
    exact ⟨c, utf8.mem_of_infix word, upper⟩

/-- The scrub keeps controls from the terminal exactly where no control of the upper range is encoded. -/
theorem sanitized_clean_iff (preview : Bytes) : (∀ unit ∈ sanitizePreview posix preview, ¬ isControl unit) ↔
    (¬ ∃ chars : List Char, preview = utf8.text chars) ∨
      ∀ b : UInt8, 0x80 ≤ b ∧ b ≤ 0x9F → ¬ [0xC2, b] <:+: preview := by
  by_cases whole : ∃ chars : List Char, preview = utf8.text chars
  · obtain ⟨chars, rfl⟩ := whole
    have upper := upperControl_mem_iff chars
    rw [sanitize_text, or_iff_right (not_not.mpr ⟨chars, rfl⟩)]
    constructor
    · intro clean b range word
      obtain ⟨c, member, control⟩ := upper.mpr ⟨b, range, word⟩
      exact clean _ (List.mem_map_of_mem member) ((scrubUnit_control c.val).mpr control)
    · intro apart unit shown control
      obtain ⟨c, member, rfl⟩ := List.mem_map.mp shown
      obtain ⟨b, range, word⟩ := upper.mp ⟨c, member, (scrubUnit_control c.val).mp control⟩
      exact apart b range word
  · rw [sanitize_malformed whole]
    exact iff_of_true (fun unit shown => absurd shown List.not_mem_nil) (.inl whole)

/-- A device name that opens an escape sequence with its one-character introducer, U+009B. -/
theorem introducer_reaches_terminal :
    ¬ ∀ preview : Bytes, ∀ unit ∈ sanitizePreview posix preview, ¬ isControl unit := by
  intro clean
  have shown : sanitizePreview posix [0xC2, 0x9B, 0x33, 0x31, 0x6D] = [0x9B, 0x33, 0x31, 0x6D] := by decide
  have control := clean [0xC2, 0x9B, 0x33, 0x31, 0x6D] 0x9B (shown ▸ List.mem_cons_self)
  exact control (by decide)

section Listed

open ClippModel.Wire ClippModel.Wire.RegisterWire ClippModel.Wire.Peer ClippModel.Registers.RegisterStore
  ClippProof.Gateway ClippProof.Wire ClippProof.Registers

/-- The longest beginning of whole characters that the cap allows, its controls dotted; not empty unless
    the value is. -/
structure ShowsLongest (chars : List Char) (shown : List UInt32) : Prop where
  longest : ∃ kept, kept <+: chars ∧ (utf8.text kept).length ≤ kMaxPreviewLen ∧
    (∀ longer, longer <+: chars → (utf8.text longer).length ≤ kMaxPreviewLen → longer <+: kept) ∧
    shown = kept.map fun c => scrubUnit c.val
  nonempty : utf8.text chars ≠ [] → shown ≠ []

theorem fitting_ne_nil (some : chars ≠ []) : utf8.fitting kMaxPreviewLen chars ≠ [] := by
  cases chars with
  | nil => exact absurd rfl some
  | cons c chars =>
    have width : (utf8.encode c).length ≤ kMaxPreviewLen := (encodeChar_length c).trans (by decide)
    rw [CharacterCode.fitting, if_pos width]
    exact List.cons_ne_nil _ _

/-- The byte cut shows the longest beginning exactly where it falls between two characters. -/
theorem showsLongest_iff (chars : List Char) :
    ShowsLongest chars (sanitizePreview posix ((utf8.text chars).take kMaxPreviewLen)) ↔
      ∀ b, (utf8.text chars)[kMaxPreviewLen]? = some b → isContinuation b = false := by
  constructor
  · intro shows
    by_contra split
    have torn : ¬ ∃ kept : List Char, (utf8.text chars).take kMaxPreviewLen = utf8.text kept :=
      mt utf8.take_isText_iff.mp split
    have value : utf8.text chars ≠ [] := by
      intro empty
      rw [empty] at torn
      exact torn ⟨[], rfl⟩
    exact shows.nonempty value (sanitize_malformed torn)
  · intro boundary
    rw [utf8.take_text boundary, sanitize_text]
    constructor
    · exact ⟨_, utf8.fitting_prefix _ chars, utf8.fitting_length _ chars,
        fun longer front within => utf8.fitting_longest front within, rfl⟩
    · intro value empty
      have some : chars ≠ [] := mt utf8.text_eq_nil_iff.mpr value
      exact fitting_ne_nil some (List.map_eq_nil_iff.mp empty)

theorem listPreview_text {r : RegisterRecord} (shared : r.isPrivate = false) (text : r.isBinary = false) :
    listPreview r = r.value.take kMaxPreviewLen := by
  have cut : listPreview r = r.value.take (min r.value.length kMaxPreviewLen) := by
    rw [listPreview, shared, text]
    rfl
  rw [cut, min_comm, ← List.take_eq_take_min]

theorem shipped_preview (names : DisplayNames) {r : RegisterRecord} (shared : r.isPrivate = false)
    (text : r.isBinary = false) : (shipped (listEntry names r)).preview = r.value.take kMaxPreviewLen := by
  have cut : (shipped (listEntry names r)).preview = (listPreview r).take kMaxPreviewLen := rfl
  rw [cut, listPreview_text shared text, List.take_take, min_self]

/-- In every listing of a reachable store, the preview of a text register is the longest beginning that fits
    exactly where the byte behind the cut is no continuation. -/
theorem preview_longest_iff (localHost : HostId) (ttlMs : UInt64) (maxCount maxValueBytes : Nat) (floor : Hlc)
    (steps : List GatewayStep) (names : DisplayNames) (t : Readings) :
    ∃ entries, tryDecodeList (listResponse names
        (gatewayRun ((create localHost ttlMs maxCount maxValueBytes).seedClockFloor floor) steps) t) = some entries ∧
      entries.length = min kMaxDigestEntries (liveRecords
        (gatewayRun ((create localHost ttlMs maxCount maxValueBytes).seedClockFloor floor) steps) t).length ∧
      ∀ (i : Nat) (r : RegisterRecord) (e : RegisterListEntry),
        (liveRecords (gatewayRun ((create localHost ttlMs maxCount maxValueBytes).seedClockFloor floor)
          steps) t)[i]? = some r → entries[i]? = some e → e.name = r.name ∧
        (r.isPrivate = false → r.isBinary = false → ∀ chars : List Char, r.value = utf8.text chars →
          (ShowsLongest chars (sanitizePreview posix e.preview) ↔
            ∀ b, r.value[kMaxPreviewLen]? = some b → isContinuation b = false)) := by
  refine ⟨_, decoded_response (namesFit_run localHost ttlMs maxCount maxValueBytes floor steps), ?_, ?_⟩
  · rw [List.length_map, List.length_take]
  · intro i r e listed shown
    rw [List.getElem?_map, List.getElem?_take] at shown
    split_ifs at shown with early
    · rw [listed, Option.map_some, Option.some.injEq] at shown
      subst shown
      refine ⟨rfl, ?_⟩
      intro shared text chars value
      rw [shipped_preview names shared text, value]
      exact showsLongest_iff chars
    · cases shown

def textRegister (value : Bytes) : RegisterRecord :=
  writtenRecord [0x61] value 0 HostId.zero { wallMs := 1000, counter := 0 }

theorem textRegister_fresh (value : Bytes) : isExpired (textRegister value) 1000 kDefaultTtlMs = false := by
  have touched : (textRegister value).touched.wallMs = 1000 := rfl
  rw [Bool.eq_false_iff, Ne, isExpired_iff, touched]
  decide

theorem textRegister_listed (value : Bytes) (small : value.length ≤ kMaxValueLen) :
    liveRecords (gatewayRun (defaultStore HostId.zero {}) [received 1000 (textRegister value)]) (.all 1000) =
      [textRegister value] := by
  have valid : isValidRegisterName (textRegister value).name = true := by
    change isValidRegisterName [0x61] = true
    decide
  have step : gatewayRun (defaultStore HostId.zero {}) [received 1000 (textRegister value)] =
      ((defaultStore HostId.zero {}).applyRemote 1000 (textRegister value)).store :=
    handleRegw_replicated valid ⟨show 1 ≤ kMaxNameLen by decide, small⟩
  have fresh := textRegister_fresh value
  have records : (gatewayRun (defaultStore HostId.zero {}) [received 1000 (textRegister value)]).records.entries =
      [textRegister value] := by
    have named : ¬ (textRegister value).name.isEmpty = true := Bool.false_ne_true
    have ttl : (defaultStore HostId.zero {}).ttlMs = kDefaultTtlMs := rfl
    rw [step, RegisterStore.applyRemote, RegisterStore.applyRemoteLocked, if_neg named, ttl, fresh]
    rfl
  have ttl : (gatewayRun (defaultStore HostId.zero {}) [received 1000 (textRegister value)]).ttlMs = kDefaultTtlMs := by
    rw [step, ClippProof.Persistence.applyRemote_store_ttlMs]
    rfl
  have shared : (textRegister value).isTombstone = false := by
    have flags : (textRegister value).flags = 0 &&& ~~~RegisterFlags.tombstone := rfl
    rw [RegisterRecord.isTombstone, flags]
    decide
  rw [liveRecords, records, List.filter_cons, live, ttl, shared, Readings.all, fresh]
  rfl

theorem text_replicate {c : Char} {b : UInt8} (single : encodeChar c = [b]) (n : Nat) :
    utf8.text (List.replicate n c) = List.replicate n b := by
  induction n with
  | zero => rfl
  | succ n ih => rw [List.replicate_succ, CharacterCode.text_cons, ih, utf8_encode, single, List.replicate_succ,
      List.singleton_append]

/-- A two-byte character across the cut, and nothing of the value is shown. -/
theorem torn_preview_is_empty : ¬ ∀ (steps : List GatewayStep) (names : DisplayNames) (t : Readings)
    (entries : List RegisterListEntry), tryDecodeList (listResponse names
      (gatewayRun (defaultStore HostId.zero {}) steps) t) = some entries →
    ∀ (i : Nat) (r : RegisterRecord) (e : RegisterListEntry),
      (liveRecords (gatewayRun (defaultStore HostId.zero {}) steps) t)[i]? = some r → entries[i]? = some e →
      r.isPrivate = false → r.isBinary = false → ∀ chars : List Char, r.value = utf8.text chars →
        ShowsLongest chars (sanitizePreview posix e.preview) := by
  intro always
  have text : utf8.text (List.replicate 255 'a' ++ ['é']) = List.replicate 255 0x61 ++ [0xC3, 0xA9] := by
    rw [CharacterCode.text_append, text_replicate (b := 0x61) (by decide)]
    rfl
  have size : (utf8.text (List.replicate 255 'a' ++ ['é'])).length = 257 := by
    rw [text, List.length_append, List.length_replicate]
    rfl
  have listed := textRegister_listed (utf8.text (List.replicate 255 'a' ++ ['é'])) (by
    rw [size]
    decide)
  have fit := namesFit_run HostId.zero kDefaultTtlMs kDefaultMaxCount kDefaultMaxValueBytes {}
    [received 1000 (textRegister (utf8.text (List.replicate 255 'a' ++ ['é'])))]
  have shows := always _ unnamed (.all 1000) _ (decoded_response fit) 0 _ _ (by rw [listed]; rfl) (by
    rw [listed]
    rfl) rfl rfl _ rfl
  rw [shipped_preview unnamed rfl rfl] at shows
  have boundary := (showsLongest_iff _).mp shows 0xA9 (by
    have past : (List.replicate 255 (0x61 : UInt8)).length ≤ kMaxPreviewLen := by
      rw [List.length_replicate]
      decide
    rw [text, List.getElem?_append_right past, List.length_replicate]
    rfl)
  exact absurd boundary (by decide)

end Listed

end ClippProof.Cli
