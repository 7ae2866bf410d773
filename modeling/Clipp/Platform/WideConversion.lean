import Clipp.Foundation.OutputBuffer
import Clipp.Platform.Utf8Text

open Foundation

namespace ClippModel.Platform

open ClippModel.Registers

/-- `wchar_t` of a platform: its size and the casts from and to a code point. -/
structure WideChar (U : Type) where
  size : Nat
  ofCode : UInt32 → U
  toCode : U → UInt32

def wchar16 : WideChar UInt16 := ⟨2, UInt32.toUInt16, UInt16.toUInt32⟩

def wchar32 : WideChar UInt32 := ⟨4, id, id⟩

variable {U : Type}

/-- The units of one code point: a pair of surrogates for what does not fit two bytes. -/
def storeCodePoint (W : WideChar U) (codePoint : UInt32) (utf16 : OutputBuffer U) : OutputBuffer U :=
  if W.size = 2 then
    if codePoint ≤ 0xFFFF then utf16.put [W.ofCode codePoint]
    else
      let shifted := codePoint - 0x10000
      (utf16.put [W.ofCode ((0xD800 : UInt32) ||| (shifted >>> 10))]).put [W.ofCode ((0xDC00 : UInt32) ||| (shifted &&& 0x3FF))]
  else utf16.put [W.ofCode codePoint]

def utf8ToUtf16Loop (W : WideChar U) (utf8 : Bytes) : Nat → Nat → OutputBuffer U → Bool × OutputBuffer U
  | 0, inputOffset, utf16 => (inputOffset ≥ utf8.length, utf16)
  | fuel + 1, inputOffset, utf16 =>
    if inputOffset < utf8.length then
      match AppleEncoding.decodeUtf8CodePoint utf8 inputOffset 0 with
      | (false, _, _) => (false, utf16)
      | (true, next, codePoint) => utf8ToUtf16Loop W utf8 fuel next (storeCodePoint W codePoint utf16)
    else (true, utf16)

def utf8ToUtf16 (W : WideChar U) (utf8 : Bytes) (utf16 : Option (List U)) : Nat × Option (List U) :=
  OutputBuffer.convert (utf8ToUtf16Loop W utf8 utf8.length 0) utf16

namespace AppleEncoding

def appendUtf8CodePoint (utf8 : OutputBuffer UInt8) (codePoint : UInt32) : Bool × OutputBuffer UInt8 :=
  match Platform.appendUtf8CodePoint codePoint with
  | none => (false, utf8)
  | some bytes => (true, utf8.put bytes)

end AppleEncoding

def utf16ToUtf8Loop (W : WideChar U) : List U → OutputBuffer UInt8 → Bool × OutputBuffer UInt8
  | [], utf8 => (true, utf8)
  | unit :: rest, utf8 =>
    let codePoint := W.toCode unit
    if W.size = 2 ∧ codePoint ≥ 0xD800 ∧ codePoint ≤ 0xDBFF then
      match rest with
      | [] => (false, utf8)
      | second :: rest =>
        let low := W.toCode second
        if low < 0xDC00 ∨ low > 0xDFFF then (false, utf8)
        else
          match AppleEncoding.appendUtf8CodePoint utf8
              ((0x10000 : UInt32) + (((codePoint - 0xD800) <<< 10) ||| (low - 0xDC00))) with
          | (false, utf8) => (false, utf8)
          | (true, utf8) => utf16ToUtf8Loop W rest utf8
    else if W.size = 2 ∧ codePoint ≥ 0xDC00 ∧ codePoint ≤ 0xDFFF then (false, utf8)
    else
      match AppleEncoding.appendUtf8CodePoint utf8 codePoint with
      | (false, utf8) => (false, utf8)
      | (true, utf8) => utf16ToUtf8Loop W rest utf8

def utf16ToUtf8Of (W : WideChar U) (utf16 : List U) (utf8 : Option Bytes) : Nat × Option Bytes :=
  OutputBuffer.convert (utf16ToUtf8Loop W utf16) utf8

def utf8ToUtf16String (W : WideChar U) (value : Bytes) : List U :=
  if value.isEmpty then []
  else OutputBuffer.twoPasses (utf8ToUtf16Loop W value value.length 0) (W.ofCode 0)

def utf16ToUtf8String (W : WideChar U) (value : List U) : Bytes :=
  if value.isEmpty then []
  else OutputBuffer.twoPasses (utf16ToUtf8Loop W value) 0

/-- Well-formed text comes back, malformed text is shown as none, and either conversion fills just the units
    it counted. -/
structure RoundTrips (W : WideChar U) : Prop where
  back : ∀ chars : List Char, utf16ToUtf8String W (utf8ToUtf16String W (utf8.text chars)) = utf8.text chars
  malformed : ∀ text : Bytes, (¬ ∃ chars : List Char, text = utf8.text chars) → utf8ToUtf16String W text = []
  sizedWide : ∀ text : Bytes, ∃ units, (utf8ToUtf16 W text none).1 = units.length ∧
    ∀ cells : List U, cells.length = units.length → utf8ToUtf16 W text (some cells) = (units.length, some units)
  sizedBytes : ∀ wide : List U, ∃ bytes, (utf16ToUtf8Of W wide none).1 = bytes.length ∧
    ∀ cells : Bytes, cells.length = bytes.length → utf16ToUtf8Of W wide (some cells) = (bytes.length, some bytes)

end ClippModel.Platform

namespace ClippProof.Platform

open ClippModel.Registers ClippModel.Platform

variable {U : Type} (W : WideChar U)

def unitsOf (codePoint : UInt32) : List U :=
  if W.size = 2 then
    if codePoint ≤ 0xFFFF then [W.ofCode codePoint]
    else
      [W.ofCode ((0xD800 : UInt32) ||| ((codePoint - 0x10000) >>> 10)),
        W.ofCode ((0xDC00 : UInt32) ||| ((codePoint - 0x10000) &&& 0x3FF))]
  else [W.ofCode codePoint]

theorem storeCodePoint_puts (codePoint : UInt32) :
    OutputBuffer.Puts (storeCodePoint W codePoint) (unitsOf W codePoint) := by
  unfold storeCodePoint unitsOf
  split_ifs with narrow single
  · exact .one _
  · exact .two [_] [_]
  · exact .one _

/-- The conversion is the decoders' loop, with the units of each code point put on the way. -/
theorem utf8ToUtf16Loop_writes {text : Bytes} {fuel offset : Nat} {accepted : Bool} {codes : List UInt32}
    (enough : text.length ≤ offset + fuel)
    (read : decodeLoop AppleEncoding.decodeUtf8CodePoint text (fuel + 1) offset = some (accepted, codes)) :
    OutputBuffer.Writes (utf8ToUtf16Loop W text fuel offset) accepted (codes.flatMap (unitsOf W)) := by
  induction fuel generalizing offset codes with
  | zero =>
    have past : ¬ offset < text.length := by omega
    rw [decodeLoop, if_neg past] at read
    obtain ⟨rfl, rfl⟩ := Prod.mk.inj (Option.some.inj read)
    have stays : utf8ToUtf16Loop W text 0 offset = fun out => (true, out) := by
      funext out
      exact Prod.ext (decide_eq_true enough) rfl
    rw [stays]
    exact .ended true
  | succ fuel ih =>
    rw [decodeLoop] at read
    by_cases inside : offset < text.length
    · rw [if_pos inside] at read
      cases decoded : AppleEncoding.decodeUtf8CodePoint text offset 0 with
      | mk valid reached =>
        obtain ⟨next, codePoint⟩ := reached
        rw [decoded] at read
        cases valid with
        | false =>
          obtain ⟨rfl, rfl⟩ := Prod.mk.inj (Option.some.inj read)
          have stops : utf8ToUtf16Loop W text (fuel + 1) offset = fun out => (false, out) := by
            funext out
            rw [utf8ToUtf16Loop, if_pos inside, decoded]
          rw [stops]
          exact .ended false
        | true =>
          obtain ⟨outcome, further, same⟩ := Option.map_eq_some_iff.mp read
          obtain ⟨rfl, rfl⟩ := Prod.mk.inj same
          have steps : utf8ToUtf16Loop W text (fuel + 1) offset = fun out =>
              utf8ToUtf16Loop W text fuel next (storeCodePoint W codePoint out) := by
            funext out
            rw [utf8ToUtf16Loop, if_pos inside, decoded]
          rw [decode_copies] at decoded
          have advanced : offset < next := by
            split_ifs at decoded with valid
            · exact decodeUtf8CodePoint_advances decoded
            · cases decoded
          rw [steps, List.flatMap_cons]
          exact (ih (by omega) further).after (storeCodePoint_puts W codePoint)
    · rw [if_neg inside] at read
      obtain ⟨rfl, rfl⟩ := Prod.mk.inj (Option.some.inj read)
      have stays : utf8ToUtf16Loop W text (fuel + 1) offset = fun out => (true, out) := by
        funext out
        rw [utf8ToUtf16Loop, if_neg inside]
      rw [stays]
      exact .ended true

/-- The code point the units start with and the units behind it; `none` for a surrogate out of place. -/
def readUnits (unit : U) (rest : List U) : Option (UInt32 × List U) :=
  if W.size = 2 ∧ W.toCode unit ≥ 0xD800 ∧ W.toCode unit ≤ 0xDBFF then
    match rest with
    | [] => none
    | second :: rest =>
      if W.toCode second < 0xDC00 ∨ W.toCode second > 0xDFFF then none
      else some ((0x10000 : UInt32) + (((W.toCode unit - 0xD800) <<< 10) ||| (W.toCode second - 0xDC00)), rest)
  else if W.size = 2 ∧ W.toCode unit ≥ 0xDC00 ∧ W.toCode unit ≤ 0xDFFF then none
  else some (W.toCode unit, rest)

theorem readUnits_shorter {unit : U} {rest further : List U} {codePoint : UInt32}
    (read : readUnits W unit rest = some (codePoint, further)) : further.length ≤ rest.length := by
  unfold readUnits at read
  split_ifs at read with high low
  · cases rest with
    | nil => cases read
    | cons second others =>
      simp only at read
      split_ifs at read with foreign
      obtain ⟨-, rfl⟩ := Prod.mk.inj (Option.some.inj read)
      exact Nat.le_succ _
  · obtain ⟨-, rfl⟩ := Prod.mk.inj (Option.some.inj read)
    exact le_rfl

theorem utf16ToUtf8Loop_cons (unit : U) (rest : List U) :
    utf16ToUtf8Loop W (unit :: rest) = fun out =>
      match (readUnits W unit rest).bind fun read => (appendUtf8CodePoint read.1).map fun bytes => (bytes, read.2) with
      | none => (false, out)
      | some (bytes, further) => utf16ToUtf8Loop W further (out.put bytes) := by
  funext out
  unfold readUnits
  rw [utf16ToUtf8Loop.eq_def]
  simp only
  split_ifs with high low
  · cases rest with
    | nil => rfl
    | cons second others =>
      simp only
      split_ifs with foreign
      · rfl
      · rw [Option.bind_some, AppleEncoding.appendUtf8CodePoint]
        cases appendUtf8CodePoint _ <;> rfl
  · rfl
  · rw [Option.bind_some, AppleEncoding.appendUtf8CodePoint]
    cases appendUtf8CodePoint _ <;> rfl

theorem utf16ToUtf8Loop_writes (wide : List U) : ∃ accepted bytes,
    OutputBuffer.Writes (utf16ToUtf8Loop W wide) accepted bytes := by
  induction width : wide.length using Nat.strong_induction_on generalizing wide with
  | _ total ih =>
    cases wide with
    | nil => exact ⟨true, [], .ended true⟩
    | cons unit rest =>
      rw [utf16ToUtf8Loop_cons]
      cases read : (readUnits W unit rest).bind fun read =>
          (appendUtf8CodePoint read.1).map fun bytes => (bytes, read.2) with
      | none => exact ⟨false, [], .ended false⟩
      | some next =>
        obtain ⟨bytes, further⟩ := next
        obtain ⟨⟨codePoint, others⟩, taken, appended⟩ := Option.bind_eq_some_iff.mp read
        obtain ⟨_, _, same⟩ := Option.map_eq_some_iff.mp appended
        obtain ⟨rfl, rfl⟩ := Prod.mk.inj same
        have shorter := readUnits_shorter W taken
        have below : others.length < total := by
          rw [← width, List.length_cons]
          omega
        obtain ⟨accepted, later, writes⟩ := ih others.length below others rfl
        exact ⟨accepted, _, writes.after (.one _)⟩

def ReadsBack : Prop := ∀ (c : Char) (rest : List U), ∃ unit others, unitsOf W c.val ++ rest = unit :: others ∧
  readUnits W unit others = some (c.val, rest)

variable {W}

theorem utf16ToUtf8Loop_text (reads : ReadsBack W) (chars : List Char) :
    OutputBuffer.Writes (utf16ToUtf8Loop W (chars.flatMap fun c => unitsOf W c.val)) true (utf8.text chars) := by
  induction chars with
  | nil => exact .ended true
  | cons c chars ih =>
    obtain ⟨unit, others, split, read⟩ := reads c (chars.flatMap fun c => unitsOf W c.val)
    rw [List.flatMap_cons, split, utf16ToUtf8Loop_cons, read, Option.bind_some, append_char, Option.map_some,
      CharacterCode.text_cons, utf8_encode]
    exact ih.after (.one _)

theorem utf8ToUtf16_writes (text : Bytes) : ∃ accepted codes,
    OutputBuffer.Writes (utf8ToUtf16Loop W text text.length 0) accepted (codes.flatMap (unitsOf W)) ∧
    (accepted = true ↔ ∃ chars : List Char, text = utf8.text chars) ∧
    ∀ chars : List Char, text = utf8.text chars → codes = chars.map Char.val := by
  obtain ⟨accepted, codes, ends, whole, yields⟩ := decodeLoop_outcome text 0
  rw [List.drop_zero] at whole yields
  have read := ends (text.length + 1) (by omega)
  rw [← decodeLoop_copies] at read
  exact ⟨accepted, codes, utf8ToUtf16Loop_writes W (by omega) read, whole, yields⟩

theorem utf8ToUtf16String_text (chars : List Char) :
    utf8ToUtf16String W (utf8.text chars) = chars.flatMap fun c => unitsOf W c.val := by
  obtain ⟨accepted, codes, writes, whole, yields⟩ := utf8ToUtf16_writes (W := W) (utf8.text chars)
  obtain rfl := yields chars rfl
  obtain rfl := whole.mpr ⟨chars, rfl⟩
  rw [utf8ToUtf16String]
  split_ifs with empty
  · rw [utf8.text_eq_nil_iff.mp (List.isEmpty_iff.mp empty), List.flatMap_nil]
  · rw [writes.passes, if_pos rfl, List.flatMap_map]

theorem utf8ToUtf16String_malformed {text : Bytes} (malformed : ¬ ∃ chars : List Char, text = utf8.text chars) :
    utf8ToUtf16String W text = [] := by
  obtain ⟨accepted, codes, writes, whole, -⟩ := utf8ToUtf16_writes (W := W) text
  rw [utf8ToUtf16String]
  split_ifs with empty
  · rfl
  · rw [writes.passes, if_neg (mt whole.mp malformed)]

theorem unitsOf_ne_nil (codePoint : UInt32) : unitsOf W codePoint ≠ [] := by
  unfold unitsOf
  split_ifs <;> exact List.cons_ne_nil _ _

theorem roundTrips (reads : ReadsBack W) : RoundTrips W where
  back chars := by
    rw [utf8ToUtf16String_text, utf16ToUtf8String]
    split_ifs with empty
    · cases chars with
      | nil => rfl
      | cons c chars =>
        rw [List.isEmpty_iff, List.flatMap_cons, List.append_eq_nil_iff] at empty
        exact absurd empty.1 (unitsOf_ne_nil c.val)
    · rw [(utf16ToUtf8Loop_text reads chars).passes, if_pos rfl]
  malformed _ := utf8ToUtf16String_malformed
  sizedWide text := by
    obtain ⟨accepted, codes, writes, -⟩ := utf8ToUtf16_writes (W := W) text
    exact ⟨_, writes.counted, fun cells sized => writes.filled sized⟩
  sizedBytes wide := by
    obtain ⟨accepted, bytes, writes⟩ := utf16ToUtf8Loop_writes W wide
    exact ⟨_, writes.counted, fun cells sized => writes.filled sized⟩

theorem wchar32_reads : ReadsBack wchar32 := by
  intro c rest
  have wide : ¬ wchar32.size = 2 := by decide
  refine ⟨c.val, rest, ?_, ?_⟩
  · rw [unitsOf, if_neg wide]
    rfl
  · unfold readUnits
    rw [if_neg (fun narrow => wide narrow.1), if_neg (fun narrow => wide narrow.1)]
    rfl

theorem unitsOf_wchar32 (codePoint : UInt32) : unitsOf wchar32 codePoint = [codePoint] :=
  if_neg (by decide)

/-- With four bytes a unit the sized conversions are the ones of `posix`. -/
theorem utf8ToUtf16String_wchar32 (text : Bytes) : utf8ToUtf16String wchar32 text = posixUtf8ToWide text := by
  by_cases whole : ∃ chars : List Char, text = utf8.text chars
  · obtain ⟨chars, rfl⟩ := whole
    rw [utf8ToUtf16String_text, posixUtf8ToWide_text]
    simp only [unitsOf_wchar32, List.map_eq_flatMap]
  · rw [utf8ToUtf16String_malformed whole, posixUtf8ToWide_malformed whole]

theorem utf16ToUtf8Loop_plain (wide : List UInt32) : ∃ written,
    OutputBuffer.Writes (utf16ToUtf8Loop wchar32 wide) (utf16ToUtf8 wide).isSome written ∧
      ∀ bytes, utf16ToUtf8 wide = some bytes → written = bytes := by
  induction wide with
  | nil => exact ⟨[], .ended true, fun bytes encoded => Option.some.inj encoded⟩
  | cons unit rest ih =>
    obtain ⟨written, writes, same⟩ := ih
    have read : readUnits wchar32 unit rest = some (unit, rest) := by
      unfold readUnits
      rw [if_neg (fun narrow => absurd narrow.1 (by decide)), if_neg (fun narrow => absurd narrow.1 (by decide))]
      rfl
    rw [utf16ToUtf8Loop_cons, read, Option.bind_some, utf16ToUtf8]
    cases appended : appendUtf8CodePoint unit with
    | none => exact ⟨[], .ended false, fun bytes encoded => by cases encoded⟩
    | some first =>
      have onward := writes.after (.one first)
      cases further : utf16ToUtf8 rest with
      | none =>
        rw [further] at onward
        exact ⟨_, onward, fun bytes encoded => by cases encoded⟩
      | some others =>
        rw [further] at onward
        refine ⟨_, onward, fun bytes encoded => ?_⟩
        rw [same others further]
        exact Option.some.inj encoded

theorem utf16ToUtf8String_wchar32 (wide : List UInt32) : utf16ToUtf8String wchar32 wide = posixWideToUtf8 wide := by
  obtain ⟨written, writes, same⟩ := utf16ToUtf8Loop_plain wide
  rw [utf16ToUtf8String, posixWideToUtf8]
  split_ifs with empty
  · rw [List.isEmpty_iff.mp empty]
    rfl
  · rw [writes.passes]
    cases encoded : utf16ToUtf8 wide with
    | none => rfl
    | some bytes => rw [same bytes encoded, Option.isSome_some, if_pos rfl, Option.getD_some]

theorem surrogate_toNat (marker half : UInt32) (i : Nat) (marked : marker.toNat = i * 2 ^ 10)
    (small : half.toNat < 2 ^ 10) (low : i < 64) :
    (marker ||| half).toUInt16.toUInt32.toNat = marker.toNat + half.toNat := by
  have whole := Nat.shiftLeft_add_eq_or_of_lt small i
  rw [Nat.shiftLeft_eq, ← marked] at whole
  rw [UInt16.toNat_toUInt32, UInt32.toNat_toUInt16, UInt32.toNat_or, ← whole]
  omega

theorem halves_toNat (x : UInt32) :
    (x >>> 10).toNat = x.toNat / 1024 ∧ (x &&& 0x3FF).toNat = x.toNat % 1024 := by
  constructor
  · rw [UInt32.toNat_shiftRight]
    exact Nat.shiftRight_eq_div_pow x.toNat 10
  · rw [UInt32.toNat_and]
    exact Nat.and_two_pow_sub_one_eq_mod x.toNat 10

theorem joined_toNat (high low : UInt32) (small : high.toNat < 1024) (below : low.toNat < 1024) :
    ((0x10000 : UInt32) + ((high <<< 10) ||| low)).toNat = 0x10000 + high.toNat * 1024 + low.toNat := by
  have whole := Nat.shiftLeft_add_eq_or_of_lt (i := 10) below high.toNat
  have inside : high.toNat <<< 10 < 2 ^ 32 := by
    rw [Nat.shiftLeft_eq]
    omega
  have joined : ((high <<< 10) ||| low).toNat = high.toNat * 1024 + low.toNat := by
    rw [UInt32.toNat_or, UInt32.toNat_shiftLeft]
    change high.toNat <<< 10 % 2 ^ 32 ||| low.toNat = high.toNat * 1024 + low.toNat
    rw [Nat.mod_eq_of_lt inside, ← whole, Nat.shiftLeft_eq]
  rw [UInt32.toNat_add, joined]
  change (0x10000 + (high.toNat * 1024 + low.toNat)) % 2 ^ 32 = _
  omega

theorem char_toNat (c : Char) : c.val.toNat < 0xD800 ∨ (0xDFFF < c.val.toNat ∧ c.val.toNat < 0x110000) := c.valid

theorem readUnits_single {unit : UInt16} {codePoint : UInt32} (same : unit.toUInt32 = codePoint) (rest : List UInt16)
    (scalar : ¬ (0xD800 ≤ codePoint.toNat ∧ codePoint.toNat ≤ 0xDFFF)) :
    readUnits wchar16 unit rest = some (codePoint, rest) := by
  have notHigh : ¬ (wchar16.size = 2 ∧ unit.toUInt32 ≥ 0xD800 ∧ unit.toUInt32 ≤ 0xDBFF) := by
    rw [same]
    intro high
    have low : 0xD800 ≤ codePoint.toNat := high.2.1
    have below : codePoint.toNat ≤ 0xDBFF := high.2.2
    omega
  have notLow : ¬ (wchar16.size = 2 ∧ unit.toUInt32 ≥ 0xDC00 ∧ unit.toUInt32 ≤ 0xDFFF) := by
    rw [same]
    intro second
    have low : 0xDC00 ≤ codePoint.toNat := second.2.1
    have below : codePoint.toNat ≤ 0xDFFF := second.2.2
    omega
  have read : readUnits wchar16 unit rest = some (unit.toUInt32, rest) := (if_neg notHigh).trans (if_neg notLow)
  rw [read, same]

theorem readUnits_pair {high low : UInt16} {upper lower : Nat} (first : high.toUInt32.toNat = 0xD800 + upper)
    (second : low.toUInt32.toNat = 0xDC00 + lower) (small : upper < 1024) (below : lower < 1024)
    (rest : List UInt16) : ∃ codePoint, readUnits wchar16 high (low :: rest) = some (codePoint, rest) ∧
      codePoint.toNat = 0x10000 + upper * 1024 + lower := by
  have isHigh : wchar16.size = 2 ∧ high.toUInt32 ≥ 0xD800 ∧ high.toUInt32 ≤ 0xDBFF := by
    refine ⟨rfl, ?_, ?_⟩
    · change 0xD800 ≤ high.toUInt32.toNat
      omega
    · change high.toUInt32.toNat ≤ 0xDBFF
      omega
  have isLow : ¬ (low.toUInt32 < 0xDC00 ∨ low.toUInt32 > 0xDFFF) := by
    rintro (under | beyond)
    · have early : low.toUInt32.toNat < 0xDC00 := under
      omega
    · have late : 0xDFFF < low.toUInt32.toNat := beyond
      omega
  have highBits : (high.toUInt32 - 0xD800).toNat = upper := by
    rw [UInt32.toNat_sub_of_le _ _ isHigh.2.1, first]
    exact Nat.add_sub_cancel_left _ upper
  have lowBits : (low.toUInt32 - 0xDC00).toNat = lower := by
    rw [UInt32.toNat_sub_of_le _ _ (UInt32.not_lt.mp (not_or.mp isLow).1), second]
    exact Nat.add_sub_cancel_left _ lower
  have joined := joined_toNat (high.toUInt32 - 0xD800) (low.toUInt32 - 0xDC00) (by omega) (by omega)
  rw [highBits, lowBits] at joined
  exact ⟨_, (if_pos isHigh).trans (if_neg isLow), joined⟩

theorem wchar16_reads : ReadsBack wchar16 := by
  intro c rest
  have valid := char_toNat c
  have narrow : wchar16.size = 2 := rfl
  by_cases single : c.val ≤ 0xFFFF
  · have bound : c.val.toNat ≤ 0xFFFF := single
    have same : c.val.toUInt16.toUInt32 = c.val := by
      apply UInt32.toNat_inj.mp
      rw [UInt16.toNat_toUInt32, UInt32.toNat_toUInt16]
      omega
    refine ⟨c.val.toUInt16, rest, ?_, readUnits_single same rest (by omega)⟩
    rw [unitsOf, if_pos narrow, if_pos single]
    rfl
  · have large : ¬ c.val.toNat ≤ 0xFFFF := single
    have least : 0x10000 ≤ c.val := by
      change 0x10000 ≤ c.val.toNat
      omega
    have shifted : (c.val - 0x10000).toNat = c.val.toNat - 0x10000 := UInt32.toNat_sub_of_le _ _ least
    obtain ⟨upper, lower⟩ := halves_toNat (c.val - 0x10000)
    have first := surrogate_toNat 0xD800 ((c.val - 0x10000) >>> 10) 54 rfl
      (by omega) (by decide)
    have second := surrogate_toNat 0xDC00 ((c.val - 0x10000) &&& 0x3FF) 55 rfl
      (by omega) (by decide)
    obtain ⟨codePoint, read, value⟩ := readUnits_pair first second (by omega) (by omega) rest
    refine ⟨_, _, ?_, read.trans ?_⟩
    · rw [unitsOf, if_pos narrow, if_neg single]
      rfl
    · have whole : codePoint = c.val := by
        apply UInt32.toNat_inj.mp
        omega
      rw [whole]

/-- Text survives the way to wide strings and back, on either width of `wchar_t`. -/
theorem wide_round_trip : RoundTrips wchar16 ∧ RoundTrips wchar32 :=
  ⟨roundTrips wchar16_reads, roundTrips wchar32_reads⟩

end ClippProof.Platform
