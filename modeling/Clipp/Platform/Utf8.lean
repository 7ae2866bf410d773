import Clipp.Foundation.CharacterCode
import Clipp.Platform.WideText

open Foundation

namespace ClippModel.Platform

open ClippModel.Registers

namespace AppleEncoding

/-- The copy for the wide strings: a rejected sequence leaves both in-out parameters as they were. -/
def decodeUtf8CodePoint (utf8 : Bytes) (offset : Nat) (codePoint : UInt32) : Bool × Nat × UInt32 :=
  if offset ≥ utf8.length then (false, offset, codePoint)
  else
    let start := offset
    let lead := byteAt utf8 offset
    let rejected := (false, start, codePoint)
    if lead < 0x80 then (true, offset + 1, lead.toUInt32)
    else match utf8Lead lead with
      | none => rejected
      | some announced =>
        if offset + 1 + announced.continuationCount > utf8.length then rejected
        else match utf8Continuation utf8 announced.continuationCount (offset + 1) announced.value with
          | none => rejected
          | some (next, value) =>
            if value < announced.minimumValue ∨ value > 0x10FFFF ∨ (value ≥ 0xD800 ∧ value ≤ 0xDFFF)
            then rejected
            else (true, next, value)

end AppleEncoding

namespace PlatformDetail

def appendUtf8CodePoint (output : Bytes) (codePoint : UInt32) : Bytes :=
  if codePoint ≤ 0x7F then output ++ [codePoint.toUInt8]
  else if codePoint ≤ 0x7FF then output ++ [leadByte 0xC0 (codePoint >>> 6), continuationByte codePoint]
  else if codePoint ≤ 0xFFFF then
    output ++ [leadByte 0xE0 (codePoint >>> 12), continuationByte (codePoint >>> 6), continuationByte codePoint]
  else
    output ++ [leadByte 0xF0 (codePoint >>> 18), continuationByte (codePoint >>> 12),
      continuationByte (codePoint >>> 6), continuationByte codePoint]

end PlatformDetail

/-- The loop the callers put around a decoder: whether it reached the end, and the code points on the way;
    `none` where the steps allowed do not end it. -/
def decodeLoop (decode : Bytes → Nat → UInt32 → Bool × Nat × UInt32) (text : Bytes) :
    Nat → Nat → Option (Bool × List UInt32)
  | 0, _ => none
  | steps + 1, offset =>
    if offset < text.length then
      match decode text offset 0 with
      | (false, _, _) => some (false, [])
      | (true, next, codePoint) =>
        (decodeLoop decode text steps next).map fun rest => (rest.1, codePoint :: rest.2)
    else some (true, [])

end ClippModel.Platform

namespace ClippProof.Platform

open ClippModel.Registers ClippModel.Platform

theorem byte_of_each {P : UInt8 → Prop} (each : ∀ n < 256, P (UInt8.ofNat n)) (b : UInt8) : P b := by
  have holds := each b.toNat b.toNat_lt
  rwa [UInt8.ofNat_toNat] at holds

theorem low_six_toNat (x : UInt32) : (x &&& 0x3F).toNat = x.toNat % 64 := by
  rw [UInt32.toNat_and]
  exact Nat.and_two_pow_sub_one_eq_mod x.toNat 6

theorem shift_six_toNat (x : UInt32) : (x >>> 6).toNat = x.toNat / 64 := by
  rw [UInt32.toNat_shiftRight]
  exact Nat.shiftRight_eq_div_pow x.toNat 6

theorem pushed_toNat {v x : UInt32} (small : v.toNat < 2 ^ 26) (low : x.toNat < 64) :
    ((v <<< 6) ||| x).toNat = v.toNat * 64 + x.toNat := by
  have whole := Nat.shiftLeft_add_eq_or_of_lt (i := 6) low v.toNat
  have inside : v.toNat <<< 6 < 2 ^ 32 := by
    rw [Nat.shiftLeft_eq]
    omega
  rw [UInt32.toNat_or, UInt32.toNat_shiftLeft]
  change v.toNat <<< 6 % 2 ^ 32 ||| x.toNat = v.toNat * 64 + x.toNat
  rw [Nat.mod_eq_of_lt inside, ← whole, Nat.shiftLeft_eq]

theorem continuation_bits {b : UInt8} (marked : b &&& 0xC0 = 0x80) :
    (b &&& 0x3F).toUInt32.toNat < 64 ∧ (0x80 ||| (b &&& 0x3F).toUInt32).toUInt8 = b :=
  byte_of_each (P := fun b => b &&& 0xC0 = 0x80 →
    (b &&& 0x3F).toUInt32.toNat < 64 ∧ (0x80 ||| (b &&& 0x3F).toUInt32).toUInt8 = b) (by decide +kernel) b marked

theorem pushed_spec {v : UInt32} {b : UInt8} (small : v.toNat < 2 ^ 26) (marked : b &&& 0xC0 = 0x80) :
    (((v <<< 6) ||| (b &&& 0x3F).toUInt32) >>> 6 = v) ∧ continuationByte ((v <<< 6) ||| (b &&& 0x3F).toUInt32) = b ∧
      ((v <<< 6) ||| (b &&& 0x3F).toUInt32).toNat / 64 = v.toNat := by
  obtain ⟨low, kept⟩ := continuation_bits marked
  have number := pushed_toNat small low
  have quotient : ((v <<< 6) ||| (b &&& 0x3F).toUInt32).toNat / 64 = v.toNat := by omega
  have rest : ((v <<< 6) ||| (b &&& 0x3F).toUInt32) &&& 0x3F = (b &&& 0x3F).toUInt32 := by
    apply UInt32.toNat_inj.mp
    rw [low_six_toNat]
    omega
  have upper : ((v <<< 6) ||| (b &&& 0x3F).toUInt32) >>> 6 = v := by
    apply UInt32.toNat_inj.mp
    rw [shift_six_toNat, quotient]
  exact ⟨upper, by rw [continuationByte, rest, kept], quotient⟩

theorem utf8Lead_cases {lead : UInt8} {announced : Utf8Lead} (found : utf8Lead lead = some announced) :
    (announced.continuationCount = 1 ∧ announced.minimumValue = 0x80 ∧ announced.value.toNat < 32 ∧
        leadByte 0xC0 announced.value = lead) ∨
      (announced.continuationCount = 2 ∧ announced.minimumValue = 0x800 ∧ announced.value.toNat < 16 ∧
        leadByte 0xE0 announced.value = lead) ∨
      (announced.continuationCount = 3 ∧ announced.minimumValue = 0x10000 ∧ announced.value.toNat < 8 ∧
        leadByte 0xF0 announced.value = lead) := by
  unfold utf8Lead at found
  split_ifs at found with two three four
  · obtain rfl := Option.some.inj found
    exact .inl ⟨rfl, rfl, byte_of_each (P := fun b => b &&& 0xE0 = 0xC0 → (b &&& 0x1F).toUInt32.toNat < 32 ∧
      leadByte 0xC0 (b &&& 0x1F).toUInt32 = b) (by decide +kernel) lead two⟩
  · obtain rfl := Option.some.inj found
    exact .inr (.inl ⟨rfl, rfl, byte_of_each (P := fun b => b &&& 0xF0 = 0xE0 → (b &&& 0x0F).toUInt32.toNat < 16 ∧
      leadByte 0xE0 (b &&& 0x0F).toUInt32 = b) (by decide +kernel) lead three⟩)
  · obtain rfl := Option.some.inj found
    exact .inr (.inr ⟨rfl, rfl, byte_of_each (P := fun b => b &&& 0xF8 = 0xF0 → (b &&& 0x07).toUInt32.toNat < 8 ∧
      leadByte 0xF0 (b &&& 0x07).toUInt32 = b) (by decide +kernel) lead four⟩)

theorem drop_byteAt {text : Bytes} {offset : Nat} (inside : offset < text.length) :
    text.drop offset = byteAt text offset :: text.drop (offset + 1) := by
  rw [List.drop_eq_getElem_cons inside, byteAt, List.getElem?_eq_getElem inside, Option.getD_some]

theorem utf8Continuation_succ {text : Bytes} {count offset next : Nat} {start value : UInt32}
    (small : start.toNat < 2 ^ 26) (read : utf8Continuation text (count + 1) offset start = some (next, value)) :
    ∃ (b : UInt8) (pushed : UInt32), text.drop offset = b :: text.drop (offset + 1) ∧
      pushed >>> 6 = start ∧ continuationByte pushed = b ∧ pushed.toNat / 64 = start.toNat ∧ utf8Continuation text count (offset + 1) pushed = some (next, value) := by
  rw [utf8Continuation] at read
  split_ifs at read with foreign
  have marked := not_not.mp foreign
  have inside : offset < text.length := by
    by_contra outside
    rw [byteAt, List.getElem?_eq_none (not_lt.mp outside)] at marked
    exact absurd marked (by decide)
  obtain ⟨upper, last, number⟩ := pushed_spec small marked
  exact ⟨_, _, drop_byteAt inside, upper, last, number, read⟩

theorem append_two {x : UInt32} (least : 0x80 ≤ x.toNat) (most : x.toNat < 0x800) :
    appendUtf8CodePoint x = some [leadByte 0xC0 (x >>> 6), continuationByte x] := by
  have one : ¬ x ≤ 0x7F := fun small => absurd (show x.toNat ≤ 0x7F from small) (by omega)
  have two : x ≤ 0x7FF := show x.toNat ≤ 0x7FF by omega
  rw [appendUtf8CodePoint, if_neg one, if_pos two]

theorem append_three {x : UInt32} (least : 0x800 ≤ x.toNat) (most : x.toNat < 0x10000)
    (scalar : ¬ (x ≥ 0xD800 ∧ x ≤ 0xDFFF)) : appendUtf8CodePoint x =
      some [leadByte 0xE0 (x >>> 12), continuationByte (x >>> 6), continuationByte x] := by
  have one : ¬ x ≤ 0x7F := fun small => absurd (show x.toNat ≤ 0x7F from small) (by omega)
  have two : ¬ x ≤ 0x7FF := fun small => absurd (show x.toNat ≤ 0x7FF from small) (by omega)
  have three : x ≤ 0xFFFF := show x.toNat ≤ 0xFFFF by omega
  rw [appendUtf8CodePoint, if_neg one, if_neg two, if_pos three, if_neg scalar]

theorem append_four {x : UInt32} (least : 0x10000 ≤ x.toNat) (most : x ≤ 0x10FFFF) : appendUtf8CodePoint x =
    some [leadByte 0xF0 (x >>> 18), continuationByte (x >>> 12), continuationByte (x >>> 6), continuationByte x] := by
  have one : ¬ x ≤ 0x7F := fun small => absurd (show x.toNat ≤ 0x7F from small) (by omega)
  have two : ¬ x ≤ 0x7FF := fun small => absurd (show x.toNat ≤ 0x7FF from small) (by omega)
  have three : ¬ x ≤ 0xFFFF := fun small => absurd (show x.toNat ≤ 0xFFFF from small) (by omega)
  rw [appendUtf8CodePoint, if_neg one, if_neg two, if_neg three, if_pos most]

theorem decoded_two {text : Bytes} {offset next : Nat} {v value : UInt32} {lead : UInt8} (small : v.toNat < 32)
    (origin : leadByte 0xC0 v = lead) (read : utf8Continuation text 1 offset v = some (next, value))
    (least : 0x80 ≤ value) : ∃ bytes, appendUtf8CodePoint value = some bytes ∧
      lead :: text.drop offset = bytes ++ text.drop next ∧ next + 1 = offset + bytes.length := by
  obtain ⟨_, x, split, upper, last, number, ended⟩ := utf8Continuation_succ (by omega) read
  obtain ⟨rfl, rfl⟩ := Prod.mk.inj (Option.some.inj ended)
  have appended := append_two least (by omega)
  rw [upper, last, origin] at appended
  exact ⟨_, appended, by rw [split]; rfl, rfl⟩

theorem decoded_three {text : Bytes} {offset next : Nat} {v value : UInt32} {lead : UInt8} (small : v.toNat < 16)
    (origin : leadByte 0xE0 v = lead) (read : utf8Continuation text 2 offset v = some (next, value))
    (least : 0x800 ≤ value) (scalar : ¬ (value ≥ 0xD800 ∧ value ≤ 0xDFFF)) :
    ∃ bytes, appendUtf8CodePoint value = some bytes ∧
      lead :: text.drop offset = bytes ++ text.drop next ∧ next + 1 = offset + bytes.length := by
  obtain ⟨_, x₁, split₁, upper₁, last₁, number₁, read₁⟩ := utf8Continuation_succ (by omega) read
  obtain ⟨_, x₂, split₂, upper₂, last₂, number₂, ended⟩ := utf8Continuation_succ (by omega) read₁
  obtain ⟨rfl, rfl⟩ := Prod.mk.inj (Option.some.inj ended)
  have appended := append_three least (by omega) scalar
  rw [← (shift_shift _).1, upper₂, last₂, upper₁, last₁, origin] at appended
  exact ⟨_, appended, by rw [split₁, split₂]; rfl, rfl⟩

theorem decoded_four {text : Bytes} {offset next : Nat} {v value : UInt32} {lead : UInt8} (small : v.toNat < 8)
    (origin : leadByte 0xF0 v = lead) (read : utf8Continuation text 3 offset v = some (next, value))
    (least : 0x10000 ≤ value) (most : value ≤ 0x10FFFF) : ∃ bytes, appendUtf8CodePoint value = some bytes ∧
      lead :: text.drop offset = bytes ++ text.drop next ∧ next + 1 = offset + bytes.length := by
  obtain ⟨_, x₁, split₁, upper₁, last₁, number₁, read₁⟩ := utf8Continuation_succ (by omega) read
  obtain ⟨_, x₂, split₂, upper₂, last₂, number₂, read₂⟩ := utf8Continuation_succ (by omega) read₁
  obtain ⟨_, x₃, split₃, upper₃, last₃, number₃, ended⟩ := utf8Continuation_succ (by omega) read₂
  obtain ⟨rfl, rfl⟩ := Prod.mk.inj (Option.some.inj ended)
  have appended := append_four least most
  rw [← (shift_shift _).2, ← (shift_shift _).1, upper₃, last₃, upper₂, last₂, upper₁, last₁, origin] at appended
  exact ⟨_, appended, by rw [split₁, split₂, split₃]; rfl, rfl⟩

theorem append_ascii : ∀ b : UInt8, b < 0x80 → appendUtf8CodePoint b.toUInt32 = some [b] :=
  byte_of_each (by decide +kernel)

theorem decode_sound {text : Bytes} {offset next : Nat} {before codePoint : UInt32}
    (read : decodeUtf8CodePoint text offset before = (true, next, codePoint)) : ∃ bytes,
      appendUtf8CodePoint codePoint = some bytes ∧ text.drop offset = bytes ++ text.drop next ∧
        next = offset + bytes.length := by
  unfold decodeUtf8CodePoint at read
  by_cases outside : offset ≥ text.length
  · simp [outside] at read
  rw [drop_byteAt (not_le.mp outside)]
  simp only [outside, if_false] at read
  by_cases ascii : byteAt text offset < 0x80
  · simp only [ascii, if_true, Prod.mk.injEq, true_and] at read
    obtain ⟨rfl, rfl⟩ := read
    exact ⟨_, append_ascii _ ascii, rfl, rfl⟩
  simp only [ascii, if_false] at read
  cases found : utf8Lead (byteAt text offset) with
  | none => simp [found] at read
  | some announced =>
    simp only [found] at read
    cases continued : utf8Continuation text announced.continuationCount (offset + 1) announced.value with
    | none => simp [continued] at read
    | some result =>
      obtain ⟨reached, value⟩ := result
      simp only [continued] at read
      split_ifs at read with short malformed
      · simp at read
      · simp at read
      · simp only [Prod.mk.injEq, true_and] at read
        obtain ⟨rfl, rfl⟩ := read
        obtain ⟨least, most, scalar⟩ := not_or.mp malformed |>.imp_right not_or.mp
        rcases utf8Lead_cases found with ⟨count, minimum, small, origin⟩ | ⟨count, minimum, small, origin⟩ |
          ⟨count, minimum, small, origin⟩
        · rw [count] at continued
          rw [minimum] at least
          obtain ⟨bytes, appended, split, reached⟩ := decoded_two small origin continued (UInt32.not_lt.mp least)
          exact ⟨bytes, appended, split, by omega⟩
        · rw [count] at continued
          rw [minimum] at least
          obtain ⟨bytes, appended, split, reached⟩ :=
            decoded_three small origin continued (UInt32.not_lt.mp least) scalar
          exact ⟨bytes, appended, split, by omega⟩
        · rw [count] at continued
          rw [minimum] at least
          obtain ⟨bytes, appended, split, reached⟩ :=
            decoded_four small origin continued (UInt32.not_lt.mp least) (UInt32.not_lt.mp most)
          exact ⟨bytes, appended, split, by omega⟩

theorem decodeUtf8CodePoint_inside {text : Bytes} {offset : Nat} (inside : offset < text.length)
    (before after : UInt32) : decodeUtf8CodePoint text offset before = decodeUtf8CodePoint text offset after := by
  simp only [decodeUtf8CodePoint, if_neg (not_le.mpr inside)]

/-- The decoder reads one encoded value off the text, or rejects it. -/
theorem decode_iff {text : Bytes} {offset next : Nat} {before codePoint : UInt32} :
    decodeUtf8CodePoint text offset before = (true, next, codePoint) ↔ ∃ bytes,
      appendUtf8CodePoint codePoint = some bytes ∧ text.drop offset = bytes ++ text.drop next ∧
        next = offset + bytes.length := by
  constructor
  · exact decode_sound
  · intro written
    obtain ⟨bytes, appended, split, rfl⟩ := written
    have width := List.length_pos_iff.mpr (appendUtf8CodePoint_nonempty appended)
    have inside : offset < text.length := by
      have total := congrArg List.length split
      simp only [List.length_drop, List.length_append] at total
      omega
    have reached : (text.take offset).length = offset := List.length_take_of_le inside.le
    have decoded := decode_append appended (text.take offset) (text.drop (offset + bytes.length))
    rw [← split, List.take_append_drop, reached] at decoded
    rw [decodeUtf8CodePoint_inside inside before 0, decoded]

/-- A rejected sequence is all the two copies differ on, in what they leave behind. -/
theorem decode_copies (text : Bytes) (offset : Nat) (before : UInt32) :
    AppleEncoding.decodeUtf8CodePoint text offset before =
      if (decodeUtf8CodePoint text offset before).1 then decodeUtf8CodePoint text offset before
      else (false, offset, before) := by
  unfold AppleEncoding.decodeUtf8CodePoint decodeUtf8CodePoint
  by_cases outside : offset ≥ text.length
  · simp [outside]
  by_cases ascii : byteAt text offset < 0x80
  · simp [outside, ascii]
  simp only [outside, if_false, ascii]
  cases found : utf8Lead (byteAt text offset) with
  | none => simp
  | some announced =>
    by_cases short : offset + 1 + announced.continuationCount > text.length
    · simp [short]
    cases continued : utf8Continuation text announced.continuationCount (offset + 1) announced.value with
    | none => simp [short, continued]
    | some result =>
      obtain ⟨next, value⟩ := result
      by_cases malformed : value < announced.minimumValue ∨ 0x10FFFF < value ∨ (0xD800 ≤ value ∧ value ≤ 0xDFFF)
      · simp [short, continued, malformed]
      · simp [short, continued, malformed]

end ClippProof.Platform
