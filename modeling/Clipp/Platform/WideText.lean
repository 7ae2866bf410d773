import Clipp.Registers.Name

open Foundation

namespace ClippModel.Platform

open ClippModel.Registers

/-- A platform's wide strings. ASCII text is converted unit by unit, both ways. -/
structure WideText (U : Type) where
  ofAscii : UInt8 → U
  wideToUtf8String : List U → Bytes
  utf8ToWideString : Bytes → List U
  toUtf8_ascii : ∀ text : Bytes, (∀ b ∈ text, b < 0x80) → wideToUtf8String (text.map ofAscii) = text
  toWide_ascii : ∀ text : Bytes, (∀ b ∈ text, b < 0x80) → utf8ToWideString text = text.map ofAscii

/-- Four-byte units, as on macOS and Linux. -/
def utf8ToUtf16From (utf8 : Bytes) : Nat → Nat → Option (List UInt32)
  | 0, inputOffset => if inputOffset < utf8.length then none else some []
  | fuel + 1, inputOffset =>
    if inputOffset < utf8.length then
      match decodeUtf8CodePoint utf8 inputOffset 0 with
      | (false, _, _) => none
      | (true, next, codePoint) => (utf8ToUtf16From utf8 fuel next).map (codePoint :: ·)
    else some []

def posixUtf8ToWide (utf8 : Bytes) : List UInt32 := (utf8ToUtf16From utf8 utf8.length 0).getD []

def leadByte (marker bits : UInt32) : UInt8 := (marker ||| bits).toUInt8

def continuationByte (bits : UInt32) : UInt8 := (0x80 ||| (bits &&& 0x3F)).toUInt8

def appendUtf8CodePoint (codePoint : UInt32) : Option Bytes :=
  if codePoint ≤ 0x7F then some [codePoint.toUInt8]
  else if codePoint ≤ 0x7FF then some [leadByte 0xC0 (codePoint >>> 6), continuationByte codePoint]
  else if codePoint ≤ 0xFFFF then
    if codePoint ≥ 0xD800 ∧ codePoint ≤ 0xDFFF then none
    else some [leadByte 0xE0 (codePoint >>> 12), continuationByte (codePoint >>> 6), continuationByte codePoint]
  else if codePoint ≤ 0x10FFFF then
    some [leadByte 0xF0 (codePoint >>> 18), continuationByte (codePoint >>> 12),
      continuationByte (codePoint >>> 6), continuationByte codePoint]
  else none

def utf16ToUtf8 : List UInt32 → Option Bytes
  | [] => some []
  | codePoint :: rest => do
    let bytes ← appendUtf8CodePoint codePoint
    let others ← utf16ToUtf8 rest
    return bytes ++ others

def posixWideToUtf8 (utf16 : List UInt32) : Bytes := (utf16ToUtf8 utf16).getD []

end ClippModel.Platform

namespace ClippProof.Platform

open ClippModel.Registers ClippModel.Platform

theorem shift_or_low (x : UInt32) : ((x >>> 6) <<< 6) ||| (x &&& 0x3F) = x := by
  apply UInt32.toNat_inj.mp
  have small := x.toNat_lt
  have low : x.toNat &&& 63 = x.toNat % 2 ^ 6 := Nat.and_two_pow_sub_one_eq_mod x.toNat 6
  have whole := Nat.shiftLeft_add_eq_or_of_lt (Nat.mod_lt x.toNat (by decide : 2 ^ 6 > 0)) (x.toNat >>> 6)
  have inside : (x.toNat >>> 6) <<< 6 < 2 ^ 32 := by
    rw [Nat.shiftRight_eq_div_pow, Nat.shiftLeft_eq]
    omega
  simp only [UInt32.toNat_or, UInt32.toNat_shiftLeft, UInt32.toNat_shiftRight, UInt32.toNat_and]
  change (x.toNat >>> 6) <<< 6 % 2 ^ 32 ||| x.toNat &&& 63 = x.toNat
  rw [Nat.mod_eq_of_lt inside, low, ← whole, Nat.shiftRight_eq_div_pow, Nat.shiftLeft_eq]
  omega

theorem shift_shift (x : UInt32) : (x >>> 6) >>> 6 = x >>> 12 ∧ (x >>> 12) >>> 6 = x >>> 18 := by
  constructor
  · apply UInt32.toNat_inj.mp
    simp only [UInt32.toNat_shiftRight]
    exact (Nat.shiftRight_add x.toNat 6 6).symm
  · apply UInt32.toNat_inj.mp
    simp only [UInt32.toNat_shiftRight]
    exact (Nat.shiftRight_add x.toNat 12 6).symm

theorem of_small {P : UInt32 → Prop} (bound : Nat) (each : ∀ n < bound, P (UInt32.ofNat n)) (x : UInt32)
    (small : x.toNat < bound) : P x := by
  have holds := each x.toNat small
  rwa [UInt32.ofNat_toNat] at holds

theorem continuationByte_spec (bits : UInt32) : continuationByte bits &&& 0xC0 = 0x80 ∧
    (continuationByte bits &&& 0x3F).toUInt32 = bits &&& 0x3F ∧ 0x80 ≤ continuationByte bits := by
  have small : (bits &&& 0x3F).toNat < 64 := by
    have low : bits.toNat &&& 63 = bits.toNat % 2 ^ 6 := Nat.and_two_pow_sub_one_eq_mod bits.toNat 6
    rw [UInt32.toNat_and]
    change bits.toNat &&& 63 < 64
    omega
  exact of_small (P := fun x => (0x80 ||| x).toUInt8 &&& 0xC0 = 0x80 ∧
    ((0x80 ||| x).toUInt8 &&& 0x3F).toUInt32 = x ∧ 0x80 ≤ (0x80 ||| x).toUInt8) 64 (by decide) _ small

/-- What the decoder reads off a lead byte of `count` continuation bytes. -/
def Leads (lead : UInt8) (bits : UInt32) (count : Nat) (minimum : UInt32) : Prop :=
  0x80 ≤ lead ∧ (utf8Lead lead).map (fun l => (l.value, l.continuationCount, l.minimumValue)) =
    some (bits, count, minimum)

instance (lead : UInt8) (bits : UInt32) (count : Nat) (minimum : UInt32) :
    Decidable (Leads lead bits count minimum) := inferInstanceAs (Decidable (_ ∧ _))

theorem Leads.utf8Lead_eq {lead : UInt8} {bits minimum : UInt32} {count : Nat}
    (leads : Leads lead bits count minimum) : utf8Lead lead = some ⟨bits, count, minimum⟩ := by
  obtain ⟨announced, found, fields⟩ := Option.map_eq_some_iff.mp leads.2
  obtain ⟨rfl, rest⟩ := Prod.mk.inj fields
  obtain ⟨rfl, rfl⟩ := Prod.mk.inj rest
  exact found

theorem shiftRight_lt {x : UInt32} (bits : Nat) {bound : Nat} (small : bits < 32) (below : x.toNat < bound * 2 ^ bits) :
    (x >>> UInt32.ofNat bits).toNat < bound := by
  have amount : (UInt32.ofNat bits).toNat = bits := UInt32.toNat_ofNat_of_lt' (small.trans (by decide))
  rw [UInt32.toNat_shiftRight, amount, Nat.mod_eq_of_lt small, Nat.shiftRight_eq_div_pow]
  exact Nat.div_lt_of_lt_mul (by rwa [Nat.mul_comm])

theorem leads_two {x : UInt32} (below : x ≤ 0x7FF) : Leads (leadByte 0xC0 (x >>> 6)) (x >>> 6) 1 0x80 := by
  have bound : x.toNat ≤ 0x7FF := below
  exact of_small (P := fun y => Leads (leadByte 0xC0 y) y 1 0x80) 32 (by decide) _
    (shiftRight_lt 6 (by decide) (by omega))

theorem leads_three {x : UInt32} (below : x ≤ 0xFFFF) : Leads (leadByte 0xE0 (x >>> 12)) (x >>> 12) 2 0x800 := by
  have bound : x.toNat ≤ 0xFFFF := below
  exact of_small (P := fun y => Leads (leadByte 0xE0 y) y 2 0x800) 16 (by decide) _
    (shiftRight_lt 12 (by decide) (by omega))

theorem leads_four {x : UInt32} (below : x ≤ 0x10FFFF) : Leads (leadByte 0xF0 (x >>> 18)) (x >>> 18) 3 0x10000 := by
  have bound : x.toNat ≤ 0x10FFFF := below
  exact of_small (P := fun y => Leads (leadByte 0xF0 y) y 3 0x10000) 5 (by decide) _
    (shiftRight_lt 18 (by decide) (by omega))

theorem byteAt_append (front : Bytes) (b : UInt8) (back : Bytes) : byteAt (front ++ b :: back) front.length = b := by
  simp [byteAt]

theorem continuation_step (front back : Bytes) (bits value : UInt32) (count : Nat) :
    utf8Continuation (front ++ continuationByte bits :: back) (count + 1) front.length value =
      utf8Continuation (front ++ continuationByte bits :: back) count (front.length + 1)
        ((value <<< 6) ||| (bits &&& 0x3F)) := by
  obtain ⟨marked, kept, -⟩ := continuationByte_spec bits
  rw [utf8Continuation, byteAt_append]
  simp only [marked, kept, ne_eq, not_true_eq_false, if_false]

theorem decode_announced {front back : Bytes} {lead : UInt8} (conts : Bytes) {bits minimum codePoint : UInt32}
    (leads : Leads lead bits conts.length minimum)
    (read : utf8Continuation (front ++ lead :: (conts ++ back)) conts.length (front.length + 1) bits =
      some (front.length + 1 + conts.length, codePoint))
    (least : minimum ≤ codePoint) (most : codePoint ≤ 0x10FFFF) (scalar : ¬ (codePoint ≥ 0xD800 ∧ codePoint ≤ 0xDFFF)) :
    decodeUtf8CodePoint (front ++ lead :: (conts ++ back)) front.length 0 =
      (true, front.length + 1 + conts.length, codePoint) := by
  have inside : ¬ front.length ≥ (front ++ lead :: (conts ++ back)).length := by simp
  have whole : ¬ front.length + 1 + conts.length > (front ++ lead :: (conts ++ back)).length := by
    simp only [List.length_append, List.length_cons]
    omega
  have high : ¬ lead < 0x80 := not_lt.mpr leads.1
  have valid : ¬ (codePoint < minimum ∨ codePoint > 0x10FFFF ∨ (codePoint ≥ 0xD800 ∧ codePoint ≤ 0xDFFF)) := by
    rintro (less | more | surrogate)
    · exact UInt32.not_lt.mpr least less
    · exact UInt32.not_lt.mpr most more
    · exact scalar surrogate
  simp only [decodeUtf8CodePoint, if_neg inside, byteAt_append, if_neg high, leads.utf8Lead_eq, if_neg whole, read,
    if_neg valid]

theorem continuations_two (front back : Bytes) (lead : UInt8) (x : UInt32) :
    utf8Continuation (front ++ lead :: ([continuationByte x] ++ back)) 1 (front.length + 1) (x >>> 6) =
      some (front.length + 1 + 1, x) := by
  have first := continuation_step (front ++ [lead]) back x (x >>> 6) 0
  simp only [List.append_assoc, List.singleton_append, List.length_append, List.length_singleton] at first ⊢
  rw [first, shift_or_low, utf8Continuation]

theorem continuations_three (front back : Bytes) (lead : UInt8) (x : UInt32) :
    utf8Continuation (front ++ lead :: ([continuationByte (x >>> 6), continuationByte x] ++ back)) 2
      (front.length + 1) (x >>> 12) = some (front.length + 1 + 2, x) := by
  have first := continuation_step (front ++ [lead]) (continuationByte x :: back) (x >>> 6) (x >>> 12) 1
  have onward := continuations_two (front ++ [lead]) back (continuationByte (x >>> 6)) x
  rw [← (shift_shift x).1, shift_or_low] at first
  simp only [List.append_assoc, List.cons_append, List.nil_append, List.length_append,
    List.length_singleton] at first onward ⊢
  rw [← (shift_shift x).1, first, onward]

theorem continuations_four (front back : Bytes) (lead : UInt8) (x : UInt32) :
    utf8Continuation
      (front ++ lead :: ([continuationByte (x >>> 12), continuationByte (x >>> 6), continuationByte x] ++ back)) 3
      (front.length + 1) (x >>> 18) = some (front.length + 1 + 3, x) := by
  have first := continuation_step (front ++ [lead]) (continuationByte (x >>> 6) :: continuationByte x :: back)
    (x >>> 12) (x >>> 18) 2
  have onward := continuations_three (front ++ [lead]) back (continuationByte (x >>> 12)) x
  rw [← (shift_shift x).2, shift_or_low] at first
  simp only [List.append_assoc, List.cons_append, List.nil_append, List.length_append,
    List.length_singleton] at first onward ⊢
  rw [← (shift_shift x).2, first, onward]

theorem decode_append {codePoint : UInt32} {bytes : Bytes} (appended : appendUtf8CodePoint codePoint = some bytes)
    (front back : Bytes) : decodeUtf8CodePoint (front ++ (bytes ++ back)) front.length 0 =
      (true, front.length + bytes.length, codePoint) := by
  unfold appendUtf8CodePoint at appended
  split_ifs at appended with one two three surrogate four
  · obtain rfl := Option.some.inj appended
    have inside : ¬ front.length ≥ (front ++ codePoint.toUInt8 :: back).length := by simp
    have byte : codePoint.toUInt8 < 0x80 ∧ codePoint.toUInt8.toUInt32 = codePoint :=
      of_small (P := fun y => y.toUInt8 < 0x80 ∧ y.toUInt8.toUInt32 = y) 128 (by decide) _ (Nat.lt_succ_of_le one)
    simp only [decodeUtf8CodePoint, List.singleton_append, if_neg inside, byteAt_append, if_pos byte.1, byte.2,
      List.length_singleton]
  · obtain rfl := Option.some.inj appended
    have least : 0x80 ≤ codePoint := UInt32.not_le.mp one
    have most : codePoint ≤ 0x10FFFF := UInt32.le_trans two (by decide)
    have scalar : ¬ (codePoint ≥ 0xD800 ∧ codePoint ≤ 0xDFFF) := fun high =>
      absurd (UInt32.le_trans high.1 two) (by decide)
    exact decode_announced [continuationByte codePoint] (leads_two two)
      (continuations_two front back _ codePoint) least most scalar
  · obtain rfl := Option.some.inj appended
    have least : 0x800 ≤ codePoint := UInt32.not_le.mp two
    have most : codePoint ≤ 0x10FFFF := UInt32.le_trans three (by decide)
    exact decode_announced [continuationByte (codePoint >>> 6), continuationByte codePoint]
      (leads_three three) (continuations_three front back _ codePoint) least most surrogate
  · obtain rfl := Option.some.inj appended
    have least : 0x10000 ≤ codePoint := UInt32.not_le.mp three
    have scalar : ¬ (codePoint ≥ 0xD800 ∧ codePoint ≤ 0xDFFF) := fun high =>
      absurd (UInt32.le_trans least high.2) (by decide)
    exact decode_announced
      [continuationByte (codePoint >>> 12), continuationByte (codePoint >>> 6), continuationByte codePoint]
      (leads_four four) (continuations_four front back _ codePoint) least four scalar

theorem appendUtf8CodePoint_nonempty {codePoint : UInt32} {bytes : Bytes}
    (appended : appendUtf8CodePoint codePoint = some bytes) : bytes ≠ [] := by
  unfold appendUtf8CodePoint at appended
  split_ifs at appended <;> exact Option.some.inj appended ▸ List.cons_ne_nil _ _

theorem appendUtf8CodePoint_high {unit : UInt32} {bytes : Bytes} (large : ¬ unit ≤ 0x7F)
    (appended : appendUtf8CodePoint unit = some bytes) : ∀ b ∈ bytes, 0x80 ≤ b := by
  have continues : ∀ bits, 0x80 ≤ continuationByte bits := fun bits => (continuationByte_spec bits).2.2
  simp only [appendUtf8CodePoint, if_neg large] at appended
  split_ifs at appended with two three surrogate four
  · obtain rfl := Option.some.inj appended
    simp [continues, (leads_two two).1]
  · obtain rfl := Option.some.inj appended
    simp [continues, (leads_three three).1]
  · obtain rfl := Option.some.inj appended
    simp [continues, (leads_four four).1]

theorem utf16ToUtf8_cons {codePoint : UInt32} {units : List UInt32} {bytes : Bytes}
    (encoded : utf16ToUtf8 (codePoint :: units) = some bytes) : ∃ first others,
      appendUtf8CodePoint codePoint = some first ∧ utf16ToUtf8 units = some others ∧ bytes = first ++ others := by
  simp only [utf16ToUtf8, Option.bind_eq_bind, Option.bind_eq_some_iff, Option.pure_def, Option.some.injEq] at encoded
  obtain ⟨first, appended, others, encoded, rfl⟩ := encoded
  exact ⟨first, others, appended, encoded, rfl⟩

theorem utf8ToUtf16From_encoded (front : Bytes) (units : List UInt32) (bytes : Bytes)
    (encoded : utf16ToUtf8 units = some bytes) (fuel : Nat) (enough : bytes.length ≤ fuel) :
    utf8ToUtf16From (front ++ bytes) fuel front.length = some units := by
  induction units generalizing front bytes fuel with
  | nil =>
    obtain rfl := Option.some.inj encoded
    have ended : ¬ front.length < (front ++ ([] : Bytes)).length := by simp
    cases fuel <;> exact if_neg ended
  | cons codePoint units ih =>
    obtain ⟨first, others, appended, further, rfl⟩ := utf16ToUtf8_cons encoded
    have width := List.length_pos_iff.mpr (appendUtf8CodePoint_nonempty appended)
    rw [List.length_append] at enough
    cases fuel with
    | zero => omega
    | succ fuel =>
      have inside : front.length < (front ++ (first ++ others)).length := by
        simp only [List.length_append]
        omega
      have decoded := decode_append appended front others
      have onward := ih (front ++ first) others further fuel (by omega)
      rw [List.append_assoc, List.length_append] at onward
      simp only [utf8ToUtf16From, if_pos inside, decoded, onward, Option.map_some]

theorem posixUtf8ToWide_posixWideToUtf8 (units : List UInt32) :
    posixUtf8ToWide (posixWideToUtf8 units) = if (utf16ToUtf8 units).isSome then units else [] := by
  cases encoded : utf16ToUtf8 units with
  | none =>
    rw [posixWideToUtf8, encoded]
    rfl
  | some bytes =>
    have decoded := utf8ToUtf16From_encoded [] units bytes encoded bytes.length le_rfl
    rw [List.nil_append, List.length_nil] at decoded
    simp only [posixUtf8ToWide, posixWideToUtf8, encoded, Option.getD_some, decoded, Option.isSome_some, if_true]

theorem utf16ToUtf8_ascii (text : Bytes) (plain : ∀ b ∈ text, b < 0x80) :
    utf16ToUtf8 (text.map UInt8.toUInt32) = some text := by
  induction text with
  | nil => rfl
  | cons b text ih =>
    have low : b.toUInt32 ≤ 0x7F := Nat.le_of_lt_succ (plain b (List.mem_cons_self ..))
    have further := ih fun b member => plain b (List.mem_cons_of_mem _ member)
    simp only [List.map_cons, utf16ToUtf8, appendUtf8CodePoint, if_pos low, further, Option.bind_eq_bind,
      Option.bind_some, Option.pure_def, UInt8.toUInt8_toUInt32, List.singleton_append]

end ClippProof.Platform

namespace ClippModel.Platform

open ClippProof.Platform

def posix : WideText UInt32 where
  ofAscii := UInt8.toUInt32
  wideToUtf8String := posixWideToUtf8
  utf8ToWideString := posixUtf8ToWide
  toUtf8_ascii text plain := by rw [posixWideToUtf8, utf16ToUtf8_ascii text plain, Option.getD_some]
  toWide_ascii text plain := by
    have encoded := utf16ToUtf8_ascii text plain
    have back := posixUtf8ToWide_posixWideToUtf8 (text.map UInt8.toUInt32)
    rwa [posixWideToUtf8, encoded, Option.getD_some, Option.isSome_some, if_pos rfl] at back

end ClippModel.Platform
