import Clipp.Foundation.ByteOrder
import Clipp.Foundation.FixedWidth

open Foundation

namespace ClippModel.Registers

def byteAt (text : Bytes) (index : Nat) : UInt8 := text[index]?.getD 0

structure Utf8Lead where
  value : UInt32
  continuationCount : Nat
  minimumValue : UInt32

def utf8Lead (lead : UInt8) : Option Utf8Lead :=
  if lead &&& 0xE0 = 0xC0 then some ⟨(lead &&& 0x1F).toUInt32, 1, 0x80⟩
  else if lead &&& 0xF0 = 0xE0 then some ⟨(lead &&& 0x0F).toUInt32, 2, 0x800⟩
  else if lead &&& 0xF8 = 0xF0 then some ⟨(lead &&& 0x07).toUInt32, 3, 0x10000⟩
  else none

def utf8Continuation (text : Bytes) : Nat → Nat → UInt32 → Option (Nat × UInt32)
  | 0, offset, value => some (offset, value)
  | count + 1, offset, value =>
    let next := byteAt text offset
    if next &&& 0xC0 ≠ 0x80 then none
    else utf8Continuation text count (offset + 1) ((value <<< 6) ||| (next &&& 0x3F).toUInt32)

/-- Result, offset and code point as the two in-out parameters leave them. -/
def decodeUtf8CodePoint (text : Bytes) (offset : Nat) (codePoint : UInt32) : Bool × Nat × UInt32 :=
  if offset ≥ text.length then (false, offset, codePoint)
  else
    let lead := byteAt text offset
    let rejected := (false, offset + 1, lead.toUInt32)
    if lead < 0x80 then (true, offset + 1, lead.toUInt32)
    else match utf8Lead lead with
      | none => rejected
      | some announced =>
        if offset + 1 + announced.continuationCount > text.length then rejected
        else match utf8Continuation text announced.continuationCount (offset + 1) announced.value with
          | none => rejected
          | some (next, value) =>
            if value < announced.minimumValue ∨ value > 0x10FFFF ∨ (value ≥ 0xD800 ∧ value ≤ 0xDFFF)
            then rejected
            else (true, next, value)

def forbiddenCodePoint (codePoint : UInt32) : Bool :=
  codePoint < 0x20 ∨ codePoint = 0x7F ∨ (codePoint ≥ 0x80 ∧ codePoint ≤ 0x9F) ∨
    codePoint = 0x3F ∨ codePoint = 0x2A ∨ codePoint = 0x2F

def nameAcceptedFrom (name : Bytes) : Nat → Nat → Bool
  | 0, offset => offset ≥ name.length
  | fuel + 1, offset =>
    if offset < name.length then
      match decodeUtf8CodePoint name offset 0 with
      | (false, _, _) => false
      | (true, next, codePoint) => !forbiddenCodePoint codePoint && nameAcceptedFrom name fuel next
    else true

def isValidRegisterName (name : Bytes) : Bool :=
  if name.isEmpty ∨ name.length > 64 then false
  else if name.head? = some 0x20 ∨ name.getLast? = some 0x20 then false
  else nameAcceptedFrom name name.length 0

theorem utf8Continuation_advances {text : Bytes} {count offset next : Nat} {start value : UInt32}
    (read : utf8Continuation text count offset start = some (next, value)) : next = offset + count := by
  induction count generalizing offset start with
  | zero =>
    simp only [utf8Continuation, Option.some.injEq, Prod.mk.injEq] at read
    omega
  | succ count ih =>
    simp only [utf8Continuation] at read
    split_ifs at read
    have := ih read
    omega

theorem decodeUtf8CodePoint_advances {text : Bytes} {offset next : Nat} {before codePoint : UInt32}
    (read : decodeUtf8CodePoint text offset before = (true, next, codePoint)) : offset < next := by
  unfold decodeUtf8CodePoint at read
  by_cases outside : offset ≥ text.length
  · simp [outside] at read
  simp only [outside, if_false] at read
  by_cases ascii : byteAt text offset < 0x80
  · simp only [ascii, if_true, Prod.mk.injEq] at read
    omega
  simp only [ascii, if_false] at read
  cases announced : utf8Lead (byteAt text offset) with
  | none => simp [announced] at read
  | some lead =>
    simp only [announced] at read
    cases continued : utf8Continuation text lead.continuationCount (offset + 1) lead.value with
    | none => simp [continued] at read
    | some result =>
      obtain ⟨reached, value⟩ := result
      have advanced := utf8Continuation_advances continued
      simp only [continued] at read
      split_ifs at read with short malformed
      · simp at read
      · simp at read
      · simp only [Prod.mk.injEq] at read
        omega

theorem validName_ne_nil {name : Bytes} (valid : isValidRegisterName name = true) : name ≠ [] := by
  rintro rfl
  exact absurd valid (by decide)

theorem validName_length {name : Bytes} (valid : isValidRegisterName name = true) :
    name.length ≤ 64 := by
  unfold isValidRegisterName at valid
  split_ifs at valid with shape
  omega

theorem lowercase_accepted (name : Bytes) (lower : ∀ b ∈ name, 0x61 ≤ b.toNat ∧ b.toNat ≤ 0x7A) {fuel offset : Nat}
    (enough : name.length ≤ offset + fuel) : nameAcceptedFrom name fuel offset = true := by
  induction fuel generalizing offset with
  | zero =>
    rw [nameAcceptedFrom, decide_eq_true_iff]
    omega
  | succ fuel ih =>
    by_cases inside : offset < name.length
    · have here : byteAt name offset = name[offset] := by simp [byteAt, inside]
      have bounds := lower name[offset] (List.getElem_mem inside)
      have ascii : byteAt name offset < 0x80 := by
        rw [here, UInt8.lt_iff_toNat_lt]
        exact lt_of_le_of_lt bounds.2 (by decide)
      have decoded : decodeUtf8CodePoint name offset 0 = (true, offset + 1, (byteAt name offset).toUInt32) := by
        simp only [decodeUtf8CodePoint, ascii, if_true, ge_iff_le, not_le.mpr inside, if_false]
      have code : (byteAt name offset).toUInt32.toNat = name[offset].toNat := by rw [here, UInt8.toNat_toUInt32]
      have allowed : forbiddenCodePoint (byteAt name offset).toUInt32 = false := by
        simp only [forbiddenCodePoint, UInt32.lt_iff_toNat_lt, ge_iff_le, UInt32.le_iff_toNat_le,
          ← UInt32.toNat_inj, code, decide_eq_false_iff_not]
        simp
        omega
      simp only [nameAcceptedFrom, inside, if_true, decoded, allowed, Bool.not_false, Bool.true_and]
      exact ih (by omega)
    · simp only [nameAcceptedFrom, inside, if_false]

theorem lowercase_valid {name : Bytes} (lower : ∀ b ∈ name, 0x61 ≤ b.toNat ∧ b.toNat ≤ 0x7A) (nonempty : name ≠ [])
    (short : name.length ≤ 64) : isValidRegisterName name = true := by
  have noSpace : ∀ b ∈ name, b ≠ 0x20 := by
    rintro b member rfl
    exact absurd (lower _ member).1 (by decide)
  have head : name.head? ≠ some 0x20 := fun first => noSpace _ (List.mem_of_head? first) rfl
  have last : name.getLast? ≠ some 0x20 := fun final => noSpace _ (List.mem_of_getLast? final) rfl
  have shape : ¬ (name.isEmpty = true ∨ name.length > 64) := by
    simp [nonempty, short]
  rw [isValidRegisterName, if_neg shape, if_neg (not_or.mpr ⟨head, last⟩)]
  exact lowercase_accepted name lower (by omega)

end ClippModel.Registers
