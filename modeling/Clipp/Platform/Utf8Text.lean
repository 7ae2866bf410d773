import Clipp.Platform.Utf8

open Foundation

namespace ClippModel.Platform

def encodeChar (c : Char) : Bytes := PlatformDetail.appendUtf8CodePoint [] c.val

def isContinuation (b : UInt8) : Bool := b &&& 0xC0 = 0x80

/-- The controls of ASCII, DEL and the controls U+0080 to U+009F. -/
def isControl (codePoint : UInt32) : Prop :=
  codePoint < 0x20 ∨ codePoint = 0x7F ∨ (codePoint ≥ 0x80 ∧ codePoint ≤ 0x9F)

instance (codePoint : UInt32) : Decidable (isControl codePoint) := inferInstanceAs (Decidable (_ ∨ _))

end ClippModel.Platform

namespace ClippProof.Platform

open ClippModel.Registers ClippModel.Platform

theorem append_onto (output : Bytes) (c : Char) :
    PlatformDetail.appendUtf8CodePoint output c.val = output ++ encodeChar c := by
  unfold encodeChar PlatformDetail.appendUtf8CodePoint
  split_ifs <;> rfl

theorem append_char (c : Char) : appendUtf8CodePoint c.val = some (encodeChar c) := by
  have valid := c.valid
  have scalar : ¬ (c.val ≥ 0xD800 ∧ c.val ≤ 0xDFFF) := by
    intro surrogate
    have low : 0xD800 ≤ c.val.toNat := surrogate.1
    have high : c.val.toNat ≤ 0xDFFF := surrogate.2
    rcases valid with below | above
    · omega
    · omega
  have most : c.val ≤ 0x10FFFF := by
    change c.val.toNat ≤ 0x10FFFF
    rcases valid with below | above
    · omega
    · omega
  unfold appendUtf8CodePoint encodeChar PlatformDetail.appendUtf8CodePoint
  split_ifs <;> rfl

theorem char_of_append {codePoint : UInt32} {bytes : Bytes} (appended : appendUtf8CodePoint codePoint = some bytes) :
    ∃ c : Char, c.val = codePoint ∧ encodeChar c = bytes := by
  have valid : codePoint.isValidChar := by
    change codePoint.toNat < 0xD800 ∨ (0xDFFF < codePoint.toNat ∧ codePoint.toNat < 0x110000)
    unfold appendUtf8CodePoint at appended
    split_ifs at appended with one two three surrogate four
    · have bound : codePoint.toNat ≤ 0x7F := one
      omega
    · have bound : codePoint.toNat ≤ 0x7FF := two
      omega
    · have bound : codePoint.toNat ≤ 0xFFFF := three
      have outside : ¬ (0xD800 ≤ codePoint.toNat ∧ codePoint.toNat ≤ 0xDFFF) := surrogate
      omega
    · have large : ¬ codePoint.toNat ≤ 0xFFFF := three
      have bound : codePoint.toNat ≤ 0x10FFFF := four
      omega
  have written := append_char ⟨codePoint, valid⟩
  exact ⟨⟨codePoint, valid⟩, rfl, Option.some.inj (written.symm.trans appended)⟩

theorem lead_continues {lead : UInt8} {bits minimum : UInt32} {count : Nat} (leads : Leads lead bits count minimum) :
    isContinuation lead = false := by
  have each : ∀ b : UInt8, isContinuation b = true → utf8Lead b = none := byte_of_each (by decide +kernel)
  by_contra marked
  have none := each lead (Bool.eq_true_of_not_eq_false marked)
  rw [leads.utf8Lead_eq] at none
  cases none

theorem continuationByte_continues (bits : UInt32) : isContinuation (continuationByte bits) = true :=
  decide_eq_true (continuationByte_spec bits).1

theorem encodeChar_ascii {c : Char} (small : c.val ≤ 0x7F) : encodeChar c = [c.val.toUInt8] := by
  rw [encodeChar, PlatformDetail.appendUtf8CodePoint, if_pos small, List.nil_append]

theorem encodeChar_shape (c : Char) : ∃ lead rest, encodeChar c = lead :: rest ∧ isContinuation lead = false ∧
    ∀ b ∈ rest, isContinuation b = true := by
  have appended := append_char c
  unfold appendUtf8CodePoint at appended
  split_ifs at appended with one two three surrogate four
  · have plain := of_small (P := fun y => isContinuation y.toUInt8 = false) 128 (by decide) c.val
      (Nat.lt_succ_of_le one)
    exact ⟨_, _, encodeChar_ascii one, plain, by simp⟩
  · refine ⟨_, _, (Option.some.inj appended).symm, lead_continues (leads_two two), ?_⟩
    simp [continuationByte_continues]
  · refine ⟨_, _, (Option.some.inj appended).symm, lead_continues (leads_three three), ?_⟩
    simp [continuationByte_continues]
  · refine ⟨_, _, (Option.some.inj appended).symm, lead_continues (leads_four four), ?_⟩
    simp [continuationByte_continues]

theorem decode_char (c : Char) (back : Bytes) :
    decodeUtf8CodePoint (encodeChar c ++ back) 0 0 = (true, (encodeChar c).length, c.val) := by
  have decoded := decode_append (append_char c) [] back
  rwa [List.nil_append, List.length_nil, Nat.zero_add] at decoded

theorem encodeChar_apart {c d : Char} (front : encodeChar c <+: encodeChar d) : c = d := by
  obtain ⟨back, split⟩ := front
  have first := decode_char c back
  have whole := decode_char d []
  rw [List.append_nil, ← split, first] at whole
  apply Char.ext
  exact (Prod.mk.inj (Prod.mk.inj whole).2).2

theorem encodeChar_length (c : Char) : (encodeChar c).length ≤ 4 := by
  unfold encodeChar PlatformDetail.appendUtf8CodePoint
  split_ifs <;> simp

end ClippProof.Platform

namespace ClippModel.Platform

open ClippProof.Platform

def utf8 : CharacterCode Char UInt8 where
  encode := encodeChar
  continues := isContinuation
  shape := encodeChar_shape
  apart := encodeChar_apart

end ClippModel.Platform

namespace ClippProof.Platform

open ClippModel.Registers ClippModel.Platform

@[simp] theorem utf8_encode (c : Char) : utf8.encode c = encodeChar c := rfl

theorem decode_iff_char {text : Bytes} {offset next : Nat} {before codePoint : UInt32} :
    decodeUtf8CodePoint text offset before = (true, next, codePoint) ↔ ∃ c : Char,
      c.val = codePoint ∧ text.drop offset = encodeChar c ++ text.drop next ∧
        next = offset + (encodeChar c).length := by
  rw [decode_iff]
  constructor
  · intro written
    obtain ⟨bytes, appended, split, reached⟩ := written
    obtain ⟨c, value, rfl⟩ := char_of_append appended
    exact ⟨c, value, split, reached⟩
  · intro written
    obtain ⟨c, rfl, split, reached⟩ := written
    exact ⟨encodeChar c, append_char c, split, reached⟩

theorem decode_cons {text : Bytes} {offset : Nat} {c : Char} {chars : List Char}
    (split : text.drop offset = utf8.text (c :: chars)) (before : UInt32) :
    decodeUtf8CodePoint text offset before = (true, offset + (encodeChar c).length, c.val) ∧
      text.drop (offset + (encodeChar c).length) = utf8.text chars := by
  rw [CharacterCode.text_cons, utf8_encode] at split
  have onward : text.drop (offset + (encodeChar c).length) = utf8.text chars := by
    rw [← List.drop_drop, split, List.drop_left]
  exact ⟨decode_iff_char.mpr ⟨c, rfl, by rw [split, onward], rfl⟩, onward⟩

theorem chars_cons {text : Bytes} {offset : Nat} {chars : List Char} (inside : offset < text.length)
    (split : text.drop offset = utf8.text chars) : ∃ c rest, chars = c :: rest := by
  cases chars with
  | nil =>
    have empty := List.drop_eq_nil_iff.mp split
    omega
  | cons c rest => exact ⟨c, rest, rfl⟩

theorem read_splits {text : Bytes} {offset : Nat} {c : Char} {chars : List Char} (inside : offset < text.length)
    (read : decodeUtf8CodePoint text offset 0 = (true, offset + (encodeChar c).length, c.val))
    (split : text.drop offset = utf8.text chars) :
    ∃ others, chars = c :: others ∧ text.drop (offset + (encodeChar c).length) = utf8.text others := by
  obtain ⟨d, others, rfl⟩ := chars_cons inside split
  obtain ⟨decoded, onward⟩ := decode_cons split 0
  rw [read, Prod.mk.injEq, Prod.mk.injEq] at decoded
  obtain ⟨_, reached, value⟩ := decoded
  obtain rfl := Char.ext value
  exact ⟨others, rfl, onward⟩

theorem refused_no_text {text : Bytes} {offset : Nat} {reached : Nat × UInt32} (inside : offset < text.length)
    (read : decodeUtf8CodePoint text offset 0 = (false, reached)) (chars : List Char) :
    text.drop offset ≠ utf8.text chars := by
  intro split
  obtain ⟨c, further, rfl⟩ := chars_cons inside split
  rw [(decode_cons split 0).1] at read
  cases read

example (steps offset : Nat) : decodeLoop decodeUtf8CodePoint [] (steps + 1) offset = some (true, []) := by
  rw [decodeLoop]
  exact if_neg (Nat.not_lt_zero offset)

/-- The loop ends, with every character of the rest read or at its first malformed sequence. -/
theorem decodeLoop_outcome (text : Bytes) (offset : Nat) : ∃ accepted codes,
    (∀ steps, text.length - offset < steps → decodeLoop decodeUtf8CodePoint text steps offset = some (accepted, codes)) ∧
    (accepted = true ↔ ∃ chars : List Char, text.drop offset = utf8.text chars) ∧
    ∀ chars : List Char, text.drop offset = utf8.text chars → codes = chars.map Char.val := by
  induction remaining : text.length - offset using Nat.strong_induction_on generalizing offset with
  | _ rest ih =>
    by_cases inside : offset < text.length
    · cases read : decodeUtf8CodePoint text offset 0 with
      | mk accepted reached =>
        obtain ⟨next, codePoint⟩ := reached
        cases accepted with
        | false =>
          have foreign := refused_no_text inside read
          refine ⟨false, [], ?_, ?_, fun chars split => absurd split (foreign chars)⟩
          · intro steps enough
            obtain ⟨fewer, rfl⟩ := Nat.exists_eq_add_of_lt enough
            rw [decodeLoop, if_pos inside, read]
          · exact iff_of_false Bool.false_ne_true fun written => written.elim fun chars split => foreign chars split
        | true =>
          obtain ⟨c, rfl, front, rfl⟩ := decode_iff_char.mp read
          have width := utf8.encode_length_pos c
          rw [utf8_encode] at width
          obtain ⟨accepted, codes, ends, whole, yields⟩ := ih _ (by omega) (offset + (encodeChar c).length) rfl
          refine ⟨accepted, c.val :: codes, ?_, ?_, ?_⟩
          · intro steps enough
            obtain ⟨fewer, rfl⟩ := Nat.exists_eq_add_of_lt enough
            rw [decodeLoop, if_pos inside, read]
            simp only
            rw [ends _ (by omega), Option.map_some]
          · rw [whole]
            constructor
            · intro written
              obtain ⟨others, split⟩ := written
              exact ⟨c :: others, by rw [front, split, CharacterCode.text_cons, utf8_encode]⟩
            · intro written
              obtain ⟨chars, split⟩ := written
              obtain ⟨others, rfl, onward⟩ := read_splits inside read split
              exact ⟨others, onward⟩
          · intro chars split
            obtain ⟨others, rfl, onward⟩ := read_splits inside read split
            rw [yields others onward, List.map_cons]
    · have past : text.drop offset = [] := List.drop_of_length_le (not_lt.mp inside)
      rw [past]
      refine ⟨true, [], ?_, iff_of_true rfl ⟨[], rfl⟩, ?_⟩
      · intro steps enough
        obtain ⟨fewer, rfl⟩ := Nat.exists_eq_add_of_lt enough
        rw [decodeLoop, if_neg inside]
      · intro chars split
        rw [utf8.text_eq_nil_iff.mp split.symm, List.map_nil]

theorem decodeLoop_copies (text : Bytes) (steps offset : Nat) :
    decodeLoop AppleEncoding.decodeUtf8CodePoint text steps offset = decodeLoop decodeUtf8CodePoint text steps offset := by
  induction steps generalizing offset with
  | zero => rfl
  | succ steps ih =>
    rw [decodeLoop, decodeLoop, decode_copies]
    by_cases inside : offset < text.length
    · rw [if_pos inside, if_pos inside]
      cases read : decodeUtf8CodePoint text offset 0 with
      | mk accepted rest =>
        cases accepted with
        | false => simp
        | true => simp [ih]
    · rw [if_neg inside, if_neg inside]

def wholeText (outcome : Bool × List UInt32) : Option (List UInt32) := if outcome.1 then some outcome.2 else none

theorem utf8ToUtf16From_loop {text : Bytes} {fuel offset : Nat} (enough : text.length ≤ offset + fuel) :
    utf8ToUtf16From text fuel offset =
      (decodeLoop decodeUtf8CodePoint text (fuel + 1) offset).bind wholeText := by
  induction fuel generalizing offset with
  | zero =>
    have past : ¬ offset < text.length := by omega
    rw [utf8ToUtf16From, decodeLoop, if_neg past, if_neg past]
    rfl
  | succ fuel ih =>
    rw [utf8ToUtf16From, decodeLoop]
    by_cases inside : offset < text.length
    · rw [if_pos inside, if_pos inside]
      cases read : decodeUtf8CodePoint text offset 0 with
      | mk accepted reached =>
        cases accepted with
        | false => rfl
        | true =>
          have advanced := decodeUtf8CodePoint_advances read
          simp only
          rw [ih (by omega)]
          cases decodeLoop decodeUtf8CodePoint text (fuel + 1) reached.1 with
          | none => rfl
          | some outcome => cases ended : outcome.1 <;> simp [wholeText, ended]
    · rw [if_neg inside, if_neg inside]
      rfl

theorem utf8ToUtf16From_whole {text : Bytes} {codes : List UInt32} :
    utf8ToUtf16From text text.length 0 = some codes ↔
      ∃ chars : List Char, text = utf8.text chars ∧ codes = chars.map Char.val := by
  obtain ⟨accepted, read, ends, whole, yields⟩ := decodeLoop_outcome text 0
  rw [List.drop_zero] at whole yields
  rw [utf8ToUtf16From_loop (by omega), ends _ (by omega), Option.bind_some, wholeText]
  constructor
  · intro ended
    split_ifs at ended with reached
    obtain rfl := Option.some.inj ended
    obtain ⟨chars, split⟩ := whole.mp reached
    exact ⟨chars, split, yields chars split⟩
  · intro written
    obtain ⟨chars, split, rfl⟩ := written
    rw [if_pos (whole.mpr ⟨chars, split⟩), yields chars split]

theorem posixUtf8ToWide_text (chars : List Char) : posixUtf8ToWide (utf8.text chars) = chars.map Char.val := by
  rw [posixUtf8ToWide, utf8ToUtf16From_whole.mpr ⟨chars, rfl, rfl⟩, Option.getD_some]

theorem posixUtf8ToWide_malformed {text : Bytes} (malformed : ¬ ∃ chars : List Char, text = utf8.text chars) :
    posixUtf8ToWide text = [] := by
  have stopped : utf8ToUtf16From text text.length 0 = none := by
    rw [Option.eq_none_iff_forall_ne_some]
    intro codes read
    obtain ⟨chars, split, -⟩ := utf8ToUtf16From_whole.mp read
    exact malformed ⟨chars, split⟩
  rw [posixUtf8ToWide, stopped, Option.getD_none]

theorem nameAcceptedFrom_loop {name : Bytes} {fuel offset : Nat} (enough : name.length ≤ offset + fuel) :
    nameAcceptedFrom name fuel offset =
      ((utf8ToUtf16From name fuel offset).map fun codes => codes.all fun code => !forbiddenCodePoint code).getD false := by
  induction fuel generalizing offset with
  | zero =>
    have past : ¬ offset < name.length := by omega
    rw [utf8ToUtf16From, if_neg past, nameAcceptedFrom]
    exact decide_eq_true enough
  | succ fuel ih =>
    rw [utf8ToUtf16From, nameAcceptedFrom]
    by_cases inside : offset < name.length
    · rw [if_pos inside, if_pos inside]
      cases read : decodeUtf8CodePoint name offset 0 with
      | mk accepted reached =>
        cases accepted with
        | false => rfl
        | true =>
          have advanced := decodeUtf8CodePoint_advances read
          simp only
          rw [ih (by omega)]
          cases utf8ToUtf16From name fuel reached.1 with
          | none => simp
          | some codes => rfl
    · rw [if_neg inside, if_neg inside]
      rfl

theorem ascii_mem_encodeChar {b : UInt8} {c : Char} (low : b < 0x80) (member : b ∈ encodeChar c) :
    c.val = b.toUInt32 ∧ encodeChar c = [b] := by
  by_cases small : c.val ≤ 0x7F
  · have back := of_small (P := fun y => y.toUInt8.toUInt32 = y) 128 (by decide) c.val (Nat.lt_succ_of_le small)
    rw [encodeChar_ascii small, List.mem_singleton] at member
    rw [encodeChar_ascii small, member]
    exact ⟨back.symm, rfl⟩
  · have high : 0x80 ≤ b := appendUtf8CodePoint_high small (append_char c) b member
    exact absurd low (not_lt.mpr high)

theorem encodeChar_of_byte {b : UInt8} {c : Char} (low : b < 0x80) (value : c.val = b.toUInt32) : encodeChar c = [b] := by
  have appended := append_char c
  rw [value, append_ascii b low] at appended
  exact (Option.some.inj appended).symm

theorem text_head?_ascii {b : UInt8} {c : Char} {chars : List Char} (low : b < 0x80) (value : c.val = b.toUInt32) :
    (utf8.text chars).head? = some b ↔ chars.head? = some c := by
  cases chars with
  | nil => simp
  | cons d chars =>
    have width := List.length_pos_iff.mp (utf8.encode_length_pos d)
    rw [CharacterCode.text_cons, List.head?_append_of_ne_nil _ width, List.head?_cons, utf8_encode, Option.some.injEq]
    constructor
    · intro first
      have found := (ascii_mem_encodeChar low (List.mem_of_head? first)).1
      exact Char.ext (found.trans value.symm)
    · rintro rfl
      rw [encodeChar_of_byte low value, List.head?_cons]

theorem text_getLast?_ascii {b : UInt8} {c : Char} {chars : List Char} (low : b < 0x80) (value : c.val = b.toUInt32) :
    (utf8.text chars).getLast? = some b ↔ chars.getLast? = some c := by
  induction chars using List.reverseRecOn with
  | nil => simp
  | append_singleton chars d _ =>
    have width := List.length_pos_iff.mp (utf8.encode_length_pos d)
    rw [CharacterCode.text_append, CharacterCode.text_cons, CharacterCode.text_nil, List.append_nil,
      List.getLast?_append_of_ne_nil _ width, List.getLast?_concat, utf8_encode, Option.some.injEq]
    constructor
    · intro final
      have found := (ascii_mem_encodeChar low (List.mem_of_getLast? final)).1
      exact Char.ext (found.trans value.symm)
    · rintro rfl
      rw [encodeChar_of_byte low value, List.getLast?_singleton]

def NameChar (c : Char) : Prop := ¬ isControl c.val ∧ c ≠ '?' ∧ c ≠ '*' ∧ c ≠ '/'

theorem forbidden_iff (c : Char) : (!forbiddenCodePoint c.val) = true ↔ NameChar c := by
  have same : ∀ d : Char, c = d ↔ c.val = d.val := fun d => Char.ext_iff
  rw [NameChar, isControl, ne_eq, ne_eq, ne_eq, same, same, same, Bool.not_eq_true', forbiddenCodePoint,
    decide_eq_false_iff_not]
  change ¬ (_ ∨ _ ∨ _ ∨ c.val = 0x3F ∨ c.val = 0x2A ∨ c.val = 0x2F) ↔
    ¬ _ ∧ ¬ c.val = 0x3F ∧ ¬ c.val = 0x2A ∧ ¬ c.val = 0x2F
  tauto

theorem validName_iff (name : Bytes) : isValidRegisterName name = true ↔ ∃ chars : List Char,
    name = utf8.text chars ∧ 1 ≤ name.length ∧ name.length ≤ 64 ∧ (∀ c ∈ chars, NameChar c) ∧
      chars.head? ≠ some ' ' ∧ chars.getLast? ≠ some ' ' := by
  have read := nameAcceptedFrom_loop (show name.length ≤ 0 + name.length by omega)
  have head : ∀ chars : List Char, (utf8.text chars).head? = some 0x20 ↔ chars.head? = some ' ' :=
    fun chars => text_head?_ascii (by decide) rfl
  have last : ∀ chars : List Char, (utf8.text chars).getLast? = some 0x20 ↔ chars.getLast? = some ' ' :=
    fun chars => text_getLast?_ascii (by decide) rfl
  constructor
  · intro valid
    have nonempty := List.length_pos_iff.mpr (validName_ne_nil valid)
    have short := validName_length valid
    unfold isValidRegisterName at valid
    split_ifs at valid with shape spaced
    rw [read] at valid
    cases codes : utf8ToUtf16From name name.length 0 with
    | none => simp [codes] at valid
    | some units =>
      obtain ⟨chars, rfl, rfl⟩ := utf8ToUtf16From_whole.mp codes
      rw [codes, Option.map_some, Option.getD_some, List.all_map, List.all_eq_true] at valid
      rw [not_or, head, last] at spaced
      exact ⟨chars, rfl, nonempty, short, fun c member => (forbidden_iff c).mp (valid c member), spaced⟩
  · intro written
    obtain ⟨chars, rfl, nonempty, short, allowed, spaced⟩ := written
    have shape : ¬ ((utf8.text chars).isEmpty = true ∨ (utf8.text chars).length > 64) := by
      rintro (empty | long)
      · rw [List.isEmpty_iff.mp empty] at nonempty
        exact absurd nonempty (by decide)
      · omega
    rw [isValidRegisterName, if_neg shape, if_neg (by rw [not_or, head, last]; exact spaced), read,
      utf8ToUtf16From_whole.mpr ⟨chars, rfl, rfl⟩, Option.map_some, Option.getD_some, List.all_map, List.all_eq_true]
    exact fun c member => (forbidden_iff c).mpr (allowed c member)

/-- Both decoders read exactly the encodings of scalar values, and names are made of them. -/
theorem utf8_exact (text : Bytes) :
    (∃ accepted codes,
      (∀ steps, text.length < steps → decodeLoop decodeUtf8CodePoint text steps 0 = some (accepted, codes)) ∧
      (∀ steps, text.length < steps →
        decodeLoop AppleEncoding.decodeUtf8CodePoint text steps 0 = some (accepted, codes)) ∧
      (accepted = true ↔ ∃ chars : List Char, text = utf8.text chars) ∧
      ∀ chars : List Char, text = utf8.text chars → codes = chars.map Char.val) ∧
    (isValidRegisterName text = true ↔ ∃ chars : List Char,
      text = utf8.text chars ∧ 1 ≤ text.length ∧ text.length ≤ 64 ∧ (∀ c ∈ chars, NameChar c) ∧
        chars.head? ≠ some ' ' ∧ chars.getLast? ≠ some ' ') := by
  obtain ⟨accepted, codes, ends, whole, yields⟩ := decodeLoop_outcome text 0
  have copies := fun steps => decodeLoop_copies text steps 0
  rw [List.drop_zero] at whole yields
  refine ⟨⟨accepted, codes, ends, ?_, whole, yields⟩, validName_iff text⟩
  intro steps enough
  rw [copies, ends steps enough]

end ClippProof.Platform
