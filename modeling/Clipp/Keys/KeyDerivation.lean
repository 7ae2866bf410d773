import Clipp.Foundation.LooseText
import Clipp.Platform.Utf8Text

open Foundation

namespace ClippModel.Keys

open ClippModel.Registers ClippModel.Platform

/-- The apostrophes, quotation marks, spaces and hyphens that are typed for one another. -/
def foldKeyDerivationCodePoint (codePoint : UInt32) : Option UInt8 :=
  if codePoint ∈ [0x0060, 0x00B4, 0x02BC, 0x2018, 0x2019, 0x201A, 0x201B, 0x2032, 0x2035, 0xFF07] then some 0x27
  else if codePoint ∈ [0x201C, 0x201D, 0x201E, 0x201F, 0x2033, 0x2036, 0xFF02] then some 0x22
  else if codePoint ∈ [0x00A0, 0x1680, 0x202F, 0x205F, 0x3000] then some 0x20
  else if codePoint ∈ [0x2010, 0x2011, 0x2012, 0x2013, 0x2014, 0x2015, 0x2212, 0xFE58, 0xFE63, 0xFF0D] then some 0x2D
  else if codePoint ≥ 0x2000 ∧ codePoint ≤ 0x200A then some 0x20
  else none

/-- The loop from an offset on; a byte that begins no character is copied. -/
def foldTextFrom (text : Bytes) : Nat → Nat → Bytes → Bytes
  | 0, _, output => output
  | fuel + 1, offset, output =>
    if offset < text.length then
      match decodeUtf8CodePoint text offset 0 with
      -- The decoder has moved the offset behind the byte it refused.
      | (false, next, _) => foldTextFrom text fuel next (output ++ [byteAt text offset])
      | (true, next, codePoint) =>
        match foldKeyDerivationCodePoint codePoint with
        | some folded => foldTextFrom text fuel next (output ++ [folded])
        | none => foldTextFrom text fuel next (PlatformDetail.appendUtf8CodePoint output codePoint)
    else output

def foldKeyDerivationTextVariants (text : Bytes) : Bytes := foldTextFrom text text.length 0 []

/-- The platform's normalisation of a text that is not empty; where it fails the text is taken as it is. -/
def normalizeUtf8Canonical (normalization : Bytes → Option Bytes) (value : Bytes) : Bytes :=
  if value = [] then [] else (normalization value).getD value

def canonicalizeKeyDerivationText (normalization : Bytes → Option Bytes) (value : Bytes) : Bytes :=
  foldKeyDerivationTextVariants (normalizeUtf8Canonical normalization value)

def buildKeyDerivationInput (normalization : Bytes → Option Bytes) (networkName password : Bytes) : Bytes :=
  canonicalizeKeyDerivationText normalization networkName ++ [0x7C] ++
    canonicalizeKeyDerivationText normalization password

/-- The second pair is read off the first one's joined text at a later separator, one of the first password's own. -/
def SeparatorMoved (networkName password otherName otherPassword : Bytes) : Prop :=
  ∃ between, otherName = networkName ++ 0x7C :: between ∧ password = between ++ 0x7C :: otherPassword

def foldChar (c : Char) : Char :=
  match foldKeyDerivationCodePoint c.val with
  | some folded => Char.ofUInt8 folded
  | none => c

end ClippModel.Keys

namespace ClippProof.Keys

open ClippModel.Registers ClippModel.Platform ClippModel.Keys ClippProof.Platform

variable {text : Bytes} {offset : Nat} {pieces : List (Char ⊕ UInt8)} {codePoint : UInt32} {folded : UInt8}

theorem folded_spec (found : foldKeyDerivationCodePoint codePoint = some folded) :
    folded < 0x80 ∧ foldKeyDerivationCodePoint folded.toUInt32 = none := by
  have each : ∀ b ∈ ([0x27, 0x22, 0x20, 0x2D] : Bytes), b < 0x80 ∧ foldKeyDerivationCodePoint b.toUInt32 = none := by
    decide +kernel
  apply each
  unfold foldKeyDerivationCodePoint at found
  split_ifs at found <;> simp [← Option.some.inj found]

theorem foldChar_none {c : Char} (kept : foldKeyDerivationCodePoint c.val = none) : foldChar c = c := by
  rw [foldChar, kept]

theorem foldChar_some {c : Char} (found : foldKeyDerivationCodePoint c.val = some folded) :
    foldChar c = Char.ofUInt8 folded := by
  rw [foldChar, found]

theorem foldChar_foldChar (c : Char) : foldChar (foldChar c) = foldChar c := by
  cases found : foldKeyDerivationCodePoint c.val with
  | none => rw [foldChar_none found, foldChar_none found]
  | some folded =>
    rw [foldChar_some found]
    exact foldChar_none (folded_spec found).2

theorem encodeChar_folded {c : Char} (found : foldKeyDerivationCodePoint c.val = some folded) :
    encodeChar (foldChar c) = [folded] := by
  rw [foldChar_some found]
  exact encodeChar_of_byte (folded_spec found).1 rfl

theorem decode_refused {before : UInt32} (inside : offset < text.length)
    (none : ∀ next codePoint, decodeUtf8CodePoint text offset before ≠ (true, next, codePoint)) :
    decodeUtf8CodePoint text offset before = (false, offset + 1, (byteAt text offset).toUInt32) := by
  revert none
  unfold decodeUtf8CodePoint
  rw [if_neg (not_le.mpr inside)]
  simp only
  split_ifs with ascii
  · intro none
    exact absurd rfl (none _ _)
  · cases utf8Lead (byteAt text offset) with
    | none => exact fun _ => rfl
    | some announced =>
      simp only
      split_ifs with short
      · exact fun _ => rfl
      · cases utf8Continuation text announced.continuationCount (offset + 1) announced.value with
        | none => exact fun _ => rfl
        | some result =>
          simp only
          split_ifs with malformed
          · exact fun _ => rfl
          · intro none
            exact absurd rfl (none _ _)

theorem onward_drop {front rest : Bytes} (split : text.drop offset = front ++ rest) :
    text.drop (offset + front.length) = rest := by
  rw [← List.drop_drop, split, List.drop_left]

theorem foldTextFrom_past (past : ¬ offset < text.length) (fuel : Nat) (output : Bytes) :
    foldTextFrom text fuel offset output = output := by
  cases fuel with
  | zero => rfl
  | succ fuel => rw [foldTextFrom, if_neg past]

theorem foldTextFrom_character {c : Char} {rest : Bytes} (inside : offset < text.length)
    (split : text.drop offset = encodeChar c ++ rest) (fuel : Nat) (output : Bytes) :
    foldTextFrom text (fuel + 1) offset output =
      foldTextFrom text fuel (offset + (encodeChar c).length) (output ++ encodeChar (foldChar c)) := by
  have read : decodeUtf8CodePoint text offset 0 = (true, offset + (encodeChar c).length, c.val) :=
    decode_iff_char.mpr ⟨c, rfl, by rw [onward_drop split, split], rfl⟩
  rw [foldTextFrom, if_pos inside, read]
  simp only
  cases found : foldKeyDerivationCodePoint c.val with
  | none => rw [append_onto, foldChar_none found]
  | some folded => rw [encodeChar_folded found]

theorem foldTextFrom_stray {b : UInt8} {rest : Bytes} (inside : offset < text.length)
    (split : text.drop offset = b :: rest) (begins_none : ∀ c, ¬ utf8.encode c <+: b :: rest) (fuel : Nat)
    (output : Bytes) : foldTextFrom text (fuel + 1) offset output = foldTextFrom text fuel (offset + 1) (output ++ [b]) := by
  have refused : ∀ next codePoint, decodeUtf8CodePoint text offset 0 ≠ (true, next, codePoint) := by
    intro next codePoint read
    obtain ⟨c, _, front, _⟩ := decode_iff_char.mp read
    apply begins_none c
    rw [← split, front]
    exact List.prefix_append _ _
  have first : byteAt text offset = b := by
    rw [drop_byteAt inside] at split
    exact (List.cons.inj split).1
  rw [foldTextFrom, if_pos inside, decode_refused inside refused, first]

theorem foldTextFrom_eq (written : utf8.Pieces (text.drop offset) pieces) {fuel : Nat}
    (enough : text.length ≤ offset + fuel) (output : Bytes) :
    foldTextFrom text fuel offset output = output ++ utf8.spell (CharacterCode.replaced foldChar pieces) := by
  induction fuel generalizing offset pieces output with
  | zero =>
    have past : ¬ offset < text.length := by omega
    rw [List.drop_of_length_le (not_lt.mp past)] at written
    rw [foldTextFrom_past past, written.eq_nil]
    exact (List.append_nil output).symm
  | succ fuel ih =>
    by_cases inside : offset < text.length
    · generalize split : text.drop offset = left at written
      cases written with
      | nil =>
        have width := List.drop_eq_nil_iff.mp split
        omega
      | @character rest pieces c onward =>
        have width := utf8.encode_length_pos c
        rw [utf8_encode] at width split
        rw [← onward_drop split] at onward
        rw [foldTextFrom_character inside split, ih onward (by omega), List.append_assoc]
        rfl
      | @stray b rest pieces begins_none onward =>
        have rest_eq : text.drop (offset + [b].length) = rest := onward_drop split
        rw [← rest_eq, List.length_singleton] at onward
        rw [foldTextFrom_stray inside split begins_none, ih onward (by omega), List.append_assoc]
        rfl
    · rw [List.drop_of_length_le (not_lt.mp inside)] at written
      rw [foldTextFrom_past inside, written.eq_nil]
      exact (List.append_nil output).symm

theorem fold_pieces (written : utf8.Pieces text pieces) :
    foldKeyDerivationTextVariants text = utf8.spell (CharacterCode.replaced foldChar pieces) := by
  have whole : utf8.Pieces (text.drop 0) pieces := written
  rw [foldKeyDerivationTextVariants, foldTextFrom_eq whole (by omega), List.nil_append]

theorem fold_fold (text : Bytes) :
    foldKeyDerivationTextVariants (foldKeyDerivationTextVariants text) = foldKeyDerivationTextVariants text := by
  obtain ⟨pieces, written⟩ := utf8.exists_pieces text
  rw [fold_pieces written, fold_pieces (written.of_replaced foldChar), CharacterCode.replaced_replaced foldChar_foldChar]

/-- Two pairs joined to one text: the same pair, or one read off the other's at a later separator. -/
theorem joined_eq_iff {name password otherName otherPassword : Bytes} :
    name ++ [0x7C] ++ password = otherName ++ [0x7C] ++ otherPassword ↔
      (name = otherName ∧ password = otherPassword) ∨ SeparatorMoved name password otherName otherPassword ∨
        SeparatorMoved otherName otherPassword name password := by
  simp only [List.append_assoc, List.singleton_append]
  constructor
  · intro same
    rcases List.append_eq_append_iff.mp same with ⟨further, rfl, split⟩ | ⟨further, rfl, split⟩
    · cases further with
      | nil => exact .inl ⟨(List.append_nil name).symm, (List.cons.inj split).2⟩
      | cons b between =>
        obtain ⟨rfl, rest⟩ := List.cons.inj split
        exact .inr (.inl ⟨between, rfl, rest⟩)
    · cases further with
      | nil => exact .inl ⟨List.append_nil otherName, (List.cons.inj split).2.symm⟩
      | cons b between =>
        obtain ⟨rfl, rest⟩ := List.cons.inj split
        exact .inr (.inr ⟨between, rfl, rest⟩)
  · rintro (⟨rfl, rfl⟩ | ⟨between, rfl, rfl⟩ | ⟨between, rfl, rfl⟩) <;> simp

theorem moved_ne {name password otherName otherPassword : Bytes}
    (moved : SeparatorMoved name password otherName otherPassword) : otherName ≠ name := by
  obtain ⟨between, rfl, _⟩ := moved
  intro same
  have width := congrArg List.length same
  rw [List.length_append, List.length_cons] at width
  omega

/-- One input stands for one canonical pair, but where a pair's joined text has a second separator that the other
pair is read off at. Folding twice is folding once. -/
theorem derivation_input_injective_iff (normalization : Bytes → Option Bytes)
    (networkName password otherName otherPassword : Bytes) :
    ((buildKeyDerivationInput normalization networkName password =
          buildKeyDerivationInput normalization otherName otherPassword →
        canonicalizeKeyDerivationText normalization networkName = canonicalizeKeyDerivationText normalization otherName ∧
          canonicalizeKeyDerivationText normalization password =
            canonicalizeKeyDerivationText normalization otherPassword) ↔
      ¬ (SeparatorMoved (canonicalizeKeyDerivationText normalization networkName)
            (canonicalizeKeyDerivationText normalization password)
            (canonicalizeKeyDerivationText normalization otherName)
            (canonicalizeKeyDerivationText normalization otherPassword) ∨
          SeparatorMoved (canonicalizeKeyDerivationText normalization otherName)
            (canonicalizeKeyDerivationText normalization otherPassword)
            (canonicalizeKeyDerivationText normalization networkName)
            (canonicalizeKeyDerivationText normalization password))) ∧
      ∀ text,
        foldKeyDerivationTextVariants (foldKeyDerivationTextVariants text) = foldKeyDerivationTextVariants text := by
  refine ⟨?_, fold_fold⟩
  rw [buildKeyDerivationInput, buildKeyDerivationInput, joined_eq_iff]
  constructor
  · intro injective moved
    obtain ⟨name, _⟩ := injective (.inr moved)
    rcases moved with later | earlier
    · exact moved_ne later name.symm
    · exact moved_ne earlier name
  · intro fixed same
    exact same.resolve_right fixed

/-- The network `a|b` with the password `c` and the network `a` with the password `b|c`. -/
theorem separator_in_name : ¬ ∀ normalization : Bytes → Option Bytes,
    (∀ value, normalizeUtf8Canonical normalization (normalizeUtf8Canonical normalization value) =
      normalizeUtf8Canonical normalization value) → ∀ networkName password otherName otherPassword,
      buildKeyDerivationInput normalization networkName password =
          buildKeyDerivationInput normalization otherName otherPassword →
        canonicalizeKeyDerivationText normalization networkName = canonicalizeKeyDerivationText normalization otherName ∧
          canonicalizeKeyDerivationText normalization password =
            canonicalizeKeyDerivationText normalization otherPassword := by
  intro every
  have kept : ∀ value, normalizeUtf8Canonical some value = value := by
    intro value
    rw [normalizeUtf8Canonical]
    split_ifs with empty
    · exact empty.symm
    · rfl
  have same := every some (fun value => kept _) [0x61, 0x7C, 0x62] [0x63] [0x61] [0x62, 0x7C, 0x63] (by decide +kernel)
  exact absurd same.1 (by decide +kernel)

end ClippProof.Keys
