import Clipp.Foundation.Glob
import Clipp.Cli.RegisterVerbs
import Clipp.Platform.Utf8Text

open Foundation Foundation.GlobToken

namespace ClippProof.Cli

open ClippModel.Registers ClippModel.Cli ClippModel.Platform ClippProof.Platform

variable {pat str : Bytes} {p s ss last : Nat}

def globToken (b : UInt8) : GlobToken UInt8 :=
  if b = 0x2A then .star else if b = 0x3F then .any else .lit b

def tokensFrom (pat : Bytes) (p : Nat) : List (GlobToken UInt8) := (pat.drop p).map globToken

theorem tokensFrom_cons (inside : p < pat.length) :
    tokensFrom pat p = globToken (byteAt pat p) :: tokensFrom pat (p + 1) := by
  rw [tokensFrom, drop_byteAt inside, List.map_cons]
  rfl

theorem tokensFrom_end (outside : ¬ p < pat.length) : tokensFrom pat p = [] := by
  rw [tokensFrom, List.drop_of_length_le (not_lt.mp outside), List.map_nil]

theorem byteAt_clean (clean : 0x2A ∉ str) (inside : s < str.length) : byteAt str s ≠ 0x2A := by
  intro star
  rw [byteAt, List.getElem?_eq_getElem inside, Option.getD_some] at star
  exact clean (star ▸ List.getElem_mem inside)

theorem accepts_iff {c a : UInt8} (plain : a ≠ 0x2A) : Accepts (globToken c) a ↔ c = 0x3F ∨ c = a := by
  unfold globToken
  split_ifs with star question
  · subst star
    refine iff_of_false id ?_
    rintro (mark | same)
    · exact absurd mark (by decide)
    · exact plain same.symm
  · exact iff_of_true True.intro (.inl question)
  · exact ⟨Or.inr, fun either => either.resolve_left question⟩

theorem star_iff {c : UInt8} : globToken c = .star ↔ c = 0x2A := by
  unfold globToken
  split_ifs with star question
  · exact iff_of_true rfl star
  · exact iff_of_false (by simp) star
  · exact iff_of_false (by simp) star

/-- Behind the last star, the pattern up to here takes the string up to here, element by element. -/
def Held (pat str : Bytes) (p s last ss : Nat) : Prop :=
  ∃ seg w, tokensFrom pat last = .star :: (seg ++ tokensFrom pat p) ∧ str.drop ss = w ++ str.drop s ∧
    List.Forall₂ Accepts seg w

/-- What is left to decide: without a star the rest of both, with one the whole from it on. -/
def Remaining (pat str : Bytes) (p s : Nat) (star : Option Nat) (ss : Nat) : Prop :=
  match star with
  | none => Matches Single (tokensFrom pat p) (str.drop s)
  | some last => Matches Single (tokensFrom pat last) (str.drop ss)

theorem Held.start (inside : last < pat.length) (star : byteAt pat last = 0x2A) (s : Nat) :
    Held pat str (last + 1) s last s :=
  ⟨[], [], by rw [tokensFrom_cons inside, star_iff.mpr star]; rfl, rfl, .nil⟩

theorem Held.advance (held : Held pat str p s last ss) (patLeft : p < pat.length) (strLeft : s < str.length)
    (accepted : Accepts (globToken (byteAt pat p)) (byteAt str s)) : Held pat str (p + 1) (s + 1) last ss := by
  obtain ⟨seg, w, tokens, split, aligned⟩ := held
  refine ⟨seg ++ [globToken (byteAt pat p)], w ++ [byteAt str s], ?_, ?_, ?_⟩
  · rw [tokens, tokensFrom_cons patLeft, List.append_assoc, List.singleton_append]
  · rw [split, drop_byteAt strLeft, List.append_assoc, List.singleton_append]
  · exact List.rel_append aligned (.cons accepted .nil)

theorem Held.star (held : Held pat str p s last ss) : last < pat.length ∧ byteAt pat last = 0x2A := by
  obtain ⟨seg, w, tokens, -, -⟩ := held
  have inside : last < pat.length := by
    by_contra outside
    rw [tokensFrom_end outside] at tokens
    cases tokens
  rw [tokensFrom_cons inside] at tokens
  exact ⟨inside, star_iff.mp (List.cons.inj tokens).1⟩

theorem not_matches_here (clean : 0x2A ∉ str) (strLeft : s < str.length)
    (refused : ¬ (p < pat.length ∧ (byteAt pat p = 0x3F ∨ byteAt pat p = byteAt str s)))
    (unstarred : ¬ (p < pat.length ∧ byteAt pat p = 0x2A)) : ¬ Matches Single (tokensFrom pat p) (str.drop s) := by
  rw [drop_byteAt strLeft]
  by_cases patLeft : p < pat.length
  · have ordinary : globToken (byteAt pat p) ≠ .star := fun star => unstarred ⟨patLeft, star_iff.mp star⟩
    rw [tokensFrom_cons patLeft, matches_ordinary ordinary]
    intro matched
    exact refused ⟨patLeft, (accepts_iff (byteAt_clean clean strLeft)).mp matched.1⟩
  · rw [tokensFrom_end patLeft, matches_nil]
    exact List.cons_ne_nil _ _

theorem only_stars_iff : ((pat.drop p).dropWhile (fun c => c = 0x2A)).isEmpty = true ↔
    Matches Single (tokensFrom pat p) [] := by
  have each : ((fun t => decide (t = GlobToken.star)) ∘ globToken) = fun c => decide (c = (0x2A : UInt8)) := by
    funext c
    exact decide_eq_decide.mpr star_iff
  rw [matches_empty, tokensFrom, List.dropWhile_map, each, List.isEmpty_map]

/-- The loop decides what remains, from every point it passes. -/
theorem globFrom_iff (clean : 0x2A ∉ str) {star : Option Nat} (behind : ss ≤ s)
    (held : ∀ last, star = some last → Held pat str p s last ss) :
    globFrom pat str p s star ss behind = true ↔ Remaining pat str p s star ss := by
  fun_induction globFrom pat str p s star ss behind with
  | case1 p s star ss behind strLeft taken ih =>
    have accepted := (accepts_iff (byteAt_clean clean strLeft)).mpr taken.2
    rw [ih fun last found => (held last found).advance taken.1 strLeft accepted]
    cases star with
    | none =>
      simp only [Remaining]
      rw [tokensFrom_cons taken.1, drop_byteAt strLeft, matches_ordinary (accepts_ordinary accepted)]
      exact (and_iff_right accepted).symm
    | some last => rfl
  | case2 p s star ss behind strLeft taken starred ih =>
    rw [ih fun last found => by
      obtain rfl := Option.some.inj found
      exact .start starred.1 starred.2 s]
    cases star with
    | none => rfl
    | some last =>
      obtain ⟨seg, w, tokens, split, aligned⟩ := held last rfl
      simp only [Remaining]
      rw [tokens, split, tokensFrom_cons starred.1, star_iff.mpr starred.2, matches_greedy aligned]
  | case3 p s ss behind strLeft refused unstarred last ih =>
    obtain ⟨inside, star⟩ := (held last rfl).star
    rw [ih fun other found => by
      obtain rfl := Option.some.inj found
      exact .start inside star (ss + 1)]
    obtain ⟨seg, w, tokens, split, aligned⟩ := held last rfl
    have failed := not_matches_here clean strLeft refused unstarred
    have earlier := drop_byteAt (show ss < str.length by omega)
    rw [earlier] at split
    simp only [Remaining]
    rw [tokens, earlier]
    exact (matches_retry aligned split failed).symm
  | case4 p s ss behind strLeft refused unstarred =>
    exact iff_of_false Bool.false_ne_true (not_matches_here clean strLeft refused unstarred)
  | case5 p s star ss behind ended =>
    have empty : str.drop s = [] := List.drop_of_length_le (not_lt.mp ended)
    rw [only_stars_iff]
    cases star with
    | none =>
      simp only [Remaining]
      rw [empty]
    | some last =>
      obtain ⟨seg, w, tokens, split, aligned⟩ := held last rfl
      simp only [Remaining]
      rw [tokens, split, empty, List.append_nil, matches_finish aligned]

theorem globMatch_iff (clean : 0x2A ∉ str) :
    globMatch pat str = true ↔ Matches Single (pat.map globToken) str := by
  rw [globMatch, globFrom_iff clean le_rfl (fun last found => by cases found)]
  rfl

theorem validName_clean {name : Bytes} (valid : isValidRegisterName name = true) : 0x2A ∉ name := by
  obtain ⟨chars, rfl, -, -, allowed, -⟩ := (validName_iff name).mp valid
  intro star
  obtain ⟨c, member, inside⟩ := List.mem_flatMap.mp star
  have value := (ascii_mem_encodeChar (by decide) inside).1
  exact (allowed c member).2.2.1 (Char.ext value)

/-- The matcher finds an assignment of the wildcards whenever there is one. -/
theorem globMatch_exact : (∀ pat str : Bytes, 0x2A ∉ str →
      (globMatch pat str = true ↔ ∃ parts, List.Forall₂ (Fits Single) (pat.map globToken) parts ∧ parts.flatten = str)) ∧
    ∀ name : Bytes, isValidRegisterName name = true → 0x2A ∉ name :=
  ⟨fun _ _ clean => globMatch_iff clean, fun _ valid => validName_clean valid⟩

section Characters

def OneChar (part : Bytes) : Prop := ∃ c : Char, part = encodeChar c

/-- A question mark stands for one character of the name, so that `n` of them match the names of `n`. -/
structure CountsCharacters (name : Bytes) : Prop where
  each : ∀ pat : Bytes, globMatch pat name = true ↔
    ∃ parts, List.Forall₂ (Fits OneChar) (pat.map globToken) parts ∧ parts.flatten = name
  count : ∀ (n : Nat) (chars : List Char), name = utf8.text chars →
    (globMatch (List.replicate n 0x3F) name = true ↔ chars.length = n)

theorem single_of_oneChar {part : Bytes} (ascii : ∀ b ∈ part, b < 0x80) (char : OneChar part) : Single part := by
  obtain ⟨c, rfl⟩ := char
  obtain ⟨lead, rest, word, -, -⟩ := encodeChar_shape c
  have first : lead ∈ encodeChar c := word ▸ List.mem_cons_self
  exact ⟨lead, (ascii_mem_encodeChar (ascii lead first) first).2⟩

theorem oneChar_of_single {part : Bytes} (ascii : ∀ b ∈ part, b < 0x80) (single : Single part) : OneChar part := by
  obtain ⟨b, rfl⟩ := single
  obtain ⟨c, -, encoded⟩ := char_of_append (append_ascii b (ascii b List.mem_cons_self))
  exact ⟨c, encoded.symm⟩

theorem encodeChar_single_iff (c : Char) : (encodeChar c).length = 1 ↔ ∀ b ∈ encodeChar c, b < 0x80 := by
  constructor
  · intro single
    obtain ⟨b, word⟩ := List.length_eq_one_iff.mp single
    have small : c.val ≤ 0x7F := by
      by_contra large
      have appended := append_char c
      simp only [appendUtf8CodePoint, if_neg large] at appended
      split_ifs at appended <;> (rw [← Option.some.inj appended] at single; cases single)
    rw [encodeChar_ascii small]
    intro b member
    rw [List.mem_singleton.mp member]
    exact of_small (P := fun y => y.toUInt8 < 0x80) 128 (by decide) c.val (Nat.lt_succ_of_le small)
  · intro ascii
    obtain ⟨b, word⟩ := single_of_oneChar ascii ⟨c, rfl⟩
    rw [word, List.length_singleton]

theorem text_single_iff (chars : List Char) :
    (utf8.text chars).length = chars.length ↔ ∀ b ∈ utf8.text chars, b < 0x80 := by
  rw [CharacterCode.text_length_eq_iff]
  simp only [utf8_encode, encodeChar_single_iff]
  constructor
  · intro each b member
    obtain ⟨c, held, inside⟩ := List.mem_flatMap.mp member
    exact each c held b inside
  · intro ascii c held b inside
    exact ascii b (List.mem_flatMap.mpr ⟨c, held, inside⟩)

theorem globMatch_questions {name : Bytes} (clean : 0x2A ∉ name) (n : Nat) :
    globMatch (List.replicate n 0x3F) name = true ↔ name.length = n := by
  have tokens : (List.replicate n (0x3F : UInt8)).map globToken = List.replicate n .any := by
    rw [List.map_replicate]
    rfl
  rw [globMatch_iff clean, tokens, matches_any_replicate]

/-- The matcher's question marks count characters in exactly the names of ASCII. -/
theorem countsCharacters_iff {name : Bytes} (valid : isValidRegisterName name = true) :
    CountsCharacters name ↔ ∀ b ∈ name, b < 0x80 := by
  have clean := validName_clean valid
  obtain ⟨chars, rfl, -⟩ := (validName_iff name).mp valid
  constructor
  · intro counts
    have whole := (counts.count chars.length chars rfl).mpr rfl
    exact (text_single_iff chars).mp ((globMatch_questions clean _).mp whole)
  · intro ascii
    have inside : ∀ {part : Bytes}, (∀ b ∈ part, b ∈ utf8.text chars) → ∀ b ∈ part, b < 0x80 :=
      fun held b member => ascii b (held b member)
    constructor
    · intro pat
      rw [globMatch_iff clean]
      constructor
      · intro matched
        exact matched.imp fun part held => oneChar_of_single (inside held)
      · intro matched
        exact Matches.imp matched fun part held => single_of_oneChar (inside held)
    · intro n others same
      obtain rfl := utf8.text_injective same
      rw [globMatch_questions clean, (text_single_iff chars).mpr ascii]

theorem countsCharacters_lowercase : CountsCharacters [0x61, 0x62] ↔ ∀ b ∈ ([0x61, 0x62] : Bytes), b < 0x80 :=
  countsCharacters_iff (by decide)

/-- One question mark and the name of one character, of two bytes. -/
theorem question_misses_character :
    ¬ ∀ name : Bytes, isValidRegisterName name = true → CountsCharacters name := by
  intro always
  have counts := always [0xC3, 0xA9] (by decide)
  have matched := (counts.count 1 ['é'] (by decide)).mpr rfl
  have missed : globMatch (List.replicate 1 0x3F) [0xC3, 0xA9] = false := by
    rw [Bool.eq_false_iff, ne_eq, globMatch_questions (by decide)]
    decide
  rw [missed] at matched
  cases matched

end Characters

end ClippProof.Cli
