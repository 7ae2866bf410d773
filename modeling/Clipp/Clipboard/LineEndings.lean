import Clipp.Clipboard.Payload
import Clipp.Foundation.LineEndings

open Foundation

namespace ClippModel.Clipboard

def expandLfToCrlfLoop : Bytes → Bytes
  | [] => []
  | 0x0D :: 0x0A :: rest => 0x0D :: 0x0A :: expandLfToCrlfLoop rest
  | 0x0D :: rest => 0x0D :: 0x0A :: expandLfToCrlfLoop rest
  | 0x0A :: rest => 0x0D :: 0x0A :: expandLfToCrlfLoop rest
  | c :: rest => c :: expandLfToCrlfLoop rest

/-- Only a text with a line ending is rebuilt. -/
def expandLfToCrlf (bytes : Bytes) : Bytes :=
  if bytes.any (fun c => c = 0x0D ∨ c = 0x0A) then expandLfToCrlfLoop bytes else bytes

end ClippModel.Clipboard

namespace ClippProof.Clipboard

open ClippModel.Clipboard

def content (bytes : Bytes) : List (Option UInt8) := LineEndings.read 0x0D 0x0A false bytes

theorem content_plain (bytes : Bytes) : LineEndings.Plain 0x0D 0x0A (content bytes) := LineEndings.read_plain false bytes

theorem content_crlf (rest : Bytes) : content (0x0D :: 0x0A :: rest) = none :: content rest := rfl

theorem content_cr {rest : Bytes} (lone : ∀ further, rest ≠ 0x0A :: further) :
    content (0x0D :: rest) = none :: content rest := by
  have other : rest.head? ≠ some 0x0A := by
    intro feed
    obtain ⟨further, rfl⟩ := List.head?_eq_some_iff.mp feed
    exact lone further rfl
  have step : content (0x0D :: rest) = none :: LineEndings.read 0x0D 0x0A true rest := rfl
  rw [step, LineEndings.read_afterCr other]
  rfl

theorem content_other {b : UInt8} (notReturn : b ≠ 0x0D) (notFeed : b ≠ 0x0A) (rest : Bytes) :
    content (b :: rest) = some b :: content rest := by
  rw [content, LineEndings.read, if_neg notFeed, if_neg notReturn]
  rfl

theorem canonicalizeCrlfToLf_eq (bytes : Bytes) :
    canonicalizeCrlfToLf bytes = LineEndings.write [0x0A] (content bytes) := by
  fun_induction canonicalizeCrlfToLf bytes with
  | case1 => rfl
  | case2 rest ih =>
    rw [ih, content_crlf]
    rfl
  | case3 rest lone ih =>
    rw [ih, content_cr fun further same => lone further same]
    rfl
  | case4 b rest noPair notReturn ih =>
    rw [ih]
    by_cases feed : b = 0x0A
    · subst feed
      rfl
    · rw [content_other (fun same => notReturn same) feed]
      rfl

theorem expandLfToCrlfLoop_eq (bytes : Bytes) :
    expandLfToCrlfLoop bytes = LineEndings.write [0x0D, 0x0A] (content bytes) := by
  fun_induction expandLfToCrlfLoop bytes with
  | case1 => rfl
  | case2 rest ih =>
    rw [ih, content_crlf]
    rfl
  | case3 rest lone ih =>
    rw [ih, content_cr fun further same => lone further same]
    rfl
  | case4 rest ih =>
    rw [ih]
    rfl
  | case5 c rest noPair notReturn notFeed ih =>
    rw [ih, content_other (fun same => notReturn same) fun same => notFeed same]
    rfl

theorem expandLfToCrlfLoop_plain {bytes : Bytes} (plain : ∀ c ∈ bytes, c ≠ 0x0D ∧ c ≠ 0x0A) :
    expandLfToCrlfLoop bytes = bytes := by
  rw [expandLfToCrlfLoop_eq]
  induction bytes with
  | nil => rfl
  | cons c rest ih =>
    obtain ⟨notReturn, notFeed⟩ := plain c List.mem_cons_self
    rw [content_other notReturn notFeed, LineEndings.write_unit, ih fun b member => plain b (List.mem_cons_of_mem _ member)]

theorem expandLfToCrlf_eq (bytes : Bytes) :
    expandLfToCrlf bytes = LineEndings.write [0x0D, 0x0A] (content bytes) := by
  rw [expandLfToCrlf, ← expandLfToCrlfLoop_eq]
  split_ifs with ending
  · rfl
  · apply (expandLfToCrlfLoop_plain _).symm
    intro c member
    simp only [List.any_eq_true, decide_eq_true_eq, not_exists, not_and] at ending
    exact not_or.mp (ending c member)

theorem content_canonicalize (bytes : Bytes) : content (canonicalizeCrlfToLf bytes) = content bytes := by
  rw [canonicalizeCrlfToLf_eq]
  exact LineEndings.read_write_lf (content_plain bytes)

theorem content_expand (bytes : Bytes) : content (expandLfToCrlf bytes) = content bytes := by
  rw [expandLfToCrlf_eq]
  exact LineEndings.read_write_crlf (by decide) (content_plain bytes)

/-- Either form is settled by the lines alone, and either form of a text has the lines of the text. -/
theorem line_endings_retract (bytes : Bytes) :
    canonicalizeCrlfToLf (canonicalizeCrlfToLf bytes) = canonicalizeCrlfToLf bytes ∧
    0x0D ∉ canonicalizeCrlfToLf bytes ∧
    expandLfToCrlf (expandLfToCrlf bytes) = expandLfToCrlf bytes ∧
    (∀ i : Nat, (expandLfToCrlf bytes)[i]? = some (0x0A : UInt8) →
      ∃ j : Nat, i = j + 1 ∧ (expandLfToCrlf bytes)[j]? = some (0x0D : UInt8)) ∧
    (∀ i : Nat, (expandLfToCrlf bytes)[i]? = some (0x0D : UInt8) →
      (expandLfToCrlf bytes)[i + 1]? = some (0x0A : UInt8)) ∧
    canonicalizeCrlfToLf (expandLfToCrlf bytes) = canonicalizeCrlfToLf bytes ∧
    expandLfToCrlf (canonicalizeCrlfToLf bytes) = expandLfToCrlf bytes := by
  have plain := content_plain bytes
  refine ⟨?_, ?_, ?_, ?_, ?_, ?_, ?_⟩
  · rw [canonicalizeCrlfToLf_eq, content_canonicalize, ← canonicalizeCrlfToLf_eq]
  · rw [canonicalizeCrlfToLf_eq]
    exact LineEndings.not_mem_write_lf (by decide) plain
  · rw [expandLfToCrlf_eq, content_expand, ← expandLfToCrlf_eq]
  · rw [expandLfToCrlf_eq]
    intro i feed
    exact LineEndings.cr_before_lf (by decide) plain feed
  · rw [expandLfToCrlf_eq]
    intro i ret
    exact LineEndings.lf_behind_cr (by decide) plain ret
  · rw [canonicalizeCrlfToLf_eq, content_expand, ← canonicalizeCrlfToLf_eq]
  · rw [expandLfToCrlf_eq, content_canonicalize, ← expandLfToCrlf_eq]

end ClippProof.Clipboard
