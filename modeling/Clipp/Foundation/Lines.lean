import Mathlib.Data.List.Basic
import Mathlib.Tactic.SplitIfs

namespace Foundation

universe u

variable {β : Type u} [DecidableEq β] {newline b : β} {line text : List β} {content : List (List β)}

/-- The lines of a text; what stands behind the last line break is a line unless it is empty. -/
def lines (newline : β) : List β → List (List β)
  | [] => []
  | b :: rest =>
    if b = newline then [] :: lines newline rest
    else match lines newline rest with
      | [] => [[b]]
      | line :: more => (b :: line) :: more

theorem lines_break (newline : β) (rest : List β) : lines newline (newline :: rest) = [] :: lines newline rest := by
  rw [lines, if_pos rfl]

theorem lines_unit (plain : b ≠ newline) {first : List β} {more : List (List β)}
    (onward : lines newline text = first :: more) : lines newline (b :: text) = (b :: first) :: more := by
  rw [lines, if_neg plain, onward]

theorem lines_line (plain : newline ∉ line) (rest : List β) :
    lines newline (line ++ newline :: rest) = line :: lines newline rest := by
  induction line with
  | nil => exact lines_break newline rest
  | cons b line ih =>
    rw [List.mem_cons, not_or] at plain
    exact lines_unit (Ne.symm plain.1) (ih plain.2)

theorem lines_terminated (plain : ∀ line ∈ content, newline ∉ line) :
    lines newline (content.flatMap fun line => line ++ [newline]) = content := by
  induction content with
  | nil => rfl
  | cons line content ih =>
    rw [List.forall_mem_cons] at plain
    rw [List.flatMap_cons, List.append_assoc, List.singleton_append, lines_line plain.1, ih plain.2]

theorem lines_plain (newline : β) (text : List β) : ∀ line ∈ lines newline text, newline ∉ line := by
  induction text with
  | nil => exact fun _ member => absurd member List.not_mem_nil
  | cons b text ih =>
    rw [lines]
    split_ifs with ends
    · exact List.forall_mem_cons.mpr ⟨List.not_mem_nil, ih⟩
    · cases onward : lines newline text with
      | nil =>
        intro line member
        rw [List.mem_singleton.mp member, List.mem_singleton]
        exact Ne.symm ends
      | cons first more =>
        rw [onward, List.forall_mem_cons] at ih
        have front : newline ∉ b :: first := by
          rw [List.mem_cons, not_or]
          exact ⟨Ne.symm ends, ih.1⟩
        exact List.forall_mem_cons.mpr ⟨front, ih.2⟩

end Foundation
