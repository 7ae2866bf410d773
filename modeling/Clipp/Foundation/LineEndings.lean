import Mathlib.Data.List.Basic
import Mathlib.Tactic.SplitIfs

namespace Foundation

universe u

namespace LineEndings

variable {β : Type u} [DecidableEq β] {cr lf : β}

/-- A text as its line breaks and the units between them: CR LF, CR and LF all break a line once. -/
def read (cr lf : β) : Bool → List β → List (Option β)
  | _, [] => []
  | afterCr, b :: rest =>
    if b = lf then (if afterCr then read cr lf false rest else none :: read cr lf false rest)
    else if b = cr then none :: read cr lf true rest
    else some b :: read cr lf false rest

example : read 13 10 false [65, 13, 10, 66] = [some 65, none, some 66] := by
  simp [read]

/-- The text with the same ending for every line break. -/
def write (ending : List β) (content : List (Option β)) : List β :=
  content.flatMap fun unit => match unit with
    | none => ending
    | some b => [b]

def Plain (cr lf : β) (content : List (Option β)) : Prop := ∀ b, some b ∈ content → b ≠ cr ∧ b ≠ lf

omit [DecidableEq β] in
@[simp] theorem write_nil (ending : List β) : write ending [] = [] := rfl

omit [DecidableEq β] in
@[simp] theorem write_break (ending : List β) (content : List (Option β)) :
    write ending (none :: content) = ending ++ write ending content := rfl

omit [DecidableEq β] in
@[simp] theorem write_unit (ending : List β) (b : β) (content : List (Option β)) :
    write ending (some b :: content) = b :: write ending content := rfl

omit [DecidableEq β] in
theorem Plain.tail {unit : Option β} {content : List (Option β)} (plain : Plain cr lf (unit :: content)) :
    Plain cr lf content := fun b member => plain b (List.mem_cons_of_mem _ member)

omit [DecidableEq β] in
theorem Plain.head {b : β} {content : List (Option β)} (plain : Plain cr lf (some b :: content)) :
    b ≠ cr ∧ b ≠ lf := plain b List.mem_cons_self

omit [DecidableEq β] in
theorem Plain.break {content : List (Option β)} (plain : Plain cr lf content) : Plain cr lf (none :: content) := by
  intro b member
  rcases List.mem_cons.mp member with impossible | member
  · cases impossible
  · exact plain b member

theorem read_plain (afterCr : Bool) (text : List β) : Plain cr lf (read cr lf afterCr text) := by
  induction text generalizing afterCr with
  | nil => simp [read, Plain]
  | cons b rest ih =>
    rw [read]
    split_ifs with feed after ret
    · exact ih false
    · exact (ih false).break
    · exact (ih true).break
    · intro c member
      rcases List.mem_cons.mp member with same | member
      · rw [Option.some.inj same]
        exact ⟨ret, feed⟩
      · exact ih false c member

theorem read_afterCr {text : List β} (other : text.head? ≠ some lf) : read cr lf true text = read cr lf false text := by
  cases text with
  | nil => rfl
  | cons b rest =>
    have notFeed : b ≠ lf := fun same => other (by rw [same, List.head?_cons])
    rw [read, read, if_neg notFeed, if_neg notFeed]

theorem read_write_lf {content : List (Option β)} (plain : Plain cr lf content) :
    read cr lf false (write [lf] content) = content := by
  induction content with
  | nil => rfl
  | cons unit content ih =>
    have rest := ih plain.tail
    cases unit with
    | none => rw [write_break, List.singleton_append, read, if_pos rfl, if_neg Bool.false_ne_true, rest]
    | some b => rw [write_unit, read, if_neg plain.head.2, if_neg plain.head.1, rest]

theorem read_write_crlf (apart : cr ≠ lf) {content : List (Option β)} (plain : Plain cr lf content) :
    read cr lf false (write [cr, lf] content) = content := by
  induction content with
  | nil => rfl
  | cons unit content ih =>
    have rest := ih plain.tail
    cases unit with
    | none =>
      rw [write_break, List.cons_append, List.singleton_append, read, if_neg apart, if_pos rfl, read, if_pos rfl,
        if_pos rfl, rest]
    | some b => rw [write_unit, read, if_neg plain.head.2, if_neg plain.head.1, rest]

omit [DecidableEq β] in
theorem not_mem_write_lf (apart : cr ≠ lf) {content : List (Option β)} (plain : Plain cr lf content) :
    cr ∉ write [lf] content := by
  induction content with
  | nil => exact List.not_mem_nil
  | cons unit content ih =>
    have rest := ih plain.tail
    cases unit with
    | none => simpa [apart] using rest
    | some b => simpa [plain.head.1.symm] using rest

omit [DecidableEq β] in
theorem cr_before_lf (apart : cr ≠ lf) {content : List (Option β)} (plain : Plain cr lf content) {i : Nat}
    (feed : (write [cr, lf] content)[i]? = some lf) : ∃ j, i = j + 1 ∧ (write [cr, lf] content)[j]? = some cr := by
  induction content generalizing i with
  | nil => simp at feed
  | cons unit content ih =>
    cases unit with
    | none =>
      rw [write_break, List.cons_append, List.singleton_append] at feed ⊢
      rcases i with _ | _ | k
      · exact absurd (Option.some.inj feed) apart
      · exact ⟨0, rfl, rfl⟩
      · obtain ⟨j, rfl, before⟩ := ih plain.tail feed
        exact ⟨j + 2, rfl, before⟩
    | some b =>
      rw [write_unit] at feed ⊢
      rcases i with _ | k
      · exact absurd (Option.some.inj feed) plain.head.2
      · obtain ⟨j, rfl, before⟩ := ih plain.tail feed
        exact ⟨j + 1, rfl, before⟩

omit [DecidableEq β] in
theorem lf_behind_cr (apart : cr ≠ lf) {content : List (Option β)} (plain : Plain cr lf content) {i : Nat}
    (ret : (write [cr, lf] content)[i]? = some cr) : (write [cr, lf] content)[i + 1]? = some lf := by
  induction content generalizing i with
  | nil => simp at ret
  | cons unit content ih =>
    cases unit with
    | none =>
      rw [write_break, List.cons_append, List.singleton_append] at ret ⊢
      rcases i with _ | _ | k
      · rfl
      · exact absurd (Option.some.inj ret).symm apart
      · exact ih plain.tail ret
    | some b =>
      rw [write_unit] at ret ⊢
      rcases i with _ | k
      · exact absurd (Option.some.inj ret) plain.head.1
      · exact ih plain.tail ret

end LineEndings

end Foundation
