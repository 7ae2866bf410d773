import Mathlib.Data.List.Basic
import Mathlib.Data.List.Infix
import Mathlib.Tactic.SplitIfs

namespace Foundation

universe u v

/-- A code whose words start with a lead and go on with continuations, none a beginning of another. -/
structure CharacterCode (S : Type u) (β : Type v) where
  encode : S → List β
  continues : β → Bool
  shape : ∀ s, ∃ lead rest, encode s = lead :: rest ∧ continues lead = false ∧ ∀ b ∈ rest, continues b = true
  apart : ∀ {s t}, encode s <+: encode t → s = t

namespace CharacterCode

variable {S : Type u} {β : Type v} (C : CharacterCode S β) {s t : S} {cs ds : List S} {n : Nat} {b : β}

def text (cs : List S) : List β := cs.flatMap C.encode

@[simp] theorem text_nil : C.text [] = [] := rfl

@[simp] theorem text_cons (s : S) (cs : List S) : C.text (s :: cs) = C.encode s ++ C.text cs := rfl

@[simp] theorem text_append (cs ds : List S) : C.text (cs ++ ds) = C.text cs ++ C.text ds :=
  List.flatMap_append

theorem encode_length_pos (s : S) : 0 < (C.encode s).length := by
  obtain ⟨lead, rest, word, -, -⟩ := C.shape s
  rw [word]
  exact Nat.succ_pos _

theorem length_le_text (cs : List S) : cs.length ≤ (C.text cs).length := by
  induction cs with
  | nil => exact Nat.zero_le _
  | cons s cs ih =>
    have width := C.encode_length_pos s
    rw [text_cons, List.length_append, List.length_cons]
    omega

theorem text_length_eq_iff : (C.text cs).length = cs.length ↔ ∀ s ∈ cs, (C.encode s).length = 1 := by
  induction cs with
  | nil => simp
  | cons s cs ih =>
    have width := C.encode_length_pos s
    have rest := C.length_le_text cs
    rw [text_cons, List.length_append, List.length_cons, List.forall_mem_cons, ← ih]
    omega

theorem text_eq_nil_iff : C.text cs = [] ↔ cs = [] := by
  cases cs with
  | nil => simp
  | cons s cs =>
    have width := C.encode_length_pos s
    simp [List.length_pos_iff.mp width]

theorem encode_prefix_text (front : C.encode s <+: C.text cs) : ∃ rest, cs = s :: rest := by
  cases cs with
  | nil =>
    have width := C.encode_length_pos s
    have nothing := front.length_le
    simp only [text_nil, List.length_nil] at nothing
    omega
  | cons t rest =>
    rw [text_cons] at front
    have same : s = t := by
      rcases Nat.le_total (C.encode s).length (C.encode t).length with shorter | longer
      · exact C.apart (List.prefix_of_prefix_length_le front (List.prefix_append _ _) shorter)
      · exact (C.apart (List.prefix_of_prefix_length_le (List.prefix_append _ _) front longer)).symm
    exact ⟨rest, by rw [same]⟩

theorem text_prefix_iff : C.text ds <+: C.text cs ↔ ds <+: cs := by
  constructor
  · intro front
    induction ds generalizing cs with
    | nil => exact List.nil_prefix
    | cons s ds ih =>
      rw [text_cons] at front
      obtain ⟨rest, rfl⟩ := C.encode_prefix_text ((List.prefix_append _ _).trans front)
      rw [text_cons, List.prefix_append_right_inj] at front
      exact List.cons_prefix_cons.mpr ⟨rfl, ih front⟩
  · intro front
    obtain ⟨rest, rfl⟩ := front
    rw [text_append]
    exact List.prefix_append _ _

theorem text_injective (same : C.text cs = C.text ds) : cs = ds := by
  have front := C.text_prefix_iff.mp (same ▸ List.prefix_rfl : C.text cs <+: C.text ds)
  have back := C.text_prefix_iff.mp (same ▸ List.prefix_rfl : C.text ds <+: C.text cs)
  exact front.eq_of_length_le back.length_le

def fitting : Nat → List S → List S
  | _, [] => []
  | n, s :: cs => if (C.encode s).length ≤ n then s :: fitting (n - (C.encode s).length) cs else []

theorem fitting_prefix (n : Nat) (cs : List S) : C.fitting n cs <+: cs := by
  induction cs generalizing n with
  | nil => exact List.nil_prefix
  | cons s cs ih =>
    rw [fitting]
    split_ifs with fits
    · exact List.cons_prefix_cons.mpr ⟨rfl, ih _⟩
    · exact List.nil_prefix

theorem fitting_length (n : Nat) (cs : List S) : (C.text (C.fitting n cs)).length ≤ n := by
  induction cs generalizing n with
  | nil => exact Nat.zero_le n
  | cons s cs ih =>
    rw [fitting]
    split_ifs with fits
    · have rest := ih (n - (C.encode s).length)
      rw [text_cons, List.length_append]
      omega
    · exact Nat.zero_le n

theorem fitting_longest (front : ds <+: cs) (within : (C.text ds).length ≤ n) : ds <+: C.fitting n cs := by
  induction cs generalizing ds n with
  | nil => exact front
  | cons s cs ih =>
    cases ds with
    | nil => exact List.nil_prefix
    | cons t ds =>
      obtain ⟨rfl, later⟩ := List.cons_prefix_cons.mp front
      rw [text_cons, List.length_append] at within
      have fits : (C.encode t).length ≤ n := by omega
      rw [fitting, if_pos fits]
      exact List.cons_prefix_cons.mpr ⟨rfl, ih later (by omega)⟩

theorem encode_getElem?_continues (later : 0 < n) (unit : (C.encode s)[n]? = some b) : C.continues b = true := by
  obtain ⟨lead, rest, word, -, continued⟩ := C.shape s
  obtain ⟨m, rfl⟩ := Nat.exists_eq_add_of_lt later
  rw [word, Nat.zero_add, List.getElem?_cons_succ] at unit
  exact continued b (List.mem_of_getElem? unit)

theorem text_head?_continues (unit : (C.text cs).head? = some b) : C.continues b = false := by
  cases cs with
  | nil => simp at unit
  | cons s cs =>
    obtain ⟨lead, rest, word, leads, -⟩ := C.shape s
    rw [text_cons, word, List.cons_append, List.head?_cons, Option.some.injEq] at unit
    exact unit ▸ leads

theorem take_text (boundary : ∀ b, (C.text cs)[n]? = some b → C.continues b = false) :
    (C.text cs).take n = C.text (C.fitting n cs) := by
  induction cs generalizing n with
  | nil => simp [fitting]
  | cons s cs ih =>
    rw [fitting, text_cons]
    rw [text_cons] at boundary
    split_ifs with fits
    · have onward : ∀ b, (C.text cs)[n - (C.encode s).length]? = some b → C.continues b = false := by
        intro b unit
        apply boundary
        rw [List.getElem?_append_right fits, unit]
      rw [text_cons, ← ih onward, List.take_append, List.take_of_length_le fits]
    · -- The cut is inside the first word, where only its start is no continuation.
      have inside : n < (C.encode s).length := by omega
      have unit : (C.encode s ++ C.text cs)[n]? = some (C.encode s)[n] := by
        rw [List.getElem?_append_left inside, List.getElem?_eq_getElem inside]
      cases n with
      | zero => rfl
      | succ m =>
        have continued := C.encode_getElem?_continues (Nat.succ_pos m) (List.getElem?_eq_getElem inside)
        rw [boundary _ unit] at continued
        exact absurd continued Bool.false_ne_true

theorem take_isText_iff : (∃ ds, (C.text cs).take n = C.text ds) ↔
    ∀ b, (C.text cs)[n]? = some b → C.continues b = false := by
  constructor
  · intro whole b unit
    obtain ⟨ds, cut⟩ := whole
    obtain ⟨inside, -⟩ := List.getElem?_eq_some_iff.mp unit
    obtain ⟨rest, rfl⟩ := C.text_prefix_iff.mp (cut ▸ List.take_prefix n (C.text cs))
    have width : (C.text ds).length = n := by rw [← cut, List.length_take_of_le inside.le]
    rw [text_append, List.getElem?_append_right width.le, width, Nat.sub_self, ← List.head?_eq_getElem?] at unit
    exact C.text_head?_continues unit
  · intro boundary
    exact ⟨_, C.take_text boundary⟩

theorem continuations_lt {low high w : Nat} (bounded : ∀ s, (C.encode s).length ≤ w)
    (boundary : ∀ b, (C.text cs)[low]? = some b → C.continues b = false) (ahead : low < high)
    (continued : ∀ i, low < i → i ≤ high → ∃ b, (C.text cs)[i]? = some b ∧ C.continues b = true) :
    high < low + w := by
  obtain ⟨ds, cut⟩ := C.take_isText_iff.mpr boundary
  obtain ⟨rest, rfl⟩ := C.text_prefix_iff.mp (cut ▸ List.take_prefix low (C.text cs))
  obtain ⟨b, unit, -⟩ := continued high ahead le_rfl
  obtain ⟨inside, -⟩ := List.getElem?_eq_some_iff.mp unit
  have width : (C.text ds).length = low := by rw [← cut, List.length_take_of_le (by omega)]
  cases rest with
  | nil =>
    rw [List.append_nil] at inside
    omega
  | cons s rest =>
    have short := bounded s
    by_contra far
    have long := C.encode_length_pos s
    -- The word behind the boundary ends on another one, which is within the continuations.
    obtain ⟨b, unit, follows⟩ := continued (low + (C.encode s).length) (by omega) (by omega)
    rw [text_append, text_cons, List.getElem?_append_right (by omega), width, Nat.add_sub_cancel_left,
      List.getElem?_append_right le_rfl, Nat.sub_self, ← List.head?_eq_getElem?] at unit
    rw [C.text_head?_continues unit] at follows
    exact Bool.false_ne_true follows

theorem mem_of_infix (word : C.encode s <:+: C.text cs) : s ∈ cs := by
  obtain ⟨front, back, split⟩ := word
  have cut : (C.text cs).take front.length = front := by
    rw [← split, List.append_assoc, List.take_left]
  have boundary : ∀ b, (C.text cs)[front.length]? = some b → C.continues b = false := by
    intro b unit
    obtain ⟨lead, rest, word, leads, -⟩ := C.shape s
    rw [← split, word] at unit
    simp only [List.append_assoc, List.cons_append, List.getElem?_append_right le_rfl, Nat.sub_self,
      List.getElem?_cons_zero, Option.some.injEq] at unit
    exact unit ▸ leads
  obtain ⟨ds, whole⟩ := C.take_isText_iff.mpr boundary
  have words : C.text (ds ++ [s]) <+: C.text cs := by
    rw [text_append, ← whole, cut, text_cons, text_nil, List.append_nil, ← split]
    exact List.prefix_append _ _
  have member : s ∈ ds ++ [s] := List.mem_append_right ds (List.mem_singleton_self s)
  exact (C.text_prefix_iff.mp words).subset member

end CharacterCode

end Foundation
