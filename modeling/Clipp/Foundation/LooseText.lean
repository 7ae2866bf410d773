import Clipp.Foundation.CharacterCode

namespace Foundation

universe u v

namespace CharacterCode

/-- A text as its characters and, between them, the units that begin no character. -/
inductive Pieces {S : Type u} {β : Type v} (C : CharacterCode S β) : List β → List (S ⊕ β) → Prop where
  | nil : Pieces C [] []
  | character {rest : List β} {pieces : List (S ⊕ β)} (s : S) (onward : Pieces C rest pieces) :
      Pieces C (C.encode s ++ rest) (.inl s :: pieces)
  | stray {b : β} {rest : List β} {pieces : List (S ⊕ β)} (begins_none : ∀ s, ¬ C.encode s <+: b :: rest)
      (onward : Pieces C rest pieces) : Pieces C (b :: rest) (.inr b :: pieces)

variable {S : Type u} {β : Type v} {C : CharacterCode S β} {text front : List β} {pieces : List (S ⊕ β)}

def spell (C : CharacterCode S β) (pieces : List (S ⊕ β)) : List β :=
  pieces.flatMap (Sum.elim C.encode List.singleton)

def replaced (f : S → S) (pieces : List (S ⊕ β)) : List (S ⊕ β) := pieces.map (Sum.map f id)

@[simp] theorem spell_nil (C : CharacterCode S β) : C.spell [] = [] := rfl

@[simp] theorem spell_character (s : S) (pieces : List (S ⊕ β)) :
    C.spell (.inl s :: pieces) = C.encode s ++ C.spell pieces := rfl

@[simp] theorem spell_stray (b : β) (pieces : List (S ⊕ β)) : C.spell (.inr b :: pieces) = b :: C.spell pieces := rfl

theorem replaced_replaced {f : S → S} (again : ∀ s, f (f s) = f s) (pieces : List (S ⊕ β)) :
    replaced f (replaced f pieces) = replaced f pieces := by
  rw [replaced, replaced, List.map_map]
  apply List.map_congr_left
  intro piece _
  cases piece with
  | inl s => exact congrArg Sum.inl (again s)
  | inr b => rfl

theorem exists_pieces (C : CharacterCode S β) (text : List β) : ∃ pieces, C.Pieces text pieces := by
  classical
  induction size : text.length using Nat.strong_induction_on generalizing text with
  | _ size ih =>
    cases text with
    | nil => exact ⟨[], .nil⟩
    | cons b rest =>
      rw [List.length_cons] at size
      by_cases begins : ∃ s, C.encode s <+: b :: rest
      · obtain ⟨s, back, split⟩ := begins
        have width := C.encode_length_pos s
        have total := congrArg List.length split
        rw [List.length_append, List.length_cons] at total
        obtain ⟨pieces, onward⟩ := ih back.length (by omega) back rfl
        rw [← split]
        exact ⟨_, onward.character s⟩
      · obtain ⟨pieces, onward⟩ := ih rest.length (by omega) rest rfl
        exact ⟨_, onward.stray (not_exists.mp begins)⟩

namespace Pieces

theorem eq_nil (written : C.Pieces [] pieces) : pieces = [] := by
  generalize nothing : ([] : List β) = text at written
  cases written with
  | nil => rfl
  | character s onward =>
    have width := C.encode_length_pos s
    have empty := congrArg List.length nothing
    rw [List.length_append, List.length_nil] at empty
    omega
  | stray => cases nothing

theorem continuations_kept (written : C.Pieces text pieces) (f : S → S) (continued : ∀ b ∈ front, C.continues b = true)
    (leads : front <+: C.spell (replaced f pieces)) : front <+: text := by
  induction written generalizing front with
  | nil => exact leads
  | @character rest pieces s onward ih =>
    cases front with
    | nil => exact List.nil_prefix
    | cons b front =>
      -- A replaced character begins with a lead, so no continuation stands here.
      obtain ⟨lead, later, word, starts, _⟩ := C.shape (f s)
      have first : C.spell (replaced f (.inl s :: pieces)) = lead :: (later ++ C.spell (replaced f pieces)) := by
        change C.encode (f s) ++ _ = _
        rw [word, List.cons_append]
        rfl
      rw [first, List.cons_prefix_cons] at leads
      have marked := continued b List.mem_cons_self
      rw [leads.1, starts] at marked
      cases marked
  | stray begins_none onward ih =>
    cases front with
    | nil => exact List.nil_prefix
    | cons b front =>
      obtain ⟨same, leads⟩ := List.cons_prefix_cons.mp leads
      exact List.cons_prefix_cons.mpr ⟨same, ih (fun b member => continued b (List.mem_cons_of_mem _ member)) leads⟩

theorem of_replaced (written : C.Pieces text pieces) (f : S → S) :
    C.Pieces (C.spell (replaced f pieces)) (replaced f pieces) := by
  induction written with
  | nil => exact .nil
  | character s onward ih => exact ih.character (f s)
  | @stray rest pieces b begins_none onward ih =>
    apply ih.stray
    -- A character that began here now would have begun here before.
    intro s begins
    obtain ⟨lead, later, word, starts, continued⟩ := C.shape s
    apply begins_none s
    rw [word, List.cons_prefix_cons] at begins ⊢
    exact ⟨begins.1, onward.continuations_kept f continued begins.2⟩

end Pieces

end CharacterCode

end Foundation
