import Mathlib.Data.List.Infix
import Mathlib.Data.Nat.Find
import Mathlib.Order.Basic

namespace Foundation

universe u

variable {α : Type u} {text needle front back : List α} {i start width : Nat}

/-- The needle stands at this place of the text. -/
def OccursAt (text needle : List α) (i : Nat) : Prop := needle <+: text.drop i

theorem occursAt_iff : OccursAt text needle i ↔ ∀ k < needle.length, text[i + k]? = needle[k]? := by
  rw [OccursAt, List.prefix_iff_getElem?]
  constructor
  · intro begins k inside
    rw [← List.getElem?_drop, begins k inside, List.getElem?_eq_getElem inside]
  · intro alike k inside
    rw [List.getElem?_drop, alike k inside, List.getElem?_eq_getElem inside]

theorem OccursAt.inside (occurs : OccursAt text needle i) (some_unit : needle ≠ []) :
    i + needle.length ≤ text.length := by
  have room := occurs.length_le
  have positive := List.length_pos_iff.mpr some_unit
  rw [List.length_drop] at room
  omega

theorem infix_iff_occursAt : needle <:+: text ↔ ∃ i, OccursAt text needle i := by
  constructor
  · rintro ⟨front, back, rfl⟩
    refine ⟨front.length, ?_⟩
    rw [OccursAt, List.append_assoc, List.drop_left]
    exact List.prefix_append needle back
  · rintro ⟨i, occurs⟩
    exact occurs.isInfix.trans (List.drop_suffix i text).isInfix

theorem OccursAt.shown {begin size : Nat} (occurs : OccursAt text needle i) (after : begin ≤ i)
    (covered : i + needle.length ≤ begin + size) (front back : List α) :
    OccursAt (front ++ (text.drop begin).take size ++ back) needle (front.length + (i - begin)) := by
  obtain ⟨rest, split⟩ := occurs
  have shift : text.drop i = (text.drop begin).drop (i - begin) := by
    rw [List.drop_drop]
    congr 1
    omega
  have taken : needle = ((text.drop begin).drop (i - begin)).take needle.length := by
    rw [← shift, ← split, List.take_left]
  have cut : ((text.drop begin).take size).drop (i - begin) =
      ((text.drop begin).drop (i - begin)).take (size - (i - begin)) := List.drop_take
  have within : needle <+: ((text.drop begin).take size).drop (i - begin) := by
    rw [cut, taken]
    exact List.take_prefix_take_left (by omega)
  have short : i - begin ≤ ((text.drop begin).take size).length ∨ needle = [] := by
    by_cases empty : needle = []
    · exact .inr empty
    · have room := within.length_le
      have positive := List.length_pos_iff.mpr empty
      rw [List.length_drop] at room
      omega
  rcases short with inside | empty
  · rw [OccursAt, List.append_assoc, List.drop_append, List.drop_eq_nil_of_le (Nat.le_add_right _ _), List.nil_append,
      Nat.add_sub_cancel_left, List.drop_append_of_le_length inside]
    exact within.trans (List.prefix_append _ back)
  · rw [OccursAt, empty]
    exact List.nil_prefix

/-- Leftmost first and without overlap: what a scan from the left collects, from a place on. -/
inductive Greedy (hit : Nat → Prop) (width : Nat) : Nat → List Nat → Prop where
  | stop {start : Nat} : (∀ i, start ≤ i → ¬ hit i) → Greedy hit width start []
  | next {start i : Nat} {rest : List Nat} : start ≤ i → hit i → (∀ j, start ≤ j → j < i → ¬ hit j) →
      Greedy hit width (i + width) rest → Greedy hit width start (i :: rest)

namespace Greedy

variable {hit : Nat → Prop} {all : List Nat}

theorem of_hit (greedy : Greedy hit width start all) (here : hit start) :
    ∃ rest, all = start :: rest ∧ Greedy hit width (start + width) rest := by
  cases greedy with
  | stop none => exact absurd here (none start le_rfl)
  | @next _ i rest after found least further =>
    have same : i = start := by
      by_contra differ
      exact least start le_rfl (by omega) here
    subst same
    exact ⟨rest, rfl, further⟩

theorem of_miss (greedy : Greedy hit width start all) (here : ¬ hit start) : Greedy hit width (start + 1) all := by
  cases greedy with
  | stop none => exact .stop fun i after => none i (by omega)
  | @next _ i rest after found least further =>
    have later : start ≠ i := by
      rintro rfl
      exact here found
    exact .next (by omega) found (fun j after => least j (by omega)) further

theorem eq_nil (greedy : Greedy hit width start all) (none : ∀ i, start ≤ i → ¬ hit i) : all = [] := by
  cases greedy with
  | stop => rfl
  | next after found => exact absurd found (none _ after)

theorem exists_of_bounded {limit : Nat} (bounded : ∀ i, hit i → i < limit) (positive : 0 < width) (start : Nat) :
    ∃ all, Greedy hit width start all := by
  classical
  induction left : limit - start using Nat.strong_induction_on generalizing start with
  | _ left_over ih =>
    by_cases more : ∃ i, start ≤ i ∧ hit i
    · have found := Nat.find_spec more
      have inside := bounded _ found.2
      obtain ⟨rest, greedy⟩ := ih (limit - (Nat.find more + width)) (by omega) (Nat.find more + width) rfl
      refine ⟨Nat.find more :: rest, .next found.1 found.2 ?_ greedy⟩
      intro j after before hits
      exact Nat.find_min more before ⟨after, hits⟩
    · exact ⟨[], .stop fun i after hits => more ⟨i, after, hits⟩⟩

theorem hits (greedy : Greedy hit width start all) : ∀ i ∈ all, hit i ∧ start ≤ i := by
  induction greedy with
  | stop => simp
  | @next start i rest after found _ _ ih =>
    intro j member
    rcases List.mem_cons.mp member with rfl | later
    · exact ⟨found, after⟩
    · obtain ⟨hits, beyond⟩ := ih j later
      exact ⟨hits, by omega⟩

theorem apart (greedy : Greedy hit width start all) : all.Pairwise fun i j => i + width ≤ j := by
  induction greedy with
  | stop => exact List.Pairwise.nil
  | next _ _ _ further ih => exact List.Pairwise.cons (fun j member => (further.hits j member).2) ih

theorem ne_nil_iff (greedy : Greedy hit width 0 all) : all ≠ [] ↔ ∃ i, hit i := by
  cases greedy with
  | stop none => exact iff_of_false (fun some_place => some_place rfl) (fun ⟨i, hits⟩ => none i (Nat.zero_le i) hits)
  | next _ found => exact iff_of_true (List.cons_ne_nil _ _) ⟨_, found⟩

theorem head_least (greedy : Greedy hit width 0 all) {first : Nat} (head : all.head? = some first) :
    hit first ∧ ∀ j < first, ¬ hit j := by
  cases greedy with
  | stop => cases head
  | next _ found least =>
    obtain rfl := Option.some.inj head
    exact ⟨found, fun j before => least j (Nat.zero_le j) before⟩

end Greedy

end Foundation
