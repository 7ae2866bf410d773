import Mathlib.Data.List.TakeWhile

namespace Foundation

universe u

variable {α : Type u} {below : α → Bool} {l front back : List α} {i : Nat}

/-- The bisection of a range of `len` entries from `first` on, for the first one that is not below. -/
def lowerBound (below : α → Bool) (l : List α) (first len : Nat) : Nat :=
  if len = 0 then first
  else
    let half := len / 2
    match l[first + half]? with
    | none => first
    | some middle =>
      if below middle then lowerBound below l (first + half + 1) (len - half - 1)
      else lowerBound below l first half
termination_by len

theorem below_getElem_iff (low : ∀ a ∈ front, below a = true) (high : ∀ a ∈ back, below a = false)
    (inside : i < (front ++ back).length) : below (front ++ back)[i] = true ↔ i < front.length := by
  by_cases early : i < front.length
  · rw [List.getElem_append_left early]
    exact iff_of_true (low _ (List.getElem_mem early)) early
  · rw [List.getElem_append_right (not_lt.mp early), high _ (List.getElem_mem _)]
    exact iff_of_false Bool.false_ne_true early

theorem lowerBound_bisects (low : ∀ a ∈ front, below a = true) (high : ∀ a ∈ back, below a = false)
    (first len : Nat) (inside : first + len ≤ (front ++ back).length) (after : first ≤ front.length)
    (before : front.length ≤ first + len) : lowerBound below (front ++ back) first len = front.length := by
  fun_induction lowerBound below (front ++ back) first len with
  | case1 first => omega
  | case2 first len nonempty half missing =>
    have outside := List.getElem?_eq_none_iff.mp missing
    omega
  | case3 first len nonempty half middle found isBelow ih =>
    obtain ⟨bound, rfl⟩ := List.getElem?_eq_some_iff.mp found
    have early := (below_getElem_iff low high bound).mp isBelow
    apply ih
    · omega
    · omega
    · omega
  | case4 first len nonempty half middle found notBelow ih =>
    obtain ⟨bound, rfl⟩ := List.getElem?_eq_some_iff.mp found
    have late := mt (below_getElem_iff low high bound).mpr notBelow
    apply ih
    · omega
    · exact after
    · omega

theorem insertIdx_length_append (front back : List α) (a : α) :
    (front ++ back).insertIdx front.length a = front ++ a :: back := by
  induction front with
  | nil => rfl
  | cons first rest ih =>
    show first :: (rest ++ back).insertIdx rest.length a = first :: (rest ++ a :: back)
    rw [ih]

end Foundation
