import Mathlib.Data.List.Basic
import Mathlib.Data.List.Forall2

namespace Foundation

universe u

/-- An element of a glob pattern: any run, one element, or this element. -/
inductive GlobToken (α : Type u) where
  | star
  | any
  | lit (a : α)
  deriving DecidableEq

namespace GlobToken

variable {α : Type u}

/-- What a token may stand for, when `?` stands for the runs that are `one`. -/
def Fits (one : List α → Prop) : GlobToken α → List α → Prop
  | star, _ => True
  | any, part => one part
  | lit a, part => part = [a]

/-- A choice of a part for each token that makes the pattern equal to the string. -/
def Matches (one : List α → Prop) (pat : List (GlobToken α)) (str : List α) : Prop :=
  ∃ parts, List.Forall₂ (Fits one) pat parts ∧ parts.flatten = str

def Single (part : List α) : Prop := ∃ a, part = [a]

def Accepts : GlobToken α → α → Prop
  | star, _ => False
  | any, _ => True
  | lit b, a => b = a

variable {one : List α → Prop} {t : GlobToken α} {pat seg rest : List (GlobToken α)} {a : α} {str w z : List α}

@[simp] theorem matches_nil : Matches one [] str ↔ str = [] := by
  constructor
  · intro matched
    obtain ⟨parts, fits, rfl⟩ := matched
    cases fits
    rfl
  · intro empty
    exact ⟨[], .nil, empty.symm⟩

theorem matches_cons : Matches one (t :: pat) str ↔
    ∃ front back, str = front ++ back ∧ Fits one t front ∧ Matches one pat back := by
  constructor
  · intro matched
    obtain ⟨parts, fits, rfl⟩ := matched
    cases fits with
    | cons first others => exact ⟨_, _, rfl, first, _, others, rfl⟩
  · intro split
    obtain ⟨front, back, rfl, first, parts, others, rfl⟩ := split
    exact ⟨front :: parts, .cons first others, rfl⟩

theorem matches_star : Matches one (star :: pat) str ↔ ∃ front back, str = front ++ back ∧ Matches one pat back := by
  rw [matches_cons]
  simp only [Fits, true_and]

theorem Matches.absorb (matched : Matches one (star :: pat) z) (w : List α) : Matches one (star :: pat) (w ++ z) := by
  obtain ⟨front, back, rfl, later⟩ := matches_star.mp matched
  exact matches_star.mpr ⟨w ++ front, back, (List.append_assoc ..).symm, later⟩

theorem fits_single (ordinary : t ≠ star) {part : List α} : Fits Single t part ↔ ∃ a, part = [a] ∧ Accepts t a := by
  cases t with
  | star => exact absurd rfl ordinary
  | any => simp [Fits, Single, Accepts]
  | lit b => simp [Fits, Accepts]

theorem accepts_ordinary (accepted : Accepts t a) : t ≠ star := by
  rintro rfl
  exact accepted

theorem Matches.imp {two : List α → Prop} (matched : Matches one pat str)
    (each : ∀ part, (∀ b ∈ part, b ∈ str) → one part → two part) : Matches two pat str := by
  obtain ⟨parts, fits, rfl⟩ := matched
  refine ⟨parts, ?_, rfl⟩
  have inside : ∀ part ∈ parts, ∀ b ∈ part, b ∈ parts.flatten := fun part member b held =>
    List.mem_flatten.mpr ⟨part, member, held⟩
  generalize parts.flatten = whole at each inside
  induction fits with
  | nil => exact .nil
  | @cons t part pat parts first _ ih =>
    refine .cons ?_ (ih fun other member => inside other (List.mem_cons_of_mem _ member))
    cases t with
    | star => exact True.intro
    | any => exact each part (inside part List.mem_cons_self) first
    | lit a => exact first

theorem matches_ordinary (ordinary : t ≠ star) : Matches Single (t :: pat) (a :: str) ↔
    Accepts t a ∧ Matches Single pat str := by
  rw [matches_cons]
  constructor
  · intro split
    obtain ⟨front, back, same, first, later⟩ := split
    obtain ⟨b, rfl, accepted⟩ := (fits_single ordinary).mp first
    obtain ⟨rfl, rfl⟩ := List.cons.inj same
    exact ⟨accepted, later⟩
  · intro both
    exact ⟨[a], str, rfl, (fits_single ordinary).mpr ⟨a, rfl, both.1⟩, both.2⟩

theorem not_matches_ordinary_nil (ordinary : t ≠ star) : ¬ Matches Single (t :: pat) [] := by
  rw [matches_cons]
  intro split
  obtain ⟨front, back, same, first, -⟩ := split
  obtain ⟨b, rfl, -⟩ := (fits_single ordinary).mp first
  cases same

theorem matches_any_replicate (n : Nat) : Matches Single (List.replicate n any) str ↔ str.length = n := by
  induction n generalizing str with
  | zero => rw [List.replicate_zero, matches_nil, List.length_eq_zero_iff]
  | succ n ih =>
    have ordinary : (any : GlobToken α) ≠ star := by simp
    rw [List.replicate_succ]
    cases str with
    | nil => exact iff_of_false (not_matches_ordinary_nil ordinary) (by simp)
    | cons a str =>
      rw [matches_ordinary ordinary, ih, List.length_cons, Nat.add_right_cancel_iff]
      exact and_iff_right True.intro

theorem matches_append (ordinary : ∀ t ∈ seg, t ≠ star) : Matches Single (seg ++ rest) str ↔
    ∃ w z, str = w ++ z ∧ List.Forall₂ Accepts seg w ∧ Matches Single rest z := by
  induction seg generalizing str with
  | nil =>
    constructor
    · intro matched
      exact ⟨[], str, rfl, .nil, matched⟩
    · intro split
      obtain ⟨w, z, rfl, aligned, later⟩ := split
      cases aligned
      exact later
  | cons t seg ih =>
    have first := ordinary t List.mem_cons_self
    have others : ∀ t ∈ seg, t ≠ star := fun t member => ordinary t (List.mem_cons_of_mem _ member)
    rw [List.cons_append]
    constructor
    · intro matched
      cases str with
      | nil => exact absurd matched (not_matches_ordinary_nil first)
      | cons a str =>
        obtain ⟨accepted, later⟩ := (matches_ordinary first).mp matched
        obtain ⟨w, z, rfl, aligned, last⟩ := (ih others).mp later
        exact ⟨a :: w, z, rfl, .cons accepted aligned, last⟩
    · intro split
      obtain ⟨w, z, rfl, aligned, later⟩ := split
      cases aligned with
      | cons accepted aligned =>
        exact (matches_ordinary first).mpr ⟨accepted, (ih others).mpr ⟨_, _, rfl, aligned, later⟩⟩

theorem aligned_ordinary (aligned : List.Forall₂ Accepts seg w) : ∀ t ∈ seg, t ≠ star := by
  induction aligned with
  | nil => simp
  | cons accepted _ ih =>
    intro t member
    rcases List.mem_cons.mp member with rfl | member
    · exact accepts_ordinary accepted
    · exact ih t member

theorem matches_star_append (ordinary : ∀ t ∈ seg, t ≠ star) : Matches Single (star :: (seg ++ rest)) str ↔
    ∃ x y z, str = x ++ (y ++ z) ∧ List.Forall₂ Accepts seg y ∧ Matches Single rest z := by
  rw [matches_star]
  constructor
  · intro split
    obtain ⟨x, back, rfl, later⟩ := split
    obtain ⟨y, z, rfl, aligned, last⟩ := (matches_append ordinary).mp later
    exact ⟨x, y, z, rfl, aligned, last⟩
  · intro split
    obtain ⟨x, y, z, rfl, aligned, later⟩ := split
    exact ⟨x, y ++ z, rfl, (matches_append ordinary).mpr ⟨y, z, rfl, aligned, later⟩⟩

/-- Once a segment behind a star is found and another star follows, the first place found will do. -/
theorem matches_greedy (aligned : List.Forall₂ Accepts seg w) :
    Matches Single (star :: (seg ++ star :: rest)) (w ++ z) ↔ Matches Single (star :: rest) z := by
  rw [matches_star_append (aligned_ordinary aligned)]
  constructor
  · intro split
    obtain ⟨x, y, last, same, other, later⟩ := split
    have size : w.length ≤ (x ++ y).length := by
      rw [List.length_append, ← aligned.length_eq, ← other.length_eq]
      exact Nat.le_add_left ..
    rw [← List.append_assoc] at same
    obtain ⟨between, found⟩ := List.prefix_of_prefix_length_le (List.prefix_append w z)
      (same ▸ List.prefix_append (x ++ y) last) size
    rw [← found, List.append_assoc, List.append_cancel_left_eq] at same
    rw [same]
    exact later.absorb between
  · intro later
    exact ⟨[], w, z, rfl, aligned, later⟩

/-- Where the rest does not match behind this place of the segment, the star takes one element more. -/
theorem matches_retry (aligned : List.Forall₂ Accepts seg w) (same : a :: str = w ++ z)
    (failed : ¬ Matches Single rest z) :
    Matches Single (star :: (seg ++ rest)) (a :: str) ↔ Matches Single (star :: (seg ++ rest)) str := by
  constructor
  · intro matched
    obtain ⟨x, y, last, split, other, later⟩ := (matches_star_append (aligned_ordinary aligned)).mp matched
    cases x with
    | nil =>
      have size : y.length = w.length := other.length_eq.symm.trans aligned.length_eq
      rw [List.nil_append, same] at split
      obtain ⟨rfl, rfl⟩ := List.append_inj split size.symm
      exact absurd later failed
    | cons b x =>
      obtain ⟨rfl, rfl⟩ := List.cons.inj split
      exact (matches_star_append (aligned_ordinary aligned)).mpr ⟨x, y, last, rfl, other, later⟩
  · intro matched
    exact matched.absorb [a]

theorem matches_finish (aligned : List.Forall₂ Accepts seg w) :
    Matches Single (star :: (seg ++ rest)) w ↔ Matches Single rest [] := by
  constructor
  · intro matched
    obtain ⟨x, y, last, rfl, other, later⟩ := (matches_star_append (aligned_ordinary aligned)).mp matched
    have size := other.length_eq.symm.trans aligned.length_eq
    rw [List.length_append, List.length_append] at size
    have ended : last = [] := List.length_eq_zero_iff.mp (by omega)
    rwa [ended] at later
  · intro later
    have matched : Matches Single (star :: (seg ++ rest)) ([] ++ (w ++ [])) :=
      (matches_star_append (aligned_ordinary aligned)).mpr ⟨[], w, [], rfl, aligned, later⟩
    rwa [List.nil_append, List.append_nil] at matched

theorem matches_empty [DecidableEq α] : Matches Single pat [] ↔ (pat.dropWhile (· = star)).isEmpty = true := by
  induction pat with
  | nil => simp
  | cons t pat ih =>
    by_cases ordinary : t = star
    · rw [ordinary, List.dropWhile_cons_of_pos (by simp), ← ih, matches_star]
      constructor
      · intro split
        obtain ⟨front, back, same, later⟩ := split
        rwa [(List.append_eq_nil_iff.mp same.symm).2] at later
      · intro later
        exact ⟨[], [], rfl, later⟩
    · rw [List.dropWhile_cons_of_neg (by simpa using ordinary)]
      exact iff_of_false (not_matches_ordinary_nil ordinary) Bool.false_ne_true

end GlobToken

end Foundation
