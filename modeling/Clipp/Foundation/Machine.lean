import Mathlib.Logic.Basic
import Mathlib.Tactic.SplitIfs

namespace Foundation

universe u v w

variable {σ : Type u} {ℓ : Type v} {step : σ → ℓ → Option σ} {ok : σ → ℓ → Prop}

/-- Runs of a partial labelled step function all of whose steps meet a side condition. -/
inductive Path (step : σ → ℓ → Option σ) (ok : σ → ℓ → Prop) : σ → List ℓ → σ → Prop where
  | nil (s : σ) : Path step ok s [] s
  | cons {s next last : σ} {l : ℓ} {ls : List ℓ} : ok s l → step s l = some next →
      Path step ok next ls last → Path step ok s (l :: ls) last

theorem Path.invariant (inv : σ → Prop)
    (keep : ∀ s l next, inv s → ok s l → step s l = some next → inv next)
    {s last : σ} {ls : List ℓ} (path : Path step ok s ls last) (start : inv s) : inv last := by
  induction path with
  | nil => exact start
  | cons allowed taken _ ih => exact ih (keep _ _ _ start allowed taken)

theorem Path.append {s mid last : σ} {before after : List ℓ} (left : Path step ok s before mid)
    (right : Path step ok mid after last) : Path step ok s (before ++ after) last := by
  induction left with
  | nil => exact right
  | cons allowed taken _ ih => exact .cons allowed taken (ih right)

theorem Path.single {s next : σ} {l : ℓ} (allowed : ok s l) (taken : step s l = some next) :
    Path step ok s [l] next := .cons allowed taken (.nil next)

def runLabels (step : σ → ℓ → Option σ) : σ → List ℓ → Option σ
  | s, [] => some s
  | s, l :: ls => (step s l).bind (fun next => runLabels step next ls)

theorem runLabels_append {s : σ} {before after : List ℓ} :
    runLabels step s (before ++ after) = (runLabels step s before).bind (fun mid => runLabels step mid after) := by
  induction before generalizing s with
  | nil => rfl
  | cons l ls ih =>
    simp only [List.cons_append, runLabels, Option.bind_assoc]
    congr 1
    funext next
    exact ih

theorem path_of_run {s last : σ} {ls : List ℓ} (allowed : ∀ l ∈ ls, ∀ s, ok s l)
    (ran : runLabels step s ls = some last) : Path step ok s ls last := by
  induction ls generalizing s with
  | nil =>
    cases ran
    exact .nil last
  | cons l ls ih =>
    obtain ⟨next, taken, rest⟩ := Option.bind_eq_some_iff.mp ran
    have first : ok s l := allowed l List.mem_cons_self s
    exact .cons first taken (ih (fun l member => allowed l (List.mem_cons_of_mem _ member)) rest)

def runFitting (step : σ → ℓ → Option σ) (ok : σ → ℓ → Prop) [∀ s l, Decidable (ok s l)] : σ → List ℓ → Option σ
  | s, [] => some s
  | s, l :: ls => if ok s l then (step s l).bind (fun next => runFitting step ok next ls) else none

theorem path_of_runFitting [∀ s l, Decidable (ok s l)] {s last : σ} {ls : List ℓ}
    (ran : runFitting step ok s ls = some last) : Path step ok s ls last := by
  induction ls generalizing s with
  | nil =>
    cases ran
    exact .nil last
  | cons l ls ih =>
    rw [runFitting] at ran
    split_ifs at ran with allowed
    obtain ⟨next, taken, rest⟩ := Option.bind_eq_some_iff.mp ran
    exact .cons allowed taken (ih rest)

def lastOf (step : σ → ℓ → Option σ) (s : σ) (ls : List ℓ) : σ := (runLabels step s ls).getD s

theorem path_to_lastOf {s : σ} {ls : List ℓ} (allowed : ∀ l ∈ ls, ∀ s, ok s l)
    (ran : (runLabels step s ls).isSome = true) : Path step ok s ls (lastOf step s ls) := by
  obtain ⟨last, equal⟩ := Option.isSome_iff_exists.mp ran
  have here : lastOf step s ls = last := by rw [lastOf, equal, Option.getD_some]
  rw [here]
  exact path_of_run allowed equal

theorem step_lastOf {s : σ} {l : ℓ} (ran : (step s l).isSome = true) : step s l = some (lastOf step s [l]) := by
  obtain ⟨next, taken⟩ := Option.isSome_iff_exists.mp ran
  simp [lastOf, runLabels, taken]

theorem step_to_lastOf {s : σ} {l : ℓ} (allowed : ok s l) (ran : (step s l).isSome = true) :
    Path step ok s [l] (lastOf step s [l]) := .single allowed (step_lastOf ran)

theorem Path.ran {s last : σ} {ls : List ℓ} (path : Path step ok s ls last) : runLabels step s ls = some last := by
  induction path with
  | nil => rfl
  | cons _ taken _ ih => rw [runLabels, taken, Option.bind_some, ih]

theorem path_of_any [∀ s l, Decidable (ok s l)] {s : σ} {ls : List ℓ} {shows : σ → Bool}
    (ran : (runFitting step ok s ls).any shows = true) : ∃ last, Path step ok s ls last ∧ shows last = true := by
  obtain ⟨last, equal, shown⟩ := (Option.any_eq_true shows _).mp ran
  exact ⟨last, path_of_runFitting equal, shown⟩

theorem fitting_to_lastOf [∀ s l, Decidable (ok s l)] {s : σ} {ls : List ℓ}
    (ran : (runFitting step ok s ls).isSome = true) : Path step ok s ls (lastOf step s ls) := by
  obtain ⟨last, equal⟩ := Option.isSome_iff_exists.mp ran
  have path := path_of_runFitting equal
  have here : lastOf step s ls = last := by rw [lastOf, path.ran, Option.getD_some]
  rw [here]
  exact path

end Foundation
