import Mathlib.Data.Nat.Lattice
import Mathlib.Order.Monotone.Basic

namespace Foundation

universe u

theorem growth_ends {progress : Nat → Nat} {limit : Nat} (bounded : ∀ n, progress n ≤ limit)
    (grows : Monotone progress) : ∃ n, ∀ m, n ≤ m → progress m = progress n := by
  have above : BddAbove (Set.range progress) := ⟨limit, by rintro _ ⟨n, rfl⟩; exact bounded n⟩
  obtain ⟨n, most⟩ := Nat.sSup_mem (Set.range_nonempty progress) above
  refine ⟨n, fun m later => le_antisymm ?_ (grows later)⟩
  rw [most]
  exact le_csSup above ⟨m, rfl⟩

/-- A deadline that moves on progress only is reached: the progress ends, and the time goes on. -/
theorem deadline_reached {τ : Type u} [Preorder τ] {progress : Nat → Nat} {deadline now : Nat → τ} {limit : Nat}
    (bounded : ∀ n, progress n ≤ limit) (grows : Monotone progress)
    (kept : ∀ n, progress (n + 1) = progress n → deadline (n + 1) = deadline n)
    (clock : ∀ m n, m ≤ n → now m ≤ now n) (passes : ∀ time, ∃ n, time ≤ now n) : ∃ n, deadline n ≤ now n := by
  obtain ⟨n, ended⟩ := growth_ends bounded grows
  have fixed : ∀ extra, deadline (n + extra) = deadline n := by
    intro extra
    induction extra with
    | zero => rfl
    | succ extra ih =>
      have still : progress (n + extra + 1) = progress (n + extra) := by
        exact (ended _ (by omega)).trans (ended _ (by omega)).symm
      exact (kept _ still).trans ih
  obtain ⟨m, late⟩ := passes (deadline n)
  refine ⟨n + m, ?_⟩
  rw [fixed]
  exact le_trans late (clock m (n + m) (by omega))

end Foundation
