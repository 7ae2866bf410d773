import Mathlib.Logic.Basic
import Mathlib.Order.Nat
import Mathlib.Tactic.SplitIfs

namespace Foundation

universe u v

variable {ε : Type u} {α β : Type v}

/-- The computation returns something good, or stops as it may. -/
def Ends (good : α → Prop) (stops : ε → Prop) : Except ε α → Prop
  | .ok a => good a
  | .error e => stops e

section

variable {good other : α → Prop} {stops allowed : ε → Prop} {x : Except ε α}

theorem Ends.mono (ends : Ends good stops x) (weaker : ∀ a, good a → other a) (more : ∀ e, stops e → allowed e) :
    Ends other allowed x := by
  cases x with
  | ok a => exact weaker a ends
  | error e => exact more e ends

theorem Ends.bind {next : α → Except ε β} {last : β → Prop} (first : Ends good stops x)
    (rest : ∀ a, good a → Ends last stops (next a)) : Ends last stops (x >>= next) := by
  cases x with
  | ok a => exact rest a first
  | error e => exact first

theorem Ends.of_eq {a : α} (equal : x = .ok a) (holds : good a) : Ends good stops x := by
  rw [equal]
  exact holds

theorem Ends.of_ok {a : α} (ends : Ends good stops x) (returned : x = .ok a) : good a := by
  rw [returned] at ends
  exact ends

theorem Ends.of_error {e : ε} (ends : Ends good stops x) (stopped : x = .error e) : stops e := by
  rw [stopped] at ends
  exact ends

theorem Ends.stopped (ends : Ends good stops x) (none : ∀ a, ¬ good a) : ∃ e, x = .error e ∧ stops e := by
  cases x with
  | ok a => exact absurd ends (none a)
  | error e => exact ⟨e, rfl, ends⟩

end

def loopFrom (body : Nat → α → Except ε α) : Nat → Nat → α → Except ε α
  | 0, _, a => .ok a
  | count + 1, first, a => body first a >>= loopFrom body count (first + 1)

def forRange (n : Nat) (body : Nat → α → Except ε α) (a : α) : Except ε α := loopFrom body n 0 a

variable {body : Nat → α → Except ε α} {stops : ε → Prop} {n : Nat}

theorem ends_loopFrom (inv : Nat → α → Prop) (count first : Nat) {a : α}
    (step : ∀ i, first ≤ i → i < first + count → ∀ a, inv i a → Ends (inv (i + 1)) stops (body i a))
    (start : inv first a) : Ends (inv (first + count)) stops (loopFrom body count first a) := by
  induction count generalizing first a with
  | zero => exact start
  | succ count ih =>
    have one : Ends (inv (first + 1)) stops (body first a) := step first le_rfl (by omega) a start
    apply one.bind
    intro next after
    have later := ih (first + 1) (fun i low high => step i (by omega) (by omega)) after
    rwa [show first + 1 + count = first + (count + 1) by omega] at later

/-- What every round keeps holds at the end. -/
theorem ends_forRange (inv : Nat → α → Prop) {a : α}
    (step : ∀ i < n, ∀ a, inv i a → Ends (inv (i + 1)) stops (body i a)) (start : inv 0 a) :
    Ends (inv n) stops (forRange n body a) := by
  have all := ends_loopFrom inv n 0 (fun i _ high => step i (by omega)) start
  rwa [Nat.zero_add] at all

end Foundation
