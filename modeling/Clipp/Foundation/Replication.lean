import Clipp.Foundation.Machine
import Mathlib.Order.BoundedOrder.Lattice
import Mathlib.Logic.Function.Basic

namespace Foundation

universe u v

section Join

variable {L : Type v} [SemilatticeSup L] [OrderBot L]

def joinList (l : List L) : L := l.foldr (· ⊔ ·) ⊥

@[simp] theorem joinList_nil : joinList ([] : List L) = ⊥ := rfl

@[simp] theorem joinList_cons (a : L) (l : List L) : joinList (a :: l) = a ⊔ joinList l := rfl

theorem le_joinList {a : L} {l : List L} (member : a ∈ l) : a ≤ joinList l := by
  induction l with
  | nil => cases member
  | cons head rest ih =>
    rcases List.mem_cons.mp member with rfl | later
    · exact le_sup_left
    · exact (ih later).trans le_sup_right

theorem joinList_le {b : L} {l : List L} (below : ∀ a ∈ l, a ≤ b) : joinList l ≤ b := by
  induction l with
  | nil => exact bot_le
  | cons head rest ih =>
    exact sup_le (below head List.mem_cons_self) (ih fun a member => below a (List.mem_cons_of_mem _ member))

theorem joinList_append (l k : List L) : joinList (l ++ k) = joinList l ⊔ joinList k := by
  induction l with
  | nil => simp
  | cons head rest ih => simp [ih, sup_assoc]

theorem joinList_mono {l k : List L} (subset : ∀ a ∈ l, a ∈ k) : joinList l ≤ joinList k :=
  joinList_le fun a member => le_joinList (subset a member)

end Join

/-- State-based replication over a join semilattice. What was received, produced and sent is
    history; only the replica states take part in the steps. -/
structure Replicas (ι : Type u) (L : Type v) where
  state : ι → L
  received : ι → List L
  produced : List L
  sent : List L

namespace Replicas

variable {ι : Type u} {L : Type v} {R S : Replicas ι L}

section Invariant

variable [SemilatticeSup L] [OrderBot L]

def initial : Replicas ι L where
  state _ := ⊥
  received _ := []
  produced := []
  sent := []

structure Consistent (R : Replicas ι L) : Prop where
  state : ∀ i, R.state i = joinList (R.received i)
  received : ∀ i, ∀ x ∈ R.received i, x ≤ joinList R.produced
  sent : ∀ x ∈ R.sent, x ≤ joinList R.produced

theorem consistent_initial : Consistent (initial : Replicas ι L) := by
  constructor <;> simp [initial]

theorem Consistent.converged (inv : Consistent R) {i : ι}
    (complete : ∀ x ∈ R.produced, ∃ y ∈ R.received i, x ≤ y) : R.state i = joinList R.produced := by
  rw [inv.state]
  apply le_antisymm
  · exact joinList_le (inv.received i)
  · apply joinList_le
    intro x member
    obtain ⟨y, received, le⟩ := complete x member
    exact le.trans (le_joinList received)

end Invariant

variable [DecidableEq ι] [SemilatticeSup L]

def absorb (R : Replicas ι L) (i : ι) (x : L) : Replicas ι L :=
  { R with
    state := Function.update R.state i (R.state i ⊔ x)
    received := Function.update R.received i (R.received i ++ [x]) }

/-- Messages carry anything at or below the sender's state, and are never consumed. -/
inductive Step : Replicas ι L → Replicas ι L → Prop where
  | idle (R : Replicas ι L) : Step R R
  | produce (R : Replicas ι L) (i : ι) (x : L) : Step R { R.absorb i x with produced := R.produced ++ [x] }
  | send (R : Replicas ι L) (i : ι) (xs : List L) (below : ∀ x ∈ xs, x ≤ R.state i) :
      Step R { R with sent := R.sent ++ xs }
  | deliver (R : Replicas ι L) (i : ι) (x : L) (member : x ∈ R.sent) : Step R (R.absorb i x)

theorem mem_absorb_received {i j : ι} {x y : L} (member : y ∈ (R.absorb i x).received j) :
    y ∈ R.received j ∨ y = x := by
  by_cases same : j = i
  · subst same
    simpa [Replicas.absorb] using member
  · left
    simpa [Replicas.absorb, same] using member

theorem Step.produced_mono (step : Step R S) : ∀ x ∈ R.produced, x ∈ S.produced := by
  intro x member
  cases step with
  | produce i y => exact List.mem_append_left _ member
  | _ => exact member

theorem Step.state_mono (step : Step R S) (i : ι) : R.state i ≤ S.state i := by
  have absorbed : ∀ (T : Replicas ι L) (j : ι) (x : L), T.state i ≤ (T.absorb j x).state i := by
    intro T j x
    by_cases same : i = j
    · subst same
      simp [Replicas.absorb]
    · simp [Replicas.absorb, same]
  cases step with
  | idle => exact le_rfl
  | produce j x => exact absorbed R j x
  | send j xs below => exact le_rfl
  | deliver j x member => exact absorbed R j x

variable [OrderBot L]

theorem Consistent.absorb_state (inv : Consistent R) (i j : ι) (x : L) :
    (R.absorb i x).state j = joinList ((R.absorb i x).received j) := by
  by_cases same : j = i
  · subst same
    simp [Replicas.absorb, joinList_append, inv.state]
  · simp [Replicas.absorb, same, inv.state]

theorem Consistent.step (inv : Consistent R) (step : Step R S) : Consistent S := by
  have grow := joinList_mono step.produced_mono
  cases step with
  | idle => exact inv
  | produce i x =>
    refine ⟨fun j => inv.absorb_state i j x, ?_, fun y member => (inv.sent y member).trans grow⟩
    intro j y member
    rcases mem_absorb_received member with old | rfl
    · exact (inv.received j y old).trans grow
    · exact le_joinList (List.mem_append_right _ (List.mem_singleton_self _))
  | send i xs below =>
    refine ⟨inv.state, inv.received, ?_⟩
    intro y member
    rcases List.mem_append.mp member with old | new
    · exact inv.sent y old
    · exact (below y new).trans (by rw [inv.state]; exact joinList_le (inv.received i))
  | deliver i x sent =>
    refine ⟨fun j => inv.absorb_state i j x, ?_, inv.sent⟩
    intro j y member
    rcases mem_absorb_received member with old | rfl
    · exact inv.received j y old
    · exact inv.sent y sent

end Replicas

end Foundation
