import Mathlib.Data.List.Basic
import Mathlib.Data.List.Count
import Mathlib.Data.List.Nodup

namespace Foundation.KeyedList

universe u v

variable {α : Type u} {κ : Type v} [DecidableEq κ] {key : α → κ} {k : κ} {f : α → α} {l : List α} {a b : α}

/-- The entries under one key are replaced, the others stay where they are. -/
def modify (key : α → κ) (k : κ) (f : α → α) (l : List α) : List α := l.map (fun a => if key a = k then f a else a)

theorem keys_modify (kept : ∀ a, key a = k → key (f a) = k) : (modify key k f l).map key = l.map key := by
  rw [modify, List.map_map]
  apply List.map_congr_left
  intro a _
  dsimp only [Function.comp_apply]
  split_ifs with here
  · exact (kept a here).trans here.symm
  · rfl

theorem mem_modify : b ∈ modify key k f l ↔ ∃ a ∈ l, (if key a = k then f a else a) = b := List.mem_map

theorem modify_cons_self : modify key (key a) f (a :: l) = f a :: modify key (key a) f l := by
  rw [modify, List.map_cons, if_pos rfl, modify]

theorem modify_of_notMem (missing : k ∉ l.map key) : modify key k f l = l := by
  induction l with
  | nil => rfl
  | cons head rest ih =>
    rw [List.map_cons, List.mem_cons, not_or] at missing
    have same : modify key k f rest = rest := ih missing.2
    rw [modify, List.map_cons, if_neg (Ne.symm missing.1), ← modify, same]

theorem countP_modify_le (p : α → Bool) (less : ∀ a ∈ l, key a = k → p (f a) = true → p a = true) :
    (modify key k f l).countP p ≤ l.countP p := by
  rw [modify, List.countP_map]
  apply List.countP_mono_left
  intro a member counted
  dsimp only [Function.comp_apply] at counted
  split_ifs at counted with here
  · exact less a member here counted
  · exact counted

theorem countP_modify (distinct : (l.map key).Nodup) (member : a ∈ l) (p : α → Bool) :
    (modify key (key a) f l).countP p + (if p a then 1 else 0) = l.countP p + (if p (f a) then 1 else 0) := by
  induction l with
  | nil => cases member
  | cons head rest ih =>
    rw [List.map_cons, List.nodup_cons] at distinct
    rcases List.mem_cons.mp member with rfl | inRest
    · rw [modify_cons_self, modify_of_notMem distinct.1, List.countP_cons, List.countP_cons]
      omega
    · have apart : ¬ key head = key a := fun same => distinct.1 (List.mem_map.mpr ⟨a, inRest, same.symm⟩)
      have step : modify key (key a) f (head :: rest) = head :: modify key (key a) f rest := by
        rw [modify, List.map_cons, if_neg apart, modify]
      rw [step, List.countP_cons, List.countP_cons]
      have later := ih distinct.2 inRest
      omega

theorem find_of_mem (distinct : (l.map key).Nodup) (member : a ∈ l) : l.find? (fun b => key b = key a) = some a := by
  cases found : l.find? (fun b => key b = key a) with
  | none => exact absurd (decide_eq_true rfl) (List.find?_eq_none.mp found a member)
  | some b =>
    have same : key b = key a := by simpa using List.find?_some found
    rw [List.inj_on_of_nodup_map distinct (List.mem_of_find?_eq_some found) member same]

section Numbered

variable {number : α → Nat} {next : Nat}

theorem below_append (below : ∀ a ∈ l, number a < next) (named : number b = next) :
    ∀ a ∈ l ++ [b], number a < next + 1 := by
  intro a member
  rcases List.mem_append.mp member with before | last
  · exact Nat.lt_succ_of_lt (below a before)
  · rw [List.mem_singleton.mp last, named]
    exact Nat.lt_succ_self _

theorem distinct_append (distinct : (l.map number).Nodup) (below : ∀ a ∈ l, number a < next)
    (named : number b = next) : ((l ++ [b]).map number).Nodup := by
  rw [List.map_append, List.nodup_append]
  refine ⟨distinct, List.nodup_singleton _, fun n before m last same => ?_⟩
  obtain ⟨a, member, rfl⟩ := List.mem_map.mp before
  have earlier := below a member
  rw [List.mem_singleton.mp last, named] at same
  omega

end Numbered

end Foundation.KeyedList
