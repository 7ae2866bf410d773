import Mathlib.Data.List.Basic
import Mathlib.Data.List.Perm.Basic
import Mathlib.Data.List.Nodup
import Mathlib.Order.Lattice

namespace Foundation

universe u v

/-- An ordered map whose entries carry their own key. Iteration order is ascending by key and
    no key occurs twice, both by construction. -/
structure KeyedMap {α : Type u} {κ : Type v} [LinearOrder κ] (key : α → κ) where
  entries : List α
  ascending : entries.Pairwise (fun a b => key a < key b)

namespace KeyedMap

variable {α : Type u} {κ : Type v} [LinearOrder κ] {key : α → κ}

def empty : KeyedMap key := ⟨[], .nil⟩

def find (m : KeyedMap key) (k : κ) : Option α := m.entries.find? (fun a => key a = k)

def place (key : α → κ) (a : α) : List α → List α
  | [] => [a]
  | b :: rest =>
    if key a < key b then a :: b :: rest
    else if key a = key b then a :: rest
    else b :: place key a rest

theorem mem_place {a b : α} {l : List α} (member : b ∈ place key a l) : b = a ∨ b ∈ l := by
  induction l with
  | nil => simpa [place] using member
  | cons head rest ih =>
    rw [place] at member
    split_ifs at member with before same
    · simpa using member
    · rcases List.mem_cons.mp member with rfl | later
      · exact .inl rfl
      · exact .inr (List.mem_cons_of_mem _ later)
    · rcases List.mem_cons.mp member with rfl | later
      · exact .inr List.mem_cons_self
      · exact (ih later).imp_right (List.mem_cons_of_mem _)

theorem place_ascending (a : α) {l : List α} (sorted : l.Pairwise (fun a b => key a < key b)) :
    (place key a l).Pairwise (fun a b => key a < key b) := by
  induction l with
  | nil => simp [place]
  | cons head rest ih =>
    have above : ∀ b ∈ rest, key head < key b := fun _ => List.rel_of_pairwise_cons sorted
    rw [place]
    split_ifs with before same
    · refine List.pairwise_cons.mpr ⟨?_, sorted⟩
      intro b member
      rcases List.mem_cons.mp member with rfl | later
      · exact before
      · exact before.trans (above _ later)
    · refine List.pairwise_cons.mpr ⟨?_, sorted.of_cons⟩
      intro b member
      rw [same]
      exact above _ member
    · refine List.pairwise_cons.mpr ⟨?_, ih sorted.of_cons⟩
      intro b member
      rcases mem_place member with rfl | later
      · exact lt_of_le_of_ne (not_lt.mp before) (Ne.symm same)
      · exact above _ later

def put (m : KeyedMap key) (a : α) : KeyedMap key :=
  ⟨place key a m.entries, place_ascending a m.ascending⟩

def filter (m : KeyedMap key) (p : α → Bool) : KeyedMap key :=
  ⟨m.entries.filter p, m.ascending.filter p⟩

def erase (m : KeyedMap key) (k : κ) : KeyedMap key := m.filter (fun a => key a ≠ k)

instance [DecidableEq α] : DecidableEq (KeyedMap key) := fun a b =>
  decidable_of_iff (a.entries = b.entries) ⟨fun same => by cases a; cases b; simpa using same,
    fun same => same ▸ rfl⟩

theorem keys_nodup (m : KeyedMap key) : (m.entries.map key).Nodup :=
  List.pairwise_map.mpr (m.ascending.imp fun less => less.ne)

theorem key_inj {m : KeyedMap key} {a b : α} (left : a ∈ m.entries) (right : b ∈ m.entries)
    (same : key a = key b) : a = b :=
  List.inj_on_of_nodup_map m.keys_nodup left right same

theorem find_eq_some {m : KeyedMap key} {k : κ} {a : α} :
    m.find k = some a ↔ a ∈ m.entries ∧ key a = k := by
  constructor
  · intro found
    exact ⟨List.mem_of_find?_eq_some found, by simpa using List.find?_some found⟩
  · rintro ⟨member, rfl⟩
    cases found : m.find (key a) with
    | none => simpa using List.find?_eq_none.mp found a member
    | some b =>
      have same : key b = key a := by simpa using List.find?_some found
      rw [key_inj (List.mem_of_find?_eq_some found) member same]

theorem find_key {m : KeyedMap key} {k : κ} {a : α} (found : m.find k = some a) : key a = k :=
  (find_eq_some.mp found).2

theorem find_eq_none {m : KeyedMap key} {k : κ} :
    m.find k = none ↔ ∀ a ∈ m.entries, key a ≠ k := by
  simp [find]

theorem find_self {m : KeyedMap key} {a : α} (member : a ∈ m.entries) : m.find (key a) = some a :=
  find_eq_some.mpr ⟨member, rfl⟩

theorem ext_find {m n : KeyedMap key} (same : ∀ k, m.find k = n.find k) : m = n := by
  have members : ∀ a, a ∈ m.entries ↔ a ∈ n.entries := by
    intro a
    have both := same (key a)
    constructor
    · intro member
      rw [find_self member] at both
      exact (find_eq_some.mp both.symm).1
    · intro member
      rw [find_self member] at both
      exact (find_eq_some.mp both).1
  have perm : m.entries.Perm n.entries :=
    (List.perm_ext_iff_of_nodup m.keys_nodup.of_map n.keys_nodup.of_map).mpr members
  have entries : m.entries = n.entries :=
    perm.eq_of_pairwise (fun a b _ _ hab hba => absurd hab (not_lt.mpr hba.le))
      m.ascending n.ascending
  cases m
  cases n
  simpa using entries

theorem mem_put_self (m : KeyedMap key) (a : α) : a ∈ (m.put a).entries := by
  obtain ⟨l, sorted⟩ := m
  change a ∈ place key a l
  clear sorted
  induction l with
  | nil => simp [place]
  | cons head rest ih =>
    rw [place]
    split_ifs <;> simp [ih]

theorem find_put_ne {m : KeyedMap key} {a : α} {k : κ} (other : key a ≠ k) :
    (m.put a).find k = m.find k := by
  obtain ⟨l, sorted⟩ := m
  change (place key a l).find? _ = l.find? _
  clear sorted
  induction l with
  | nil => simp [place, other]
  | cons head rest ih =>
    rw [place]
    split_ifs with before same
    · simp [other]
    · have headOther : key head ≠ k := same ▸ other
      simp [other, headOther]
    · simp only [List.find?_cons, ih]

theorem find_put (m : KeyedMap key) (a : α) (k : κ) [Decidable (key a = k)] :
    (m.put a).find k = if key a = k then some a else m.find k := by
  split_ifs with same
  · rw [← same]
    exact find_self (mem_put_self m a)
  · exact find_put_ne same

theorem find_foldl_put (m : KeyedMap key) {l : List α} (distinct : (l.map key).Nodup) (k : κ) :
    (l.foldl put m).find k = (l.find? (fun a => key a = k)).or (m.find k) := by
  induction l generalizing m with
  | nil => rfl
  | cons a rest ih =>
    rw [List.map_cons, List.nodup_cons] at distinct
    rw [List.foldl_cons, ih (m.put a) distinct.2, find_put]
    by_cases same : key a = k
    · have absent : rest.find? (fun b => key b = k) = none := by
        rw [List.find?_eq_none]
        intro b member found
        exact distinct.1 (List.mem_map.mpr ⟨b, member, (of_decide_eq_true found).trans same.symm⟩)
      rw [absent, if_pos same, List.find?_cons_of_pos (by simpa using same)]
      rfl
    · rw [if_neg same, List.find?_cons_of_neg (by simpa using same)]

theorem find_filter (m : KeyedMap key) (p : α → Bool) (k : κ) :
    (m.filter p).find k = (m.find k).filter p := by
  cases found : m.find k with
  | none =>
    rw [Option.filter_none, find_eq_none]
    intro a member
    exact find_eq_none.mp found a (List.mem_filter.mp member).1
  | some a =>
    obtain ⟨member, same⟩ := find_eq_some.mp found
    cases keep : p a with
    | true =>
      rw [Option.filter_some_pos keep, find_eq_some]
      exact ⟨List.mem_filter.mpr ⟨member, keep⟩, same⟩
    | false =>
      rw [Option.filter_some_neg (by simp [keep]), find_eq_none]
      intro b kept sameKey
      obtain ⟨bMember, bKept⟩ := List.mem_filter.mp kept
      rw [key_inj bMember member (sameKey.trans same.symm), keep] at bKept
      exact Bool.false_ne_true bKept

theorem find_erase (m : KeyedMap key) (k j : κ) [Decidable (j = k)] :
    (m.erase k).find j = if j = k then none else m.find j := by
  rw [erase, find_filter]
  split_ifs with same
  · subst same
    cases found : m.find j with
    | none => rfl
    | some a => simp [find_key found]
  · cases found : m.find j with
    | none => rfl
    | some a =>
      have other : key a ≠ k := fun h => same ((find_key found).symm.trans h)
      simp [other]

theorem mem_filter {m : KeyedMap key} {p : α → Bool} {a : α} :
    a ∈ (m.filter p).entries ↔ a ∈ m.entries ∧ p a = true := List.mem_filter

omit [LinearOrder κ] in
theorem filter_key_eq [DecidableEq κ] {l : List α} {a : α} (distinct : (l.map key).Nodup) (member : a ∈ l) :
    l.filter (fun b => key b = key a) = [a] := by
  induction l with
  | nil => cases member
  | cons head rest ih =>
    rw [List.map_cons, List.nodup_cons] at distinct
    rcases List.mem_cons.mp member with rfl | inRest
    · have others : rest.filter (fun b => key b = key a) = [] := by
        rw [List.filter_eq_nil_iff]
        intro b inTail same
        exact distinct.1 (List.mem_map.mpr ⟨b, inTail, of_decide_eq_true same⟩)
      rw [List.filter_cons_of_pos (by simp), others]
    · have differs : ¬ key head = key a := fun same =>
        distinct.1 (List.mem_map.mpr ⟨a, inRest, same.symm⟩)
      rw [List.filter_cons_of_neg (by simpa using differs), ih distinct.2 inRest]

end KeyedMap

end Foundation
