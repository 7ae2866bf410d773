import Clipp.Foundation.KeyedMap
import Clipp.Foundation.LowerBound
import Mathlib.Data.List.Sort

namespace Foundation.SortedVector

universe u v

variable {α : Type u} {κ : Type v} [LinearOrder κ] {key : α → κ} {k : κ} {a b : α} {l front back : List α}

/-- The place in a vector of the first entry of a key, which is its end where there is none. -/
def position (key : α → κ) (k : κ) (l : List α) : Nat := l.findIdx (fun a => key a = k)

def upperBound (key : α → κ) (k : κ) (l : List α) : Nat := lowerBound (fun a => !decide (k < key a)) l 0 l.length

def sort (key : α → κ) (l : List α) : List α := l.insertionSort (fun a b => key a ≤ key b)

theorem sort_eq (ascending : l.Pairwise (fun a b => key a < key b)) : sort key l = l :=
  (ascending.imp le_of_lt).insertionSort_eq

theorem place_append (low : ∀ b ∈ front, key b < key a) (high : ∀ b ∈ back, key a < key b) :
    KeyedMap.place key a (front ++ back) = front ++ a :: back := by
  induction front with
  | nil =>
    cases back with
    | nil => rfl
    | cons next rest =>
      have before := high next List.mem_cons_self
      rw [List.nil_append, KeyedMap.place, if_pos before, List.nil_append]
  | cons first rest ih =>
    have before := low first List.mem_cons_self
    rw [List.cons_append, KeyedMap.place, if_neg before.not_gt, if_neg before.ne',
      ih (fun b member => low b (List.mem_cons_of_mem _ member)), List.cons_append]

theorem place_over (low : ∀ c ∈ front, key c < key a) (same : key a = key b) :
    KeyedMap.place key a (front ++ b :: back) = front ++ a :: back := by
  induction front with
  | nil => rw [List.nil_append, KeyedMap.place, if_neg same.not_lt, if_pos same, List.nil_append]
  | cons first rest ih =>
    have before := low first List.mem_cons_self
    rw [List.cons_append, KeyedMap.place, if_neg before.not_gt, if_neg before.ne',
      ih (fun c member => low c (List.mem_cons_of_mem _ member)), List.cons_append]

theorem position_append (low : ∀ c ∈ front, key c < k) (here : key b = k) :
    position key k (front ++ b :: back) = front.length := by
  induction front with
  | nil => rw [position, List.nil_append, List.findIdx_cons, decide_eq_true here, cond_true, List.length_nil]
  | cons first rest ih =>
    have before := low first List.mem_cons_self
    have later := ih (fun c member => low c (List.mem_cons_of_mem _ member))
    rw [position] at later
    rw [position, List.cons_append, List.findIdx_cons, later, decide_eq_false before.ne, cond_false, List.length_cons]

theorem split_of_find {m : KeyedMap key} (found : m.find k = some b) :
    ∃ front back, m.entries = front ++ b :: back ∧ (∀ a ∈ front, key a < k) ∧ ∀ a ∈ back, k < key a := by
  obtain ⟨member, here⟩ := KeyedMap.find_eq_some.mp found
  obtain ⟨front, back, parts⟩ := List.append_of_mem member
  have ascending := m.ascending
  rw [parts, List.pairwise_append] at ascending
  subst here
  refine ⟨front, back, parts, fun a early => ascending.2.2 a early b List.mem_cons_self, fun a late => ?_⟩
  exact List.rel_of_pairwise_cons ascending.2.1 late

theorem split_of_absent {m : KeyedMap key} (absent : m.find k = none) :
    ∃ front back, m.entries = front ++ back ∧ (∀ a ∈ front, key a < k) ∧ ∀ a ∈ back, k < key a := by
  obtain ⟨l, ascending⟩ := m
  have apart : ∀ a ∈ l, key a ≠ k := KeyedMap.find_eq_none.mp absent
  clear absent
  induction l with
  | nil => exact ⟨[], [], rfl, fun a none => absurd none List.not_mem_nil, fun a none => absurd none List.not_mem_nil⟩
  | cons first rest ih =>
    rcases lt_or_gt_of_ne (apart first List.mem_cons_self) with before | after
    · obtain ⟨front, back, parts, low, high⟩ :=
        ih ascending.of_cons (fun a member => apart a (List.mem_cons_of_mem _ member))
      refine ⟨first :: front, back, congrArg (first :: ·) parts, ?_, high⟩
      exact List.forall_mem_cons.mpr ⟨before, low⟩
    · refine ⟨[], first :: rest, rfl, fun a none => absurd none List.not_mem_nil, ?_⟩
      exact List.forall_mem_cons.mpr ⟨after, fun a member => after.trans (List.rel_of_pairwise_cons ascending member)⟩

theorem insertIdx_upperBound {m : KeyedMap key} (absent : m.find (key a) = none) :
    m.entries.insertIdx (upperBound key (key a) m.entries) a = (m.put a).entries := by
  obtain ⟨front, back, parts, low, high⟩ := split_of_absent absent
  have bound : upperBound key (key a) m.entries = front.length := by
    rw [upperBound, parts]
    apply lowerBound_bisects
    · intro b early
      simpa using (low b early).le
    · intro b late
      simpa using high b late
    · exact (Nat.zero_add _).le
    · exact Nat.zero_le _
    · simp
  rw [bound, parts, insertIdx_length_append]
  show front ++ a :: back = KeyedMap.place key a m.entries
  rw [parts, place_append low high]

theorem set_position {m : KeyedMap key} (found : m.find (key a) = some b) :
    m.entries.set (position key (key a) m.entries) a = (m.put a).entries := by
  obtain ⟨front, back, parts, low, _⟩ := split_of_find found
  have here := KeyedMap.find_key found
  show m.entries.set _ a = KeyedMap.place key a m.entries
  rw [parts, position_append low here, place_over low here.symm, List.set_append_right _ _ le_rfl, Nat.sub_self,
    List.set_cons_zero]

theorem eraseIdx_position {m : KeyedMap key} (found : m.find k = some b) :
    m.entries.eraseIdx (position key k m.entries) = (m.erase k).entries := by
  obtain ⟨front, back, parts, low, high⟩ := split_of_find found
  have here := KeyedMap.find_key found
  have kept : front.filter (fun a => key a ≠ k) = front :=
    List.filter_eq_self.mpr fun a early => decide_eq_true (low a early).ne
  have keptBehind : back.filter (fun a => key a ≠ k) = back :=
    List.filter_eq_self.mpr fun a late => decide_eq_true (high a late).ne'
  show m.entries.eraseIdx _ = m.entries.filter (fun a => key a ≠ k)
  rw [parts, position_append low here, List.eraseIdx_append_of_length_le le_rfl, Nat.sub_self, List.eraseIdx_cons_zero,
    List.filter_append, kept, List.filter_cons_of_neg (by simpa using here), keptBehind]

end Foundation.SortedVector
