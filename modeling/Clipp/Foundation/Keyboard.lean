import Clipp.Foundation.Machine
import Mathlib.Data.Finset.Basic
import Mathlib.Data.Finset.Dedup
import Mathlib.Data.Finset.Lattice.Lemmas
import Mathlib.Data.Finset.SDiff
import Mathlib.Data.List.Nodup

namespace Foundation

universe u

structure KeyEvent (κ : Type u) where
  key : κ
  down : Bool
  deriving DecidableEq

namespace Keyboard

variable {κ : Type u}

def tap (k : κ) : List (KeyEvent κ) := [⟨k, true⟩, ⟨k, false⟩]

def presses (keys : List κ) : List (KeyEvent κ) := keys.map fun k => ⟨k, true⟩

def releases (keys : List κ) : List (KeyEvent κ) := keys.map fun k => ⟨k, false⟩

@[simp] theorem presses_keys (keys : List κ) : (presses keys).map KeyEvent.key = keys := by
  simp [presses, Function.comp_def]

@[simp] theorem releases_keys (keys : List κ) : (releases keys).map KeyEvent.key = keys := by
  simp [releases, Function.comp_def]

variable [DecidableEq κ]

/-- What an input queue makes of an event: a key is down or up, however often it was pressed. -/
def queueStep (held : Finset κ) (event : KeyEvent κ) : Finset κ :=
  if event.down then insert event.key held else held.erase event.key

def queue (held : Finset κ) (events : List (KeyEvent κ)) : Finset κ := events.foldl queueStep held

/-- The same for a careful player: no press of a key that is down, no release of one that is up. -/
def carefulStep (held : Finset κ) (event : KeyEvent κ) : Option (Finset κ) :=
  if event.down = decide (event.key ∈ held) then none else some (queueStep held event)

def careful (held : Finset κ) (events : List (KeyEvent κ)) : Option (Finset κ) := runLabels carefulStep held events

/-- A stack of the keys in flight: a press is pushed, a release takes the newest press of its key away. -/
def stackStep (stack : List κ) (event : KeyEvent κ) : List κ :=
  if event.down then stack ++ [event.key] else (stack.reverse.erase event.key).reverse

def stack (keys : List κ) (events : List (KeyEvent κ)) : List κ := events.foldl stackStep keys

variable {held next : Finset κ} {keys : List κ} {k : κ} {before after : List (KeyEvent κ)}

theorem queue_append (held : Finset κ) (before after : List (KeyEvent κ)) :
    queue held (before ++ after) = queue (queue held before) after := List.foldl_append

theorem stack_append (keys : List κ) (before after : List (KeyEvent κ)) :
    stack keys (before ++ after) = stack (stack keys before) after := List.foldl_append

theorem careful_append (held : Finset κ) (before after : List (KeyEvent κ)) :
    careful held (before ++ after) = (careful held before).bind (fun next => careful next after) :=
  runLabels_append

theorem careful_press (up : k ∉ held) : careful held [⟨k, true⟩] = some (insert k held) := by
  simp [careful, runLabels, carefulStep, queueStep, up]

theorem careful_release (down : k ∈ held) : careful held [⟨k, false⟩] = some (held.erase k) := by
  simp [careful, runLabels, carefulStep, queueStep, down]

theorem careful_tap (up : k ∉ held) : careful held (tap k) = some held := by
  have pressed := careful_append held [⟨k, true⟩] [⟨k, false⟩]
  rw [careful_press up, Option.bind_some, careful_release (Finset.mem_insert_self k held),
    Finset.erase_insert up] at pressed
  exact pressed

theorem careful_presses (fresh : keys.Nodup) (up : ∀ k ∈ keys, k ∉ held) :
    careful held (presses keys) = some (held ∪ keys.toFinset) := by
  induction keys generalizing held with
  | nil => simp [careful, runLabels, presses]
  | cons k keys ih =>
    obtain ⟨apart, fresh⟩ := List.nodup_cons.mp fresh
    have first := careful_press (up k List.mem_cons_self)
    have split := careful_append held [⟨k, true⟩] (presses keys)
    rw [first, Option.bind_some, ih fresh] at split
    · show careful held ([⟨k, true⟩] ++ presses keys) = _
      rw [split, List.toFinset_cons, Finset.insert_union, Finset.union_insert]
    · intro other member
      rw [Finset.mem_insert, not_or]
      constructor
      · rintro rfl
        exact apart member
      · exact up other (List.mem_cons_of_mem k member)

theorem careful_releases (fresh : keys.Nodup) (down : ∀ k ∈ keys, k ∈ held) :
    careful held (releases keys) = some (held \ keys.toFinset) := by
  induction keys generalizing held with
  | nil => simp [careful, runLabels, releases]
  | cons k keys ih =>
    obtain ⟨apart, fresh⟩ := List.nodup_cons.mp fresh
    have first := careful_release (down k List.mem_cons_self)
    have split := careful_append held [⟨k, false⟩] (releases keys)
    rw [first, Option.bind_some, ih fresh] at split
    · show careful held ([⟨k, false⟩] ++ releases keys) = _
      rw [split, List.toFinset_cons, Finset.sdiff_insert, Finset.erase_sdiff_comm]
    · intro other member
      apply Finset.mem_erase.mpr
      constructor
      · rintro rfl
        exact apart member
      · exact down other (List.mem_cons_of_mem k member)

theorem carefulStep_eq {event : KeyEvent κ} (played : carefulStep held event = some next) :
    queueStep held event = next ∧ (event.down = true ↔ event.key ∉ held) := by
  rw [carefulStep] at played
  split at played
  · cases played
  · rename_i differ
    cases played
    cases down : event.down <;> simp_all

theorem queue_of_careful (played : careful held before = some next) : queue held before = next := by
  induction before generalizing held with
  | nil =>
    cases played
    rfl
  | cons event before ih =>
    obtain ⟨mid, first, rest⟩ := Option.bind_eq_some_iff.mp played
    rw [← ih rest, ← (carefulStep_eq first).1]
    rfl

theorem careful_take (played : careful held before = some next) (n : Nat) :
    ∃ mid, careful held (before.take n) = some mid := by
  have split := careful_append held (before.take n) (before.drop n)
  rw [List.take_append_drop, played] at split
  cases cut : careful held (before.take n) with
  | none =>
    rw [cut] at split
    cases split
  | some mid => exact ⟨mid, rfl⟩

section Stack

variable {stacked : List κ}

theorem newest_erased (fresh : stacked.Nodup) (k : κ) : (stacked.reverse.erase k).reverse = stacked.erase k := by
  rw [(List.nodup_reverse.mpr fresh).erase_eq_filter, fresh.erase_eq_filter, ← List.filter_reverse, List.reverse_reverse]

theorem stackStep_press (stacked : List κ) (k : κ) : stackStep stacked ⟨k, true⟩ = stacked ++ [k] := rfl

theorem stackStep_release (fresh : stacked.Nodup) (k : κ) : stackStep stacked ⟨k, false⟩ = stacked.erase k :=
  newest_erased fresh k

theorem stack_tap (stacked : List κ) (k : κ) : stack stacked (tap k) = stacked := by
  simp [stack, tap, stackStep]

theorem stack_presses (stacked keys : List κ) : stack stacked (presses keys) = stacked ++ keys := by
  induction keys generalizing stacked with
  | nil => simp [stack, presses]
  | cons k keys ih =>
    have rest := ih (stacked ++ [k])
    rw [List.append_assoc, List.singleton_append] at rest
    exact rest

theorem stack_releases (fresh : stacked.Nodup) (keys : List κ) :
    stack stacked (releases keys) = stacked.filter (fun k => k ∉ keys) := by
  induction keys generalizing stacked with
  | nil => simp [stack, releases]
  | cons k keys ih =>
    have rest := ih (fresh.erase k)
    rw [← stackStep_release fresh k] at rest
    show stack (stackStep stacked ⟨k, false⟩) (releases keys) = _
    rw [rest, stackStep_release fresh, fresh.erase_eq_filter, List.filter_filter]
    apply List.filter_congr
    intro other _
    by_cases same : other = k <;> simp [same]

theorem stack_of_careful (fresh : stacked.Nodup) (lists : stacked.toFinset = held)
    (played : careful held before = some next) :
    (stack stacked before).Nodup ∧ (stack stacked before).toFinset = next := by
  induction before generalizing held stacked with
  | nil =>
    cases played
    exact ⟨fresh, lists⟩
  | cons event before ih =>
    obtain ⟨mid, first, rest⟩ := Option.bind_eq_some_iff.mp played
    obtain ⟨stepped, allowed⟩ := carefulStep_eq first
    obtain ⟨k, down⟩ := event
    show (stack (stackStep stacked ⟨k, down⟩) before).Nodup ∧ (stack (stackStep stacked ⟨k, down⟩) before).toFinset = next
    cases down with
    | true =>
      have up : k ∉ stacked := by
        rw [← List.mem_toFinset, lists]
        exact allowed.mp rfl
      rw [stackStep_press]
      apply ih _ _ rest
      · exact fresh.append (List.nodup_singleton k) (by simpa using up)
      · rw [← stepped, List.toFinset_append, lists]
        simp [queueStep]
    | false =>
      rw [stackStep_release fresh]
      apply ih _ _ rest
      · exact fresh.erase k
      · rw [← stepped, ← lists]
        ext other
        simp [queueStep, fresh.mem_erase_iff]

theorem queue_subset_stack (listed : ∀ k ∈ held, k ∈ stacked) (before : List (KeyEvent κ)) :
    ∀ k ∈ queue held before, k ∈ stack stacked before := by
  induction before generalizing held stacked with
  | nil => exact listed
  | cons event before ih =>
    show ∀ k ∈ queue (queueStep held event) before, k ∈ stack (stackStep stacked event) before
    apply ih
    intro k member
    obtain ⟨key, down⟩ := event
    cases down with
    | true =>
      rcases Finset.mem_insert.mp member with rfl | earlier
      · simp [stackStep]
      · simp [stackStep, listed k earlier]
    | false =>
      obtain ⟨other, earlier⟩ := Finset.mem_erase.mp member
      have kept : k ∈ stacked.reverse.erase key :=
        (List.mem_erase_of_ne other).mpr (List.mem_reverse.mpr (listed k earlier))
      simpa [stackStep] using kept

theorem queue_releases (held : Finset κ) (keys : List κ) : queue held (releases keys) = held \ keys.toFinset := by
  induction keys generalizing held with
  | nil => simp [queue, releases]
  | cons k keys ih =>
    have rest := ih (held.erase k)
    rw [Finset.erase_sdiff_comm, ← Finset.sdiff_insert, ← List.toFinset_cons] at rest
    exact rest

end Stack

end Keyboard

end Foundation
