import Mathlib.Data.List.Basic
import Mathlib.Order.Lattice
import Mathlib.Tactic.SplitIfs

namespace Foundation

universe u

/-- Where a conversion writes: a buffer of the caller's, or none when it only counts. -/
structure OutputBuffer (α : Type u) where
  cells : Option (List α)
  offset : Nat := 0

namespace OutputBuffer

variable {α : Type u}

def capacity (out : OutputBuffer α) : Nat := (out.cells.getD []).length

/-- The units are written if there is room for all of them, and counted in any case. -/
def put (out : OutputBuffer α) (units : List α) : OutputBuffer α where
  cells := out.cells.map fun cells =>
    if out.offset + units.length ≤ cells.length then
      cells.take out.offset ++ units ++ cells.drop (out.offset + units.length)
    else cells
  offset := out.offset + units.length

def count (out : OutputBuffer α) : Nat :=
  if out.cells.isNone ∨ out.capacity = 0 then out.offset else min out.offset out.capacity

@[simp] theorem put_offset (out : OutputBuffer α) (units : List α) :
    (out.put units).offset = out.offset + units.length := rfl

def Fits (out : OutputBuffer α) (n : Nat) : Prop := ∀ cells, out.cells = some cells → out.offset + n ≤ cells.length

theorem Fits.mono {out : OutputBuffer α} {m n : Nat} (room : out.Fits n) (fewer : m ≤ n) : out.Fits m := by
  intro cells held
  have enough := room cells held
  omega

theorem Fits.put {out : OutputBuffer α} {units : List α} {n : Nat} (room : out.Fits (units.length + n)) :
    (out.put units).Fits n := by
  intro cells held
  obtain ⟨before, buffer, rfl⟩ := Option.map_eq_some_iff.mp held
  have enough := room before buffer
  rw [put_offset]
  split_ifs with writes
  · simp only [List.length_append, List.length_take, List.length_drop]
    omega
  · omega

@[simp] theorem put_nil (out : OutputBuffer α) : out.put [] = out := by
  obtain ⟨cells, offset⟩ := out
  cases cells with
  | none => rfl
  | some cells => simp [OutputBuffer.put]

theorem put_put {out : OutputBuffer α} {first second : List α} (room : out.Fits (first.length + second.length)) :
    (out.put first).put second = out.put (first ++ second) := by
  obtain ⟨cells, offset⟩ := out
  cases cells with
  | none => simp [OutputBuffer.put, Nat.add_assoc]
  | some cells =>
    have enough := room cells rfl
    simp only at enough
    have one : offset + first.length ≤ cells.length := by omega
    have both : offset + (first ++ second).length ≤ cells.length := by
      rw [List.length_append]
      omega
    have start : (cells.take offset).length = offset := List.length_take_of_le (by omega)
    have two : offset + first.length + second.length ≤
        (cells.take offset ++ first ++ cells.drop (offset + first.length)).length := by
      simp only [List.length_append, start, List.length_drop]
      omega
    have kept : (cells.take offset ++ first).length = offset + first.length := by rw [List.length_append, start]
    have rest : offset + first.length + second.length - (cells.take offset ++ first).length = second.length := by omega
    have past : (cells.take offset ++ first).drop (offset + first.length + second.length) = [] := by
      apply List.drop_of_length_le
      omega
    simp only [OutputBuffer.put, Option.map_some, if_pos one, if_pos both, if_pos two, mk.injEq, Option.some.injEq]
    constructor
    · rw [List.take_append_of_le_length kept.ge, List.take_of_length_le kept.le, List.drop_append, past, rest,
        List.nil_append, List.drop_drop, List.length_append]
      simp only [List.append_assoc, Nat.add_assoc]
    · rw [List.length_append, Nat.add_assoc]

theorem put_length (out : OutputBuffer α) (units : List α) :
    (out.put units).cells.map List.length = out.cells.map List.length := by
  obtain ⟨cells, offset⟩ := out
  cases cells with
  | none => rfl
  | some cells =>
    simp only [OutputBuffer.put, Option.map_some, Option.some.injEq]
    split_ifs with room
    · simp only [List.length_append, List.length_take, List.length_drop]
      omega
    · rfl

/-- A conversion returns the units it has put, or nothing where it stopped early. -/
def convert (run : OutputBuffer α → Bool × OutputBuffer α) (cells : Option (List α)) : Nat × Option (List α) :=
  let result := run ⟨cells, 0⟩
  (if result.1 then result.2.count else 0, result.2.cells)

/-- The units are counted first, and written into a buffer of that size then. -/
def twoPasses (run : OutputBuffer α → Bool × OutputBuffer α) (blank : α) : List α :=
  let size := (convert run none).1
  if size = 0 then []
  else ((convert run (some (List.replicate size blank))).2).getD []

/-- A step that puts these units where it has room for them. -/
structure Puts (step : OutputBuffer α → OutputBuffer α) (units : List α) : Prop where
  puts : ∀ out, out.Fits units.length → step out = out.put units
  length : ∀ out, (step out).cells.map List.length = out.cells.map List.length

theorem Puts.one (units : List α) : Puts (fun out => out.put units) units where
  puts _ _ := rfl
  length out := put_length out units

theorem Puts.two (first second : List α) : Puts (fun out => (out.put first).put second) (first ++ second) where
  puts out room := put_put (List.length_append ▸ room)
  length out := by rw [put_length, put_length]

/-- The run says whether it came to its end, and puts these units where it has room for them. -/
structure Writes (run : OutputBuffer α → Bool × OutputBuffer α) (accepted : Bool) (units : List α) : Prop where
  accepts : ∀ out, (run out).1 = accepted
  puts : ∀ out, out.Fits units.length → (run out).2 = out.put units
  length : ∀ out, (run out).2.cells.map List.length = out.cells.map List.length

namespace Writes

variable {run : OutputBuffer α → Bool × OutputBuffer α} {accepted : Bool} {units : List α}

theorem ended (accepted : Bool) : Writes (α := α) (fun out => (accepted, out)) accepted [] where
  accepts _ := rfl
  puts out _ := (put_nil out).symm
  length _ := rfl

theorem after {step : OutputBuffer α → OutputBuffer α} {first : List α} (before : Puts step first)
    (writes : Writes run accepted units) : Writes (fun out => run (step out)) accepted (first ++ units) where
  accepts out := writes.accepts (step out)
  puts out room := by
    rw [List.length_append] at room
    have stepped := before.puts out (room.mono (Nat.le_add_right ..))
    rw [stepped, writes.puts _ room.put, put_put room]
  length out := (writes.length _).trans (before.length out)

theorem counted (writes : Writes run accepted units) :
    (convert run none).1 = (if accepted then units else []).length := by
  have sized := writes.puts ⟨none, 0⟩ fun cells held => by cases held
  simp only [convert, writes.accepts, sized]
  cases accepted with
  | false => rfl
  | true => exact Nat.zero_add units.length

theorem filled (writes : Writes run accepted units) {cells : List α}
    (sized : cells.length = (if accepted then units else []).length) :
    convert run (some cells) = ((if accepted then units else []).length, some (if accepted then units else [])) := by
  cases accepted with
  | false =>
    obtain rfl := List.length_eq_zero_iff.mp sized
    obtain ⟨left, held, empty⟩ := Option.map_eq_some_iff.mp (writes.length ⟨some [], 0⟩)
    rw [List.length_nil, List.length_eq_zero_iff] at empty
    simp only [convert, writes.accepts, held, empty]
    rfl
  | true =>
    simp only [if_true] at sized ⊢
    have written := writes.puts ⟨some cells, 0⟩ fun buffer held => by
      obtain rfl := Option.some.inj held
      simp only
      omega
    have whole : (⟨some cells, 0⟩ : OutputBuffer α).put units = ⟨some units, units.length⟩ := by
      simp only [OutputBuffer.put, Option.map_some, Nat.zero_add, if_pos sized.ge, List.take_zero, List.nil_append,
        List.drop_of_length_le sized.le, List.append_nil]
    simp only [convert, writes.accepts, written, whole, if_true, count, capacity, Option.getD_some, min_self, ite_self]

theorem passes (writes : Writes run accepted units) (blank : α) :
    twoPasses run blank = if accepted then units else [] := by
  rw [twoPasses, writes.counted]
  by_cases nothing : (if accepted then units else []).length = 0
  · rw [if_pos nothing, List.length_eq_zero_iff.mp nothing]
  · rw [if_neg nothing, writes.filled (List.length_replicate ..), Option.getD_some]

end Writes

end OutputBuffer

end Foundation
