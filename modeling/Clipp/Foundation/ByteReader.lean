import Clipp.Foundation.ByteOrder
import Mathlib.Data.Option.Basic

namespace Foundation

abbrev Reader (α : Type) := StateT Bytes Option α

namespace Reader

variable {α β : Type}

def bytes (n : Nat) : Reader Bytes := fun input =>
  if input.length < n then none else some (input.take n, input.drop n)

def int (width : Nat) : Reader Nat := do
  let field ← bytes width
  return number field

def check (p : Prop) [Decidable p] : Reader Unit := fun input => if p then some ((), input) else none

def times : Nat → Reader α → Reader (List α)
  | 0, _ => pure []
  | n + 1, r => do
    let head ← r
    let rest ← times n r
    return head :: rest

def whole (r : Reader α) (input : Bytes) : Option α :=
  match r input with
  | some (a, []) => some a
  | _ => none

/-- The reader takes exactly this encoding off any input that starts with it. -/
def Reads (r : Reader α) (encoding : Bytes) (a : α) : Prop :=
  ∀ rest, r (encoding ++ rest) = some (a, rest)

theorem bind_eq_some {r : Reader α} {f : α → Reader β} {input rest : Bytes} {b : β} :
    (r >>= f) input = some (b, rest) ↔ ∃ a mid, r input = some (a, mid) ∧ f a mid = some (b, rest) := by
  change (r input).bind (fun p => f p.1 p.2) = some (b, rest) ↔ _
  rw [Option.bind_eq_some_iff]
  exact ⟨fun ⟨p, first, second⟩ => ⟨p.1, p.2, first, second⟩,
    fun ⟨a, mid, first, second⟩ => ⟨(a, mid), first, second⟩⟩

theorem pure_eq_some {input rest : Bytes} {a b : α} :
    (pure a : Reader α) input = some (b, rest) ↔ b = a ∧ rest = input := by
  change some (a, input) = some (b, rest) ↔ _
  simp [eq_comm]

theorem bytes_eq_some {n : Nat} {input field rest : Bytes} :
    bytes n input = some (field, rest) ↔ input = field ++ rest ∧ field.length = n := by
  unfold bytes
  split_ifs with short
  · constructor
    · intro none_read
      cases none_read
    · rintro ⟨rfl, size⟩
      simp only [List.length_append] at short
      omega
  · constructor
    · intro read
      cases read
      exact ⟨(List.take_append_drop n input).symm, List.length_take_of_le (not_lt.mp short)⟩
    · rintro ⟨rfl, rfl⟩
      simp

theorem int_eq_some {width n : Nat} {input rest : Bytes} :
    int width input = some (n, rest) ↔ input = bigEndian width n ++ rest ∧ n < 256 ^ width := by
  rw [int, bind_eq_some]
  constructor
  · rintro ⟨field, mid, read, result⟩
    obtain ⟨rfl, size⟩ := bytes_eq_some.mp read
    obtain ⟨rfl, rfl⟩ := pure_eq_some.mp result
    rw [← size]
    exact ⟨by rw [bigEndian_number], number_lt field⟩
  · rintro ⟨rfl, fits⟩
    exact ⟨_, rest, bytes_eq_some.mpr ⟨rfl, bigEndian_length width n⟩,
      pure_eq_some.mpr ⟨(number_bigEndian_of_lt fits).symm, rfl⟩⟩

theorem check_eq_some {p : Prop} [Decidable p] {input rest : Bytes} {u : Unit} :
    check p input = some (u, rest) ↔ p ∧ rest = input := by
  unfold check
  split_ifs with holds
  · simp [holds, eq_comm]
  · simp [holds]

theorem capped_field {width cap : Nat} {f : Bytes → Reader β} {input rest : Bytes} {b : β}
    (read : (do
        let size ← int width
        check (size ≤ cap)
        let field ← bytes size
        f field) input = some (b, rest)) :
    ∃ field mid, field.length ≤ cap ∧ f field mid = some (b, rest) := by
  obtain ⟨size, _, _, read⟩ := bind_eq_some.mp read
  obtain ⟨_, _, capped, read⟩ := bind_eq_some.mp read
  obtain ⟨field, mid, taken, read⟩ := bind_eq_some.mp read
  refine ⟨field, mid, ?_, read⟩
  rw [(bytes_eq_some.mp taken).2]
  exact (check_eq_some.mp capped).1

theorem whole_eq_some {r : Reader α} {input : Bytes} {a : α} :
    whole r input = some a ↔ r input = some (a, []) := by
  unfold whole
  split
  · rename_i b read
    simp [read]
  · rename_i other
    constructor
    · intro none_read
      cases none_read
    · intro read
      exact absurd read (other a)

theorem Reads.pure (a : α) : Reads (pure a : Reader α) [] a := fun _ => pure_eq_some.mpr ⟨rfl, rfl⟩

theorem Reads.bind {r : Reader α} {f : α → Reader β} {left right : Bytes} {a : α} {b : β}
    (first : Reads r left a) (second : Reads (f a) right b) : Reads (r >>= f) (left ++ right) b := by
  intro rest
  rw [bind_eq_some]
  refine ⟨a, right ++ rest, ?_, second rest⟩
  rw [List.append_assoc]
  exact first _

theorem Reads.onward {r : Reader α} {f : α → Reader β} {encoding rest last : Bytes} {a : α} {b : β}
    (reads : Reads r encoding a) (read : (r >>= f) (encoding ++ rest) = some (b, last)) :
    f a rest = some (b, last) := by
  obtain ⟨_, _, first, second⟩ := bind_eq_some.mp read
  rw [reads rest] at first
  cases first
  exact second

theorem Reads.bytes (field : Bytes) : Reads (Reader.bytes field.length) field field :=
  fun _ => bytes_eq_some.mpr ⟨rfl, rfl⟩

theorem Reads.int {width n : Nat} (fits : n < 256 ^ width) :
    Reads (Reader.int width) (bigEndian width n) n := fun _ => int_eq_some.mpr ⟨rfl, fits⟩

theorem Reads.check {p : Prop} [Decidable p] (holds : p) : Reads (Reader.check p) [] () :=
  fun _ => check_eq_some.mpr ⟨holds, rfl⟩

theorem Reads.capped {width cap : Nat} {f : Bytes → Reader β} {field rest : Bytes} {b : β}
    (short : field.length ≤ cap) (fits : cap < 256 ^ width) (after : Reads (f field) rest b) :
    Reads (do
        let size ← Reader.int width
        Reader.check (size ≤ cap)
        let field ← Reader.bytes size
        f field)
      (bigEndian width field.length ++ (field ++ rest)) b :=
  (Reads.int (short.trans_lt fits)).bind ((Reads.check short).bind ((Reads.bytes field).bind after))

theorem Reads.times {r : Reader α} {encode : α → Bytes} {values : List α}
    (each : ∀ a ∈ values, Reads r (encode a) a) :
    Reads (Reader.times values.length r) (values.flatMap encode) values := by
  induction values with
  | nil => exact Reads.pure []
  | cons head rest ih =>
    have tail := ih fun a member => each a (List.mem_cons_of_mem _ member)
    have last := (Reads.pure (head :: rest))
    have both := (each head List.mem_cons_self).bind (f := fun a => do
      let as ← Reader.times rest.length r
      return a :: as) (tail.bind last)
    rwa [List.append_nil] at both

theorem Reads.whole {r : Reader α} {encoding : Bytes} {a : α} (reads : Reads r encoding a) :
    Reader.whole r encoding = some a := by
  rw [whole_eq_some, ← reads [], List.append_nil]

/-- Bytes behind what a reader takes do not change what it takes. -/
def Extends (r : Reader α) : Prop :=
  ∀ input a left, r input = some (a, left) → ∀ more, r (input ++ more) = some (a, left ++ more)

theorem Extends.pure (a : α) : Extends (pure a : Reader α) := by
  intro input b left read more
  obtain ⟨rfl, rfl⟩ := pure_eq_some.mp read
  exact pure_eq_some.mpr ⟨rfl, rfl⟩

theorem Extends.bind {r : Reader α} {f : α → Reader β} (first : Extends r) (second : ∀ a, Extends (f a)) :
    Extends (r >>= f) := by
  intro input b left read more
  obtain ⟨a, mid, head, tail⟩ := bind_eq_some.mp read
  exact bind_eq_some.mpr ⟨a, mid ++ more, first input a mid head more, second a mid b left tail more⟩

theorem Extends.bytes (n : Nat) : Extends (Reader.bytes n) := by
  intro input field left read more
  obtain ⟨rfl, size⟩ := bytes_eq_some.mp read
  exact bytes_eq_some.mpr ⟨List.append_assoc .., size⟩

theorem Extends.int (width : Nat) : Extends (Reader.int width) := .bind (.bytes width) fun _ => .pure _

theorem Extends.check (p : Prop) [Decidable p] : Extends (Reader.check p) := by
  intro input u left read more
  obtain ⟨holds, rfl⟩ := check_eq_some.mp read
  exact check_eq_some.mpr ⟨holds, rfl⟩

theorem Extends.times {r : Reader α} (n : Nat) (each : Extends r) : Extends (Reader.times n r) := by
  induction n with
  | zero => exact .pure []
  | succ n ih => exact .bind each fun _ => .bind ih fun _ => .pure _

theorem Reads.shortened {r : Reader α} {encoding taken missing : Bytes} {a : α} (reads : Reads r encoding a)
    (extends_ : Extends r) (parts : encoding = taken ++ missing) (short : missing ≠ []) :
    Reader.whole r taken = none := by
  rw [Option.eq_none_iff_forall_ne_some]
  intro b decoded
  have longer := extends_ taken b [] (whole_eq_some.mp decoded) missing
  have all := reads []
  rw [List.append_nil, parts, longer] at all
  exact short (congrArg Prod.snd (Option.some.inj all))

theorem Reads.extended {r : Reader α} {encoding extra : Bytes} {a : α} (reads : Reads r encoding a)
    (more : extra ≠ []) : Reader.whole r (encoding ++ extra) = none := by
  rw [Option.eq_none_iff_forall_ne_some]
  intro b decoded
  have read := whole_eq_some.mp decoded
  rw [reads extra] at read
  exact more (congrArg Prod.snd (Option.some.inj read))

theorem times_eq_some {r : Reader α} {n : Nat} {input rest : Bytes} {values : List α}
    (read : times n r input = some (values, rest)) :
    values.length = n ∧ ∀ a ∈ values, ∃ from_ mid, r from_ = some (a, mid) := by
  induction n generalizing input values with
  | zero =>
    obtain ⟨rfl, _⟩ := pure_eq_some.mp read
    exact ⟨rfl, by simp⟩
  | succ n ih =>
    obtain ⟨head, mid, first, others⟩ := bind_eq_some.mp read
    obtain ⟨tail, mid', later, result⟩ := bind_eq_some.mp others
    obtain ⟨rfl, rfl⟩ := pure_eq_some.mp result
    obtain ⟨size, each⟩ := ih later
    refine ⟨by simp [size], ?_⟩
    intro a member
    rcases List.mem_cons.mp member with rfl | inTail
    · exact ⟨input, mid, first⟩
    · exact each a inTail

end Reader

end Foundation
