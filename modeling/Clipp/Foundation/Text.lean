import Clipp.Foundation.ByteOrder
import Mathlib.Data.List.TakeWhile
import Mathlib.Data.Nat.Digits.Lemmas

namespace Foundation

def ascii (text : String) : Bytes := text.toList.map fun c => UInt8.ofNat c.toNat

def isDigit (b : UInt8) : Bool := 0x30 ≤ b ∧ b ≤ 0x39

def isSpace (b : UInt8) : Bool := b = 0x20 ∨ (0x09 ≤ b ∧ b ≤ 0x0D)

def decimal (n : Nat) : Bytes :=
  if n = 0 then [0x30] else ((Nat.digits 10 n).map fun d => UInt8.ofNat (0x30 + d)).reverse

def digitsValue (digits : Bytes) : Nat := digits.foldl (fun n b => 10 * n + (b.toNat - 0x30)) 0

/-- In base ten: spaces, a sign and digits, saturating above 64 bits. -/
def strtoull (text : Bytes) : UInt64 :=
  let signed := text.dropWhile isSpace
  let negative := signed.head? = some 0x2D
  let unsigned := if negative ∨ signed.head? = some 0x2B then signed.drop 1 else signed
  let value := digitsValue (unsigned.takeWhile isDigit)
  if value ≥ 2 ^ 64 then 0 - 1 else if negative then 0 - UInt64.ofNat value else UInt64.ofNat value

def upTo (c : UInt8) (text : Bytes) : Bytes := text.takeWhile (· ≠ c)
def past (c : UInt8) (text : Bytes) : Bytes := (text.dropWhile (· ≠ c)).drop 1

variable {n d : Nat} {b : UInt8} {text rest : Bytes}

theorem digit_toNat (digit : d < 10) : (UInt8.ofNat (0x30 + d)).toNat = 0x30 + d := by
  rw [UInt8.toNat_ofNat']
  omega

theorem isDigit_iff (b : UInt8) : isDigit b = true ↔ 0x30 ≤ b.toNat ∧ b.toNat ≤ 0x39 := decide_eq_true_iff

theorem digit_isDigit (digit : d < 10) : isDigit (UInt8.ofNat (0x30 + d)) = true := by
  rw [isDigit_iff, digit_toNat digit]
  omega

theorem decimal_digits (n : Nat) : ∀ b ∈ decimal n, isDigit b = true := by
  intro b member
  unfold decimal at member
  split_ifs at member with zero
  · rw [List.mem_singleton.mp member]
    rfl
  · obtain ⟨d, digit, rfl⟩ := List.mem_map.mp (List.mem_reverse.mp member)
    exact digit_isDigit (Nat.digits_lt_base (by decide) digit)

theorem decimal_nonempty (n : Nat) : decimal n ≠ [] := by
  unfold decimal
  split_ifs with zero
  · exact List.cons_ne_nil _ _
  · simpa [Nat.digits_eq_nil_iff_eq_zero] using zero

theorem decimal_length (small : n < 10 ^ 20) : (decimal n).length ≤ 20 := by
  unfold decimal
  split_ifs with zero
  · decide
  · rw [List.length_reverse, List.length_map]
    exact (Nat.digits_length_le_iff (by decide) n).mpr small

theorem digitsValue_map (digits : List Nat) (each : ∀ d ∈ digits, d < 10) :
    digitsValue (digits.map fun d => UInt8.ofNat (0x30 + d)).reverse = Nat.ofDigits 10 digits := by
  rw [digitsValue, List.foldl_reverse]
  induction digits with
  | nil => rfl
  | cons d digits ih =>
    have value := digit_toNat (each d (List.mem_cons_self ..))
    have further := ih fun d member => each d (List.mem_cons_of_mem _ member)
    rw [List.map_cons, List.foldr_cons, further, value, Nat.ofDigits_cons]
    omega

theorem digitsValue_decimal (n : Nat) : digitsValue (decimal n) = n := by
  unfold decimal
  split_ifs with zero
  · exact zero.symm
  · rw [digitsValue_map _ fun d digit => Nat.digits_lt_base (by decide) digit, Nat.ofDigits_digits]

theorem isDigit_ne {c : UInt8} (digit : isDigit b = true) (other : isDigit c = false) : b ≠ c := by
  rintro rfl
  exact absurd digit (by rw [other]; decide)

theorem isDigit_notSpace (digit : isDigit b = true) : isSpace b = false := by
  have low := ((isDigit_iff b).mp digit).1
  have control : ¬ b ≤ 0x0D := by
    intro le
    have high : b.toNat ≤ 13 := le
    omega
  simp [isSpace, control, isDigit_ne digit (c := 0x20) rfl]

theorem strtoull_decimal (n : UInt64) : strtoull (decimal n.toNat) = n := by
  have digits := decimal_digits n.toNat
  have small : ¬ n.toNat ≥ 2 ^ 64 := not_le.mpr n.toNat_lt
  obtain ⟨first, others, printed⟩ := List.exists_cons_of_ne_nil (decimal_nonempty n.toNat)
  have digit := digits first (by rw [printed]; exact List.mem_cons_self ..)
  have minus : first ≠ 0x2D := isDigit_ne digit rfl
  have plus : first ≠ 0x2B := isDigit_ne digit rfl
  have whole : (decimal n.toNat).takeWhile isDigit = decimal n.toNat :=
    List.takeWhile_eq_self_iff.mpr digits
  have unspaced : (decimal n.toNat).dropWhile isSpace = decimal n.toNat := by
    rw [printed]
    exact List.dropWhile_cons_of_neg (by rw [isDigit_notSpace digit]; decide)
  have head : (decimal n.toNat).head? = some first := by
    rw [printed]
    rfl
  simp only [strtoull, unspaced, head, Option.some.injEq, minus, plus, or_self, if_false,
    whole, digitsValue_decimal, small, UInt64.ofNat_toNat]

section Splitting

variable {c : UInt8} {front : Bytes}

theorem none_stops (absent : c ∉ front) : ∀ b ∈ front, decide (b ≠ c) = true := by
  intro b member
  rw [decide_eq_true_iff]
  rintro rfl
  exact absent member

theorem upTo_split (absent : c ∉ front) (rest : Bytes) : upTo c (front ++ c :: rest) = front := by
  rw [upTo, List.takeWhile_append_of_pos (none_stops absent), List.takeWhile_cons_of_neg (by simp), List.append_nil]

theorem past_split (absent : c ∉ front) (rest : Bytes) : past c (front ++ c :: rest) = rest := by
  rw [past, List.dropWhile_append_of_pos (none_stops absent), List.dropWhile_cons_of_neg (by simp)]
  rfl

theorem upTo_mem (member : b ∈ upTo c text) : b ∈ text ∧ b ≠ c := by
  have stops := List.mem_takeWhile_imp member
  exact ⟨(List.takeWhile_prefix _).subset member, of_decide_eq_true stops⟩

theorem upTo_stops (next : text[(upTo c text).length]? = some b) : b = c := by
  induction text with
  | nil => simp at next
  | cons head rest ih =>
    rw [upTo] at next
    by_cases stop : head = c
    · rw [List.takeWhile_cons_of_neg (by simpa using stop)] at next
      exact (Option.some.inj next).symm.trans stop
    · rw [List.takeWhile_cons_of_pos (by simpa using stop), List.length_cons, List.getElem?_cons_succ] at next
      exact ih next

theorem past_length_le (c : UInt8) (text : Bytes) : (past c text).length ≤ text.length := by
  have shorter := (List.dropWhile_sublist (l := text) (fun b => decide (b ≠ c))).length_le
  rw [past, List.length_drop]
  omega

theorem past_length (nonempty : text ≠ []) : (past c text).length < text.length := by
  have shorter := (List.dropWhile_sublist (l := text) (fun b => decide (b ≠ c))).length_le
  have some_left := List.length_pos_iff.mpr nonempty
  rw [past, List.length_drop]
  omega

end Splitting

end Foundation
