import Mathlib.Data.List.Basic
import Mathlib.Algebra.Order.Ring.Nat
import Mathlib.Tactic.Ring

namespace Foundation

abbrev Bytes := List UInt8

/-- The `width` low-order bytes of a number, most significant first. -/
def bigEndian : Nat → Nat → Bytes
  | 0, _ => []
  | width + 1, n => UInt8.ofNat (n / 256 ^ width) :: bigEndian width n

def number (bytes : Bytes) : Nat := bytes.foldl (fun n b => 256 * n + b.toNat) 0

@[simp] theorem bigEndian_length (width n : Nat) : (bigEndian width n).length = width := by
  induction width with
  | zero => rfl
  | succ width ih => simp [bigEndian, ih]

theorem foldl_number (bytes : Bytes) (start : Nat) :
    bytes.foldl (fun n b => 256 * n + b.toNat) start = start * 256 ^ bytes.length + number bytes := by
  induction bytes generalizing start with
  | nil => simp [number]
  | cons head rest ih =>
    have first := ih (256 * start + head.toNat)
    have zero := ih (256 * 0 + head.toNat)
    simp only [number, List.foldl_cons, List.length_cons] at first zero ⊢
    rw [first, zero]
    ring

theorem number_cons (head : UInt8) (rest : Bytes) :
    number (head :: rest) = head.toNat * 256 ^ rest.length + number rest := by
  rw [number, List.foldl_cons, foldl_number]
  simp

theorem number_lt (bytes : Bytes) : number bytes < 256 ^ bytes.length := by
  induction bytes with
  | nil => decide
  | cons head rest ih =>
    have bound := head.toNat_lt
    have top : head.toNat * 256 ^ rest.length ≤ 255 * 256 ^ rest.length :=
      Nat.mul_le_mul_right _ (by omega)
    rw [number_cons, List.length_cons, Nat.pow_succ]
    omega

theorem number_bigEndian (width n : Nat) : number (bigEndian width n) = n % 256 ^ width := by
  induction width with
  | zero => simp [bigEndian, number, Nat.mod_one]
  | succ width ih =>
    have byte : (UInt8.ofNat (n / 256 ^ width)).toNat = n / 256 ^ width % 256 := UInt8.toNat_ofNat'
    rw [bigEndian, number_cons, ih, bigEndian_length, byte, Nat.pow_succ, Nat.mod_mul,
      Nat.mul_comm (256 ^ width)]
    exact Nat.add_comm _ _

theorem number_bigEndian_of_lt {width n : Nat} (fits : n < 256 ^ width) :
    number (bigEndian width n) = n := by
  rw [number_bigEndian, Nat.mod_eq_of_lt fits]

theorem bigEndian_add_mul (width n k : Nat) :
    bigEndian width (n + k * 256 ^ width) = bigEndian width n := by
  induction width generalizing k with
  | zero => rfl
  | succ width ih =>
    have carry : n + k * 256 ^ (width + 1) = n + (k * 256) * 256 ^ width := by ring
    rw [bigEndian, bigEndian, carry, ih, Nat.add_mul_div_right _ _ (Nat.pow_pos (by decide))]
    congr 1
    apply UInt8.toNat_inj.mp
    simp

theorem bigEndian_number (bytes : Bytes) : bigEndian bytes.length (number bytes) = bytes := by
  induction bytes with
  | nil => rfl
  | cons head rest ih =>
    have low := number_lt rest
    rw [List.length_cons, bigEndian, number_cons, Nat.add_comm, bigEndian_add_mul, ih,
      Nat.add_mul_div_right _ _ (Nat.pow_pos (by decide)), Nat.div_eq_of_lt low, Nat.zero_add]
    simp

end Foundation
