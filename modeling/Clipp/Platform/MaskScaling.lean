import Mathlib.Data.Nat.Bitwise
import Clipp.Foundation.Rounding
import Clipp.Platform.Dib

open Foundation

namespace ClippProof.Platform

open ClippModel.Platform

variable {pixel mask : UInt32} {shift width first left n i : Nat} {stop : Nat → Bool}

theorem scan_eq (runs : ∀ i < n, stop (first + i) = false) (bound : n ≤ left)
    (halts : n = left ∨ stop (first + n) = true) : scan stop left first = first + n := by
  induction left generalizing first n with
  | zero =>
    have none : n = 0 := Nat.le_zero.mp bound
    rw [scan, none, Nat.add_zero]
  | succ left ih =>
    cases n with
    | zero =>
      have stops : stop first = true := halts.resolve_left (by omega)
      rw [scan, if_pos stops, Nat.add_zero]
    | succ n =>
      have goes : stop first = false := runs 0 (Nat.succ_pos n)
      have shifted : ∀ i, first + 1 + i = first + (i + 1) := fun i => by omega
      rw [scan, if_neg (by rw [goes]; exact Bool.false_ne_true)]
      refine (ih (n := n) (fun i below => ?_) (by omega) (halts.imp (by omega) (fun stops => ?_))).trans (by omega)
      · rw [shifted]
        exact runs (i + 1) (by omega)
      · rwa [shifted]

/-- A run of `width` bits from `shift` on. -/
structure Contiguous (mask : UInt32) (shift width : Nat) : Prop where
  value : mask.toNat = (2 ^ width - 1) * 2 ^ shift
  positive : 0 < width
  fits : shift + width ≤ 32

def component (pixel : UInt32) (shift width : Nat) : Nat := pixel.toNat / 2 ^ shift % 2 ^ width

theorem toNat_shiftRight_ofNat (below : i < 32) : (mask >>> UInt32.ofNat i).toNat = mask.toNat / 2 ^ i := by
  have small : i % 2 ^ 32 % 32 = i := by omega
  rw [UInt32.toNat_shiftRight, UInt32.toNat_ofNat', small, Nat.shiftRight_eq_div_pow]

theorem toNat_one_shiftLeft (below : i < 32) : (1 <<< UInt32.ofNat i : UInt32).toNat = 2 ^ i := by
  have small : i % 2 ^ 32 % 32 = i := by omega
  have fits : 2 ^ i < 2 ^ 32 := Nat.pow_lt_pow_right (by omega) below
  rw [UInt32.toNat_shiftLeft, UInt32.toNat_ofNat', small, UInt32.toNat_one, Nat.one_shiftLeft, Nat.mod_eq_of_lt fits]

theorem eq_zero_iff_toNat : mask = 0 ↔ mask.toNat = 0 :=
  ⟨fun zero => zero ▸ rfl, fun zero => UInt32.toNat_inj.mp zero⟩

namespace Contiguous

theorem testBit (mask_ : Contiguous mask shift width) :
    mask.toNat.testBit i = (decide (shift ≤ i) && decide (i - shift < width)) := by
  rw [mask_.value, Nat.testBit_mul_two_pow, Nat.testBit_two_pow_sub_one]

theorem ne_zero (mask_ : Contiguous mask shift width) : mask ≠ 0 := by
  intro zero
  have set := mask_.testBit (i := shift)
  have positive := mask_.positive
  simp [zero, positive] at set

theorem shift_lt (mask_ : Contiguous mask shift width) : shift < 32 := by
  have positive := mask_.positive
  have fits := mask_.fits
  omega

theorem shifted (mask_ : Contiguous mask shift width) :
    (mask >>> UInt32.ofNat shift).toNat = 2 ^ width - 1 := by
  rw [toNat_shiftRight_ofNat mask_.shift_lt, mask_.value, Nat.mul_div_cancel _ (Nat.two_pow_pos shift)]

theorem scan_shift (mask_ : Contiguous mask shift width) :
    scan (fun i => (mask >>> UInt32.ofNat i) &&& 1 ≠ 0) 32 0 = shift := by
  have bit : ∀ i < 32, ((mask >>> UInt32.ofNat i) &&& 1 ≠ 0 ↔ mask.toNat.testBit i = true) := by
    intro i below
    rw [Nat.testBit_eq_decide_div_mod_eq, decide_eq_true_eq, ne_eq, eq_zero_iff_toNat, UInt32.toNat_and,
      toNat_shiftRight_ofNat below, UInt32.toNat_one, Nat.and_one_is_mod]
    omega
  have low := mask_.shift_lt
  have positive := mask_.positive
  refine (scan_eq (fun i below => ?_) low.le (.inr ?_)).trans (Nat.zero_add shift)
  · rw [Nat.zero_add, decide_eq_false_iff_not, bit i (by omega), mask_.testBit]
    simp [below]
  · rw [Nat.zero_add, decide_eq_true_eq, bit shift low, mask_.testBit]
    simp [positive]

theorem scan_bits (mask_ : Contiguous mask shift width) :
    scan (fun i => mask >>> UInt32.ofNat shift &&& (1 <<< UInt32.ofNat i) = 0) 32 0 = width := by
  have bit : ∀ i < 32, (mask >>> UInt32.ofNat shift &&& (1 <<< UInt32.ofNat i) = 0 ↔ ¬ i < width) := by
    intro i below
    rw [eq_zero_iff_toNat, UInt32.toNat_and, mask_.shifted, toNat_one_shiftLeft below, Nat.and_two_pow,
      Nat.testBit_two_pow_sub_one]
    simp
  have fits := mask_.fits
  refine (scan_eq (fun i below => ?_) (show width ≤ 32 by omega) ?_).trans (Nat.zero_add width)
  · rw [Nat.zero_add, decide_eq_false_iff_not, bit i (by omega), not_not]
    exact below
  · by_cases full : width = 32
    · exact .inl full
    · right
      rw [Nat.zero_add, decide_eq_true_eq, bit width (by omega)]
      exact lt_irrefl width

theorem masked (mask_ : Contiguous mask shift width) :
    ((pixel &&& mask) >>> UInt32.ofNat shift).toNat = component pixel shift width := by
  rw [toNat_shiftRight_ofNat mask_.shift_lt, UInt32.toNat_and, ← Nat.shiftRight_eq_div_pow, Nat.shiftRight_and_distrib,
    Nat.shiftRight_eq_div_pow, Nat.shiftRight_eq_div_pow, mask_.value, Nat.mul_div_cancel _ (Nat.two_pow_pos shift),
    Nat.and_two_pow_sub_one_eq_mod, component]

theorem maxValue (mask_ : Contiguous mask shift width) :
    (if 32 ≤ width then 0xffffffff else (1 <<< UInt32.ofNat width) - 1 : UInt32).toNat = 2 ^ width - 1 := by
  have fits := mask_.fits
  by_cases full : 32 ≤ width
  · rw [if_pos full, show width = 32 by omega]
    rfl
  · have one : (1 : UInt32) ≤ 1 <<< UInt32.ofNat width := by
      rw [UInt32.le_iff_toNat_le, toNat_one_shiftLeft (by omega)]
      exact Nat.one_le_two_pow
    rw [if_neg full, UInt32.toNat_sub_of_le _ _ one, toNat_one_shiftLeft (by omega), UInt32.toNat_one]

theorem scaleMaskComponent_eq (mask_ : Contiguous mask shift width) :
    (scaleMaskComponent pixel mask).toNat =
      (component pixel shift width * 255 + (2 ^ width - 1) / 2) % 2 ^ 32 / (2 ^ width - 1) % 256 := by
  have top := mask_.maxValue
  have positive : 2 ^ 1 ≤ 2 ^ width := Nat.pow_le_pow_right (by omega) mask_.positive
  unfold scaleMaskComponent
  rw [if_neg mask_.ne_zero]
  dsimp only
  rw [mask_.scan_shift, mask_.scan_bits]
  rw [if_neg (fun zero => by rw [zero, UInt32.toNat_zero] at top; omega), UInt32.toNat_toUInt8, UInt32.toNat_div,
    UInt32.toNat_add, UInt32.toNat_mul, UInt32.toNat_div, top, mask_.masked]
  simp only [UInt32.reduceToNat, Nat.mod_add_mod]

end Contiguous

/-- The integer nearest to `v * 255 / (2 ^ width - 1)`. -/
def nearest (v width : Nat) : ℤ := round (((v * 255 : Nat) : ℚ) / ((2 ^ width - 1 : Nat) : ℚ))

/-- The sum that is divided stays within 32 bits. -/
def ScalesWithin (v width : Nat) : Prop := v * 255 + (2 ^ width - 1) / 2 < 2 ^ 32

instance (v width : Nat) : Decidable (ScalesWithin v width) := inferInstanceAs (Decidable (_ < _))

theorem component_le (pixel : UInt32) (shift width : Nat) : component pixel shift width ≤ 2 ^ width - 1 :=
  Nat.le_sub_one_of_lt (Nat.mod_lt _ (Nat.two_pow_pos width))

theorem two_pow_sub_one_odd (positive : 0 < width) : (2 ^ width - 1) % 2 = 1 := by
  obtain ⟨w, rfl⟩ := Nat.exists_eq_succ_of_ne_zero positive.ne'
  have some : 0 < 2 ^ w := Nat.two_pow_pos w
  rw [Nat.pow_succ]
  omega

/-- The scaled component is the nearest integer exactly where the sum does not wrap. -/
theorem scaleMaskComponent_nearest_iff (mask_ : Contiguous mask shift width) :
    ((scaleMaskComponent pixel mask).toNat : ℤ) = nearest (component pixel shift width) width ↔
      ScalesWithin (component pixel shift width) width := by
  have positive := mask_.positive
  have odd := two_pow_sub_one_odd positive
  have bounded := component_le pixel shift width
  have narrow : width ≤ 32 := (Nat.le_add_left width shift).trans mask_.fits
  have topFits : 2 ^ width - 1 ≤ 2 ^ 32 := (Nat.sub_le _ _).trans (Nat.pow_le_pow_right (by omega) narrow)
  rw [nearest, round_div_of_odd odd, mask_.scaleMaskComponent_eq, Nat.cast_inj, ScalesWithin]
  generalize component pixel shift width = v at bounded ⊢
  generalize 2 ^ width - 1 = top at odd bounded topFits ⊢
  have some : 0 < top := by omega
  have byte : (v * 255 + top / 2) / top < 256 := by
    rw [Nat.div_lt_iff_lt_mul some]
    omega
  constructor
  · intro same
    by_contra wraps
    have less := wrapped_div_lt some topFits (Nat.le_of_not_lt wraps)
    exact absurd same ((Nat.mod_le _ _).trans_lt less).ne
  · intro within
    rw [Nat.mod_eq_of_lt within, Nat.mod_eq_of_lt byte]

theorem scaleMaskComponent_byte (mask_ : Contiguous mask shift 8) :
    (scaleMaskComponent pixel mask).toNat = pixel.toNat / 2 ^ shift % 256 := by
  have bounded : component pixel shift 8 ≤ 255 := component_le pixel shift 8
  have within : component pixel shift 8 * 255 + (2 ^ 8 - 1) / 2 < 2 ^ 32 := by omega
  rw [mask_.scaleMaskComponent_eq, Nat.mod_eq_of_lt within]
  show (component pixel shift 8 * 255 + 127) / 255 % 256 = component pixel shift 8
  omega

theorem scaleMaskComponent_zero : scaleMaskComponent pixel 0 = 0 := if_pos rfl

end ClippProof.Platform
