import Mathlib.Order.Basic
import Mathlib.Order.Lattice
import Mathlib.Data.List.Lex

instance uint8LinearOrder : LinearOrder UInt8 where
  le_refl a := UInt8.le_refl a
  le_trans _ _ _ := UInt8.le_trans
  le_antisymm _ _ := UInt8.le_antisymm
  le_total := UInt8.le_total
  lt_iff_le_not_ge a b := by
    simp only [UInt8.lt_iff_toNat_lt, UInt8.le_iff_toNat_le]
    omega
  toDecidableLE := inferInstance
  toDecidableLT := inferInstance
  toDecidableEq := inferInstance
  min_def _ _ := rfl
  max_def _ _ := rfl

instance uint64LinearOrder : LinearOrder UInt64 where
  le_refl a := UInt64.le_refl a
  le_trans _ _ _ := UInt64.le_trans
  le_antisymm _ _ := UInt64.le_antisymm
  le_total := UInt64.le_total
  lt_iff_le_not_ge a b := by
    simp only [UInt64.lt_iff_toNat_lt, UInt64.le_iff_toNat_le]
    omega
  toDecidableLE := inferInstance
  toDecidableLT := inferInstance
  toDecidableEq := inferInstance
  min_def _ _ := rfl
  max_def _ _ := rfl

namespace Foundation

def maxWord : UInt64 := 0xFFFFFFFFFFFFFFFF

theorem word_lt_succ {a : UInt64} (below : a ≠ maxWord) : a < a + 1 := by
  have bound := a.toNat_lt
  have distinct : a.toNat ≠ 2 ^ 64 - 1 := fun same => below (UInt64.toNat_inj.mp same)
  rw [UInt64.lt_iff_toNat_lt, UInt64.toNat_add]
  change a.toNat < (a.toNat + 1) % 2 ^ 64
  omega

theorem lt_word_succ {a b : UInt64} (below : a ≠ maxWord) : b < a + 1 ↔ b ≤ a := by
  have bound := a.toNat_lt
  have distinct : a.toNat ≠ 2 ^ 64 - 1 := fun same => below (UInt64.toNat_inj.mp same)
  rw [UInt64.lt_iff_toNat_lt, UInt64.le_iff_toNat_le, UInt64.toNat_add]
  change b.toNat < (a.toNat + 1) % 2 ^ 64 ↔ _
  omega

theorem maxWord_succ : maxWord + 1 = 0 := by decide

theorem toNat_sub_of_le {a b : UInt64} (le : b ≤ a) : (a - b).toNat = a.toNat - b.toNat :=
  UInt64.toNat_sub_of_le a b le

theorem le_maxWord (a : UInt64) : a ≤ maxWord := by
  have bound := a.toNat_lt
  rw [UInt64.le_iff_toNat_le]
  change a.toNat ≤ 2 ^ 64 - 1
  omega

theorem word_lt_add {a b : UInt64} (fits : a ≤ maxWord - b) (positive : 0 < b) : a < a + b := by
  have room := toNat_sub_of_le (le_maxWord b)
  have full : maxWord.toNat = 2 ^ 64 - 1 := rfl
  rw [UInt64.le_iff_toNat_le, room, full] at fits
  rw [UInt64.lt_iff_toNat_lt] at positive
  rw [UInt64.lt_iff_toNat_lt, UInt64.toNat_add]
  change 0 < b.toNat at positive
  have small := b.toNat_lt
  omega

end Foundation
