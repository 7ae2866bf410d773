import Clipp.Registers.Hlc
import Mathlib.Order.Lattice

open Foundation

namespace ClippModel.Registers

def HostId.kSize : Nat := 16

structure HostId where
  bytes : Bytes
  size : bytes.length = HostId.kSize
  deriving DecidableEq

@[ext] theorem HostId.ext {a b : HostId} (same : a.bytes = b.bytes) : a = b := by
  cases a
  cases b
  simpa using same

instance : LinearOrder HostId := LinearOrder.lift' HostId.bytes (fun _ _ => HostId.ext)

def HostId.zero : HostId := ⟨List.replicate 16 0, rfl⟩

namespace RegisterFlags

def tombstone : UInt8 := 0x01
def private_ : UInt8 := 0x02
def binaryHeader : UInt8 := 0x04

end RegisterFlags

@[ext] structure RegisterRecord where
  name : Bytes
  value : Bytes
  written : Hlc
  touched : Hlc
  originHostId : HostId
  flags : UInt8
  deriving DecidableEq

def RegisterRecord.isTombstone (r : RegisterRecord) : Bool := r.flags &&& RegisterFlags.tombstone ≠ 0
def RegisterRecord.isPrivate (r : RegisterRecord) : Bool := r.flags &&& RegisterFlags.private_ ≠ 0
def RegisterRecord.isBinary (r : RegisterRecord) : Bool := r.flags &&& RegisterFlags.binaryHeader ≠ 0

structure RegisterDigestEntry where
  name : Bytes
  written : Hlc
  touched : Hlc
  deriving DecidableEq

def valueLess (a b : RegisterRecord) : Bool :=
  if a.written ≠ b.written then a.written < b.written
  else if ¬ a.originHostId = b.originHostId then a.originHostId < b.originHostId
  else if a.flags ≠ b.flags then a.flags < b.flags
  else a.value < b.value

def isExpired (r : RegisterRecord) (nowMs ttlMs : UInt64) : Bool :=
  if r.touched.wallMs > nowMs then false
  else nowMs - r.touched.wallMs ≥ ttlMs

def mergeRecords (a b : RegisterRecord) : RegisterRecord :=
  { (if valueLess a b then b else a) with touched := max a.touched b.touched }

end ClippModel.Registers

namespace ClippProof.Registers

open ClippModel.Registers

abbrev ValueKey := Hlc ×ₗ HostId ×ₗ UInt8 ×ₗ Bytes

/-- The content of a register as an element of the join semilattice its replicas agree in. -/
abbrev Point := ValueKey × Hlc

def valueKey (r : RegisterRecord) : ValueKey :=
  toLex (r.written, toLex (r.originHostId, toLex (r.flags, r.value)))

def point (r : RegisterRecord) : Point := (valueKey r, r.touched)

theorem valueKey_inj {a b : RegisterRecord} (same : valueKey a = valueKey b) :
    a.written = b.written ∧ a.originHostId = b.originHostId ∧ a.flags = b.flags ∧ a.value = b.value := by
  have parts : (a.written, a.originHostId, a.flags, a.value) =
      (b.written, b.originHostId, b.flags, b.value) := same
  simpa using parts

theorem record_ext {a b : RegisterRecord} (name : a.name = b.name) (same : point a = point b) :
    a = b := by
  obtain ⟨written, origin, flags, value⟩ := valueKey_inj (congrArg Prod.fst same)
  exact RegisterRecord.ext name value written (congrArg Prod.snd same) origin flags

theorem valueKey_lt_of_written {a b : RegisterRecord} (less : a.written < b.written) :
    valueKey a < valueKey b := Prod.Lex.toLex_lt_toLex.mpr (.inl less)

theorem written_mono {a b : RegisterRecord} (le : valueKey a ≤ valueKey b) :
    a.written ≤ b.written := by
  rcases Prod.Lex.toLex_le_toLex.mp le with less | ⟨same, _⟩
  · exact less.le
  · exact same.le

theorem valueLess_iff (a b : RegisterRecord) : valueLess a b = true ↔ valueKey a < valueKey b := by
  simp only [valueKey, Prod.Lex.toLex_lt_toLex, valueLess]
  by_cases written : a.written = b.written
  · by_cases origin : a.originHostId = b.originHostId
    · by_cases flags : a.flags = b.flags
      · simp [written, origin, flags]
      · simp [written, origin, flags]
    · simp [written, origin]
  · simp [written]

theorem mergeRecords_name {a b : RegisterRecord} (same : a.name = b.name) :
    (mergeRecords a b).name = a.name := by
  unfold mergeRecords
  split_ifs <;> simp [same]

@[simp] theorem valueKey_mergeRecords (a b : RegisterRecord) :
    valueKey (mergeRecords a b) = max (valueKey a) (valueKey b) := by
  by_cases less : valueLess a b = true
  · have below := (valueLess_iff a b).mp less
    rw [max_eq_right below.le]
    simp [mergeRecords, less, valueKey]
  · have above := not_lt.mp (mt (valueLess_iff a b).mpr less)
    rw [max_eq_left above]
    simp [mergeRecords, less, valueKey]

@[simp] theorem point_mergeRecords (a b : RegisterRecord) :
    point (mergeRecords a b) = point a ⊔ point b :=
  Prod.ext (valueKey_mergeRecords a b) rfl

/-- The merge order: one name, and below in both the value order and the touched order. -/
instance : PartialOrder RegisterRecord where
  le a b := a.name = b.name ∧ point a ≤ point b
  le_refl _ := ⟨rfl, le_rfl⟩
  le_trans _ _ _ left right := ⟨left.1.trans right.1, left.2.trans right.2⟩
  le_antisymm _ _ left right := record_ext left.1 (le_antisymm left.2 right.2)

theorem record_le_iff_merge {a b : RegisterRecord} :
    a ≤ b ↔ a.name = b.name ∧ mergeRecords b a = b := by
  constructor
  · rintro ⟨name, le⟩
    refine ⟨name, record_ext (mergeRecords_name name.symm) ?_⟩
    rw [point_mergeRecords, sup_eq_left]
    exact le
  · rintro ⟨name, absorbed⟩
    refine ⟨name, ?_⟩
    rw [← sup_eq_left, ← point_mergeRecords, absorbed]

theorem le_mergeRecords_left {a b : RegisterRecord} (same : a.name = b.name) :
    a ≤ mergeRecords a b :=
  ⟨(mergeRecords_name same).symm, by rw [point_mergeRecords]; exact le_sup_left⟩

theorem le_mergeRecords_right {a b : RegisterRecord} (same : a.name = b.name) :
    b ≤ mergeRecords a b :=
  ⟨same.symm.trans (mergeRecords_name same).symm, by rw [point_mergeRecords]; exact le_sup_right⟩

theorem mergeRecords_le {a b c : RegisterRecord} (left : a ≤ c) (right : b ≤ c) :
    mergeRecords a b ≤ c := by
  refine ⟨(mergeRecords_name (left.1.trans right.1.symm)).trans left.1, ?_⟩
  rw [point_mergeRecords]
  exact sup_le left.2 right.2

theorem mergeRecords_comm {a b : RegisterRecord} (same : a.name = b.name) :
    mergeRecords a b = mergeRecords b a := by
  apply record_ext
  · rw [mergeRecords_name same, mergeRecords_name same.symm, same]
  · simp only [point_mergeRecords, sup_comm]

theorem mergeRecords_assoc {a b c : RegisterRecord} (left : a.name = b.name) (right : b.name = c.name) :
    mergeRecords (mergeRecords a b) c = mergeRecords a (mergeRecords b c) := by
  have first : (mergeRecords a b).name = a.name := mergeRecords_name left
  have last : (mergeRecords b c).name = b.name := mergeRecords_name right
  apply record_ext
  · rw [mergeRecords_name (first.trans (left.trans right)), mergeRecords_name (left.trans last.symm), first]
  · simp only [point_mergeRecords, sup_assoc]

theorem mergeRecords_self (a : RegisterRecord) : mergeRecords a a = a := (record_le_iff_merge.mp le_rfl).2

/-- The merge is the join of the records of one name, in the value order and in the touched order at once. -/
theorem mergeRecords_join {a b c : RegisterRecord} (left : a.name = b.name) (right : b.name = c.name) :
    mergeRecords a b = mergeRecords b a ∧
      mergeRecords (mergeRecords a b) c = mergeRecords a (mergeRecords b c) ∧
      mergeRecords a a = a ∧
      (mergeRecords a b).name = a.name ∧
      (point a ≤ point (mergeRecords a b) ∧ point b ≤ point (mergeRecords a b)) ∧
      (∀ d, point a ≤ point d → point b ≤ point d → point (mergeRecords a b) ≤ point d) ∧
      (mergeRecords a b).touched = max a.touched b.touched := by
  refine ⟨mergeRecords_comm left, mergeRecords_assoc left right, mergeRecords_self a, mergeRecords_name left,
    ⟨(le_mergeRecords_left left).2, (le_mergeRecords_right left).2⟩, ?_, rfl⟩
  intro d above aboveToo
  rw [point_mergeRecords]
  exact sup_le above aboveToo

namespace Forged

def record (value : Bytes) (touched : Hlc) (flags : UInt8) : RegisterRecord where
  name := [0x6B]
  value := value
  written := { wallMs := 100, counter := 0 }
  touched := touched
  originHostId := HostId.zero
  flags := flags

def first : RegisterRecord := record [0x61] { wallMs := 300, counter := 0 } 0
def second : RegisterRecord := record [0xE2] { wallMs := 200, counter := 7 } 0
def removal : RegisterRecord := record [] { wallMs := 100, counter := 0 } RegisterFlags.tombstone

end Forged

open Forged in
theorem mergeRecords_join_forged :
    mergeRecords first second = mergeRecords second first ∧
      mergeRecords (mergeRecords first second) removal = mergeRecords first (mergeRecords second removal) ∧
      mergeRecords first first = first ∧
      (mergeRecords first second).name = first.name ∧
      (point first ≤ point (mergeRecords first second) ∧ point second ≤ point (mergeRecords first second)) ∧
      (∀ d, point first ≤ point d → point second ≤ point d → point (mergeRecords first second) ≤ point d) ∧
      (mergeRecords first second).touched = max first.touched second.touched :=
  mergeRecords_join rfl rfl

theorem isExpired_iff {r : RegisterRecord} {nowMs ttlMs : UInt64} :
    isExpired r nowMs ttlMs = true ↔ r.touched.wallMs.toNat + ttlMs.toNat ≤ nowMs.toNat := by
  unfold isExpired
  split_ifs with future
  · have later : nowMs.toNat < r.touched.wallMs.toNat := future
    simp only [false_iff]
    omega
  · have past : r.touched.wallMs ≤ nowMs := not_lt.mp future
    have pastNat : r.touched.wallMs.toNat ≤ nowMs.toNat := past
    rw [decide_eq_true_iff, ge_iff_le, UInt64.le_iff_toNat_le, toNat_sub_of_le past]
    omega

theorem isExpired_antitone {a b : RegisterRecord} {nowMs ttlMs : UInt64} (le : a.touched ≤ b.touched)
    (expired : isExpired b nowMs ttlMs = true) : isExpired a nowMs ttlMs = true := by
  have walls : a.touched.wallMs.toNat ≤ b.touched.wallMs.toNat := Hlc.wall_mono le
  rw [isExpired_iff] at expired ⊢
  omega

theorem isExpired_mono_now {r : RegisterRecord} {earlier later ttlMs : UInt64} (le : earlier ≤ later)
    (expired : isExpired r earlier ttlMs = true) : isExpired r later ttlMs = true := by
  have readings : earlier.toNat ≤ later.toNat := le
  rw [isExpired_iff] at expired ⊢
  omega

theorem unexpired_earlier {r : RegisterRecord} {earlier later ttlMs : UInt64} (le : earlier ≤ later)
    (alive : isExpired r later ttlMs = false) : isExpired r earlier ttlMs = false := by
  rw [Bool.eq_false_iff] at alive ⊢
  exact mt (isExpired_mono_now le) alive

theorem unexpired_above {a b : RegisterRecord} {nowMs ttlMs : UInt64} (le : a ≤ b)
    (alive : isExpired a nowMs ttlMs = false) : isExpired b nowMs ttlMs = false := by
  rw [Bool.eq_false_iff] at alive ⊢
  exact mt (isExpired_antitone le.2.2) alive

theorem fresh_mergeRecords {a b : RegisterRecord} {nowMs ttlMs : UInt64}
    (fresh : isExpired a nowMs ttlMs = false ∨ isExpired b nowMs ttlMs = false) :
    isExpired (mergeRecords a b) nowMs ttlMs = false := by
  rw [Bool.eq_false_iff]
  intro expired
  have left := isExpired_antitone (a := a) (le_max_left _ _) expired
  have right := isExpired_antitone (a := b) (le_max_right _ _) expired
  simp [left, right] at fresh

end ClippProof.Registers
