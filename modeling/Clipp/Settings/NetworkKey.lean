import Mathlib.Logic.Function.Basic
import Mathlib.Tactic.Common
import Mathlib.Tactic.SplitIfs
import Clipp.Foundation.ByteOrder

open Foundation

namespace ClippModel.Settings

inductive NetworkKeyName where
  | networkKey
  | legacyEncryptedNetworkKey
  deriving DecidableEq

/-- How a backend reads back an empty value: the Windows one as absent, the Linux one as present. -/
inductive EmptyValue where
  | absent
  | present
  deriving DecidableEq

abbrev BinaryValues := NetworkKeyName → Option Bytes

def ReadBinaryValue (backend : EmptyValue) (values : BinaryValues) (valueName : NetworkKeyName) : Option Bytes :=
  match values valueName with
  | none => none
  | some value => if value = [] ∧ backend = .absent then none else some value

/-- A write that fails leaves the value that was stored. -/
def WriteBinaryValue (works : Bool) (values : BinaryValues) (valueName : NetworkKeyName) (value : Bytes) :
    Bool × BinaryValues :=
  if works then (true, Function.update values valueName (some value)) else (false, values)

/-- The legacy value is blanked first, and nobody looks whether that worked. -/
def setNetworkKey (backend : EmptyValue) (values : BinaryValues) (value : Bytes)
    (blankingWorks writingWorks : Bool) : Bool × BinaryValues :=
  let blanked :=
    match ReadBinaryValue backend values .legacyEncryptedNetworkKey with
    | none => values
    | some legacy =>
      if legacy ≠ [] then (WriteBinaryValue blankingWorks values .legacyEncryptedNetworkKey []).2 else values
  WriteBinaryValue writingWorks blanked .networkKey value

def getNetworkKey (backend : EmptyValue) (values : BinaryValues) (migrationWorks : Bool) :
    Option Bytes × BinaryValues :=
  match ReadBinaryValue backend values .networkKey with
  | some value => (some value, values)
  | none =>
    match ReadBinaryValue backend values .legacyEncryptedNetworkKey with
    | some value => (some value, (WriteBinaryValue migrationWorks values .networkKey value).2)
    | none => (none, values)

inductive NetworkKeyCall where
  | setNetworkKey (value : Bytes) (blankingWorks writingWorks : Bool)
  | getNetworkKey (migrationWorks : Bool)

def networkKeyStep (backend : EmptyValue) (values : BinaryValues) : NetworkKeyCall → BinaryValues
  | .setNetworkKey value blankingWorks writingWorks => (setNetworkKey backend values value blankingWorks writingWorks).2
  | .getNetworkKey migrationWorks => (getNetworkKey backend values migrationWorks).2

def networkKeyRun (backend : EmptyValue) (values : BinaryValues) (calls : List NetworkKeyCall) : BinaryValues :=
  calls.foldl (networkKeyStep backend) values

/-- The answer is the value that was set; a cleared key is absent or empty. -/
def Yields (value : Bytes) (answer : Option Bytes) : Prop :=
  if value = [] then answer = none ∨ answer = some [] else answer = some value

instance (value : Bytes) (answer : Option Bytes) : Decidable (Yields value answer) := by
  unfold Yields
  infer_instance

/-- A clear that leaves a legacy key behind, where the backend reads the cleared value as absent. -/
def LeavesLegacy (backend : EmptyValue) (values : BinaryValues) (value : Bytes) (blankingWorks : Bool) : Prop :=
  backend = .absent ∧ value = [] ∧ blankingWorks = false ∧
    ∃ legacy, values .legacyEncryptedNetworkKey = some legacy ∧ legacy ≠ []

end ClippModel.Settings

namespace ClippProof.Settings

open ClippModel.Settings

variable {backend : EmptyValue} {values : BinaryValues} {value legacy : Bytes} {blankingWorks writingWorks : Bool}

theorem getNetworkKey_found (found : ReadBinaryValue backend values .networkKey = some value) (migrationWorks : Bool) :
    getNetworkKey backend values migrationWorks = (some value, values) := by
  rw [getNetworkKey, found]

theorem getNetworkKey_none (current : ReadBinaryValue backend values .networkKey = none)
    (old : ReadBinaryValue backend values .legacyEncryptedNetworkKey = none) (migrationWorks : Bool) :
    getNetworkKey backend values migrationWorks = (none, values) := by
  rw [getNetworkKey, current, old]

theorem getNetworkKey_legacy (current : ReadBinaryValue backend values .networkKey = none)
    (old : ReadBinaryValue backend values .legacyEncryptedNetworkKey = some legacy) (migrationWorks : Bool) :
    (getNetworkKey backend values migrationWorks).1 = some legacy := by
  rw [getNetworkKey, current, old]

theorem run_gets {answer : Option Bytes}
    (steady : ∀ migrationWorks, getNetworkKey backend values migrationWorks = (answer, values)) (gets : List Bool) :
    networkKeyRun backend values (gets.map .getNetworkKey) = values := by
  induction gets with
  | nil => rfl
  | cons migrationWorks gets ih =>
    rw [List.map_cons, networkKeyRun, List.foldl_cons, networkKeyStep, steady]
    exact ih

theorem set_current (backend : EmptyValue) (values : BinaryValues) (value : Bytes) (blankingWorks : Bool) :
    (setNetworkKey backend values value blankingWorks true).2 .networkKey = some value := by
  simp only [setNetworkKey, WriteBinaryValue, if_true, Function.update_self]

theorem read_value (stored : values .networkKey = some value) (readable : ¬ (value = [] ∧ backend = .absent)) :
    ReadBinaryValue backend values .networkKey = some value := by
  simp only [ReadBinaryValue, stored, if_neg readable]

theorem read_cleared (stored : values .networkKey = some []) : ReadBinaryValue .absent values .networkKey = none := by
  simp only [ReadBinaryValue, stored, and_self, if_true]

theorem legacy_read_iff : ReadBinaryValue .absent values .legacyEncryptedNetworkKey = some legacy ↔
    values .legacyEncryptedNetworkKey = some legacy ∧ legacy ≠ [] := by
  unfold ReadBinaryValue
  cases values .legacyEncryptedNetworkKey with
  | none => simp
  | some kept =>
    simp only [and_true]
    split
    · rename_i empty
      simp only [reduceCtorEq, Option.some.injEq, false_iff, not_and, not_not]
      intro same
      rw [← same, empty]
    · rename_i given
      simp only [Option.some.injEq, iff_self_and]
      rintro rfl
      exact given

theorem legacy_after_set (values : BinaryValues) (value : Bytes) (blankingWorks writingWorks : Bool) :
    ReadBinaryValue .absent (setNetworkKey .absent values value blankingWorks writingWorks).2
        .legacyEncryptedNetworkKey =
      if blankingWorks then none else ReadBinaryValue .absent values .legacyEncryptedNetworkKey := by
  have apart : NetworkKeyName.legacyEncryptedNetworkKey ≠ .networkKey := by decide
  have written : ∀ kept : BinaryValues,
      (WriteBinaryValue writingWorks kept .networkKey value).2 .legacyEncryptedNetworkKey =
        kept .legacyEncryptedNetworkKey := by
    intro kept
    cases writingWorks with
    | false => rfl
    | true => simp only [WriteBinaryValue, if_true, Function.update_of_ne apart]
  have reads : ∀ after before : BinaryValues, after .legacyEncryptedNetworkKey = before .legacyEncryptedNetworkKey →
      ReadBinaryValue .absent after .legacyEncryptedNetworkKey =
        ReadBinaryValue .absent before .legacyEncryptedNetworkKey := by
    intro after before same
    rw [ReadBinaryValue, same, ReadBinaryValue]
  rw [setNetworkKey, reads _ _ (written _)]
  cases read : ReadBinaryValue .absent values .legacyEncryptedNetworkKey with
  | none => simp only [read, ite_self]
  | some legacy =>
    have given : legacy ≠ [] := (legacy_read_iff.mp read).2
    simp only [if_pos given]
    cases blankingWorks with
    | false => exact read
    | true => rfl

theorem setNetworkKey_result (backend : EmptyValue) (values : BinaryValues) (value : Bytes)
    (blankingWorks writingWorks : Bool) : (setNetworkKey backend values value blankingWorks writingWorks).1 =
      writingWorks := by
  cases writingWorks <;> rfl

theorem getNetworkKey_answer (backend : EmptyValue) (values : BinaryValues) (migrationWorks : Bool) :
    (getNetworkKey backend values migrationWorks).1 =
      (ReadBinaryValue backend values .networkKey).or (ReadBinaryValue backend values .legacyEncryptedNetworkKey) := by
  rw [getNetworkKey]
  cases ReadBinaryValue backend values .networkKey with
  | some value => rfl
  | none => cases ReadBinaryValue backend values .legacyEncryptedNetworkKey <;> rfl

/-- A set whose last write fails may have blanked the legacy name, and has done nothing else. -/
theorem unwritten_set (backend : EmptyValue) (values : BinaryValues) (value : Bytes) (blankingWorks : Bool) :
    (setNetworkKey backend values value blankingWorks false).2 = values ∨
      (setNetworkKey backend values value blankingWorks false).2 =
        Function.update values .legacyEncryptedNetworkKey (some []) := by
  rw [setNetworkKey, WriteBinaryValue, if_neg Bool.false_ne_true]
  cases ReadBinaryValue backend values .legacyEncryptedNetworkKey with
  | none => exact .inl rfl
  | some legacy =>
    simp only
    split_ifs
    · cases blankingWorks with
      | false => exact .inl rfl
      | true => exact .inr rfl
    · exact .inl rfl

theorem blanked_answer (backend : EmptyValue) (values : BinaryValues) (migrationWorks : Bool) :
    (getNetworkKey backend (Function.update values .legacyEncryptedNetworkKey (some [])) migrationWorks).1 =
        (getNetworkKey backend values migrationWorks).1 ∨
      (getNetworkKey backend (Function.update values .legacyEncryptedNetworkKey (some [])) migrationWorks).1 =
        if backend = .absent then none else some [] := by
  have apart : NetworkKeyName.networkKey ≠ .legacyEncryptedNetworkKey := by decide
  rw [getNetworkKey_answer, getNetworkKey_answer]
  have current : ReadBinaryValue backend (Function.update values .legacyEncryptedNetworkKey (some [])) .networkKey =
      ReadBinaryValue backend values .networkKey := by
    rw [ReadBinaryValue, Function.update_of_ne apart, ReadBinaryValue]
  rw [current]
  cases ReadBinaryValue backend values .networkKey with
  | some value => exact .inl rfl
  | none =>
    right
    rw [Option.none_or, ReadBinaryValue, Function.update_self]
    simp only [true_and]

theorem read_key_stays (stored : values .networkKey = some value) (readable : ¬ (value = [] ∧ backend = .absent))
    (gets : List Bool) (migrationWorks : Bool) :
    Yields value (getNetworkKey backend (networkKeyRun backend values (gets.map .getNetworkKey)) migrationWorks).1 := by
  have steady := getNetworkKey_found (read_value stored readable)
  rw [run_gets steady, steady, Yields]
  split
  · rename_i empty
    exact .inr (congrArg some empty)
  · rfl

/-- Where an empty value reads as absent, a clear is final unless the legacy name still gives a key. -/
theorem cleared_key_stays_iff (values : BinaryValues) (blankingWorks : Bool) :
    (∀ (gets : List Bool) (migrationWorks : Bool), Yields [] (getNetworkKey .absent (networkKeyRun .absent
      (setNetworkKey .absent values [] blankingWorks true).2 (gets.map .getNetworkKey)) migrationWorks).1) ↔
        ¬ LeavesLegacy .absent values [] blankingWorks := by
  have current := read_cleared (set_current .absent values [] blankingWorks)
  have old := legacy_after_set values [] blankingWorks true
  cases legacy : (if blankingWorks then none else ReadBinaryValue .absent values .legacyEncryptedNetworkKey) with
  | none =>
    have steady := getNetworkKey_none current (old.trans legacy)
    apply iff_of_true
    · intro gets migrationWorks
      rw [run_gets steady, steady]
      exact .inl rfl
    · rintro ⟨_, _, rfl, kept, under, given⟩
      rw [if_neg Bool.false_ne_true, legacy_read_iff.mpr ⟨under, given⟩] at legacy
      cases legacy
  | some kept =>
    have fails := getNetworkKey_legacy current (old.trans legacy)
    cases blankingWorks with
    | true => cases legacy
    | false =>
      obtain ⟨under, given⟩ := legacy_read_iff.mp legacy
      apply iff_of_false
      · intro every
        have answer := every [] true
        rw [List.map_nil, networkKeyRun, List.foldl_nil, fails true] at answer
        rcases answer with none | empty
        · cases none
        · exact given (Option.some.inj empty)
      · rw [not_not]
        exact ⟨rfl, rfl, rfl, kept, under, given⟩

/-- After a set that worked every read yields the value, unless the set was a clear that left a legacy key behind. -/
theorem set_key_stays (backend : EmptyValue) (initial : BinaryValues) (before : List NetworkKeyCall) (value : Bytes)
    (blankingWorks : Bool) :
    (∀ (gets : List Bool) (migrationWorks : Bool), Yields value (getNetworkKey backend
      (networkKeyRun backend initial (before ++ .setNetworkKey value blankingWorks true :: gets.map .getNetworkKey))
        migrationWorks).1) ↔ ¬ LeavesLegacy backend (networkKeyRun backend initial before) value blankingWorks := by
  have split : ∀ gets : List Bool,
      networkKeyRun backend initial (before ++ .setNetworkKey value blankingWorks true :: gets.map .getNetworkKey) =
        networkKeyRun backend (setNetworkKey backend (networkKeyRun backend initial before) value blankingWorks true).2
          (gets.map .getNetworkKey) := by
    intro gets
    rw [networkKeyRun, List.foldl_append]
    rfl
  simp only [split]
  generalize networkKeyRun backend initial before = values
  by_cases cleared : value = [] ∧ backend = .absent
  · obtain ⟨rfl, rfl⟩ := cleared
    exact cleared_key_stays_iff values blankingWorks
  · apply iff_of_true
    · exact read_key_stays (set_current backend values value blankingWorks) cleared
    · rintro ⟨absent, empty, _⟩
      exact cleared ⟨empty, absent⟩

/-- A clear whose blanking write fails: the key under the legacy name is back at the next read. -/
theorem cleared_key_returns : ¬ ∀ (backend : EmptyValue) (initial : BinaryValues) (value : Bytes)
    (blankingWorks : Bool), (setNetworkKey backend initial value blankingWorks true).1 = true → Yields value
      (getNetworkKey backend (setNetworkKey backend initial value blankingWorks true).2 true).1 := by
  intro every
  have answer := every .absent (fun valueName => if valueName = .networkKey then none else some [1]) [] false rfl
  revert answer
  decide

end ClippProof.Settings
