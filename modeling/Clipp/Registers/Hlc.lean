import Clipp.Foundation.ByteOrder
import Clipp.Foundation.FixedWidth
import Mathlib.Data.Prod.Lex

open Foundation

namespace ClippModel.Registers

@[ext] structure Hlc where
  wallMs : UInt64 := 0
  counter : UInt64 := 0
  deriving DecidableEq, Repr

def Hlc.key (h : Hlc) : UInt64 ×ₗ UInt64 := toLex (h.wallMs, h.counter)

/-- The defaulted three-way comparison: wall reading first, then counter. -/
instance : LinearOrder Hlc := LinearOrder.lift' Hlc.key (by
  intro a b same
  have pair : (a.wallMs, a.counter) = (b.wallMs, b.counter) := same
  exact Hlc.ext (congrArg Prod.fst pair) (congrArg Prod.snd pair))

theorem Hlc.lt_iff (a b : Hlc) :
    a < b ↔ a.wallMs < b.wallMs ∨ a.wallMs = b.wallMs ∧ a.counter < b.counter :=
  Prod.Lex.toLex_lt_toLex

theorem Hlc.le_iff (a b : Hlc) :
    a ≤ b ↔ a.wallMs < b.wallMs ∨ a.wallMs = b.wallMs ∧ a.counter ≤ b.counter :=
  Prod.Lex.toLex_le_toLex

theorem Hlc.wall_mono {a b : Hlc} (le : a ≤ b) : a.wallMs ≤ b.wallMs := by
  rcases (Hlc.le_iff a b).mp le with less | ⟨same, _⟩
  · exact less.le
  · exact same.le

theorem Hlc.zero_le (h : Hlc) : ({} : Hlc) ≤ h := by
  rw [Hlc.le_iff]
  rcases eq_or_ne h.wallMs 0 with zero | positive
  · exact .inr ⟨zero.symm, UInt64.zero_le⟩
  · exact .inl (UInt64.pos_iff_ne_zero.mpr positive)

def Hlc.pack (h : Hlc) : Bytes := bigEndian 8 h.wallMs.toNat ++ bigEndian 8 h.counter.toNat

def Hlc.unpack (bytes : Bytes) : Hlc where
  wallMs := UInt64.ofNat (number (bytes.take 8))
  counter := UInt64.ofNat (number ((bytes.drop 8).take 8))

theorem Hlc.pack_length (h : Hlc) : h.pack.length = 16 := by simp [Hlc.pack]

theorem Hlc.unpack_pack (h : Hlc) : Hlc.unpack h.pack = h := by
  have wall : number (bigEndian 8 h.wallMs.toNat) = h.wallMs.toNat :=
    number_bigEndian_of_lt h.wallMs.toNat_lt
  have count : number (bigEndian 8 h.counter.toNat) = h.counter.toNat :=
    number_bigEndian_of_lt h.counter.toNat_lt
  have whole : (bigEndian 8 h.counter.toNat).take 8 = bigEndian 8 h.counter.toNat :=
    List.take_of_length_le (by simp)
  ext <;> simp [Hlc.unpack, Hlc.pack, whole, wall, count]

structure HlcClock where
  last : Hlc := {}
  deriving DecidableEq, Repr

def HlcClock.now (c : HlcClock) (phys : UInt64) : Hlc × HlcClock :=
  let last : Hlc :=
    if phys > c.last.wallMs then { wallMs := phys, counter := 0 }
    -- the increment is unchecked and wraps at the last value
    else { wallMs := c.last.wallMs, counter := c.last.counter + 1 }
  (last, { last := last })

def HlcClock.witness (c : HlcClock) (seen : Hlc) : HlcClock := { last := max c.last seen }

def HlcClock.seedFloor (c : HlcClock) (floor : Hlc) : HlcClock := { last := max c.last floor }

def HlcClock.highWater (c : HlcClock) : Hlc := c.last

/-- The physical reading does not lift the clock and the counter has no successor. -/
def HlcClock.Exhausted (c : HlcClock) (phys : UInt64) : Prop :=
  phys ≤ c.last.wallMs ∧ c.last.counter = maxWord

instance (c : HlcClock) (phys : UInt64) : Decidable (c.Exhausted phys) :=
  inferInstanceAs (Decidable (_ ∧ _))

@[simp] theorem HlcClock.now_last (c : HlcClock) (phys : UInt64) :
    (c.now phys).2.last = (c.now phys).1 := rfl

@[simp] theorem HlcClock.witness_last (c : HlcClock) (seen : Hlc) :
    (c.witness seen).last = max c.last seen := rfl

theorem HlcClock.now_above {c : HlcClock} {phys : UInt64} (fresh : ¬ c.Exhausted phys) :
    c.last < (c.now phys).1 := by
  rw [Hlc.lt_iff]
  by_cases lifted : phys > c.last.wallMs
  · left
    simp [HlcClock.now, lifted]
  · right
    have counter : c.last.counter ≠ maxWord := fun full => fresh ⟨not_lt.mp lifted, full⟩
    simpa [HlcClock.now, lifted] using word_lt_succ counter

theorem HlcClock.now_exhausted {c : HlcClock} {phys : UInt64} (full : c.Exhausted phys) :
    (c.now phys).1 < c.last := by
  have held : ¬ phys > c.last.wallMs := not_lt.mpr full.1
  rw [Hlc.lt_iff]
  right
  simp [HlcClock.now, held, full.2, maxWord_succ]
  decide

end ClippModel.Registers

namespace ClippProof.Registers

open ClippModel.Registers

inductive ClockCall where
  | now (phys : UInt64)
  | witness (seen : Hlc)
  | seedFloor (floor : Hlc)
  deriving DecidableEq, Repr

def applyCall (c : HlcClock) : ClockCall → HlcClock
  | .now phys => (c.now phys).2
  | .witness seen => c.witness seen
  | .seedFloor floor => c.seedFloor floor

def stampOf (c : HlcClock) : ClockCall → Hlc
  | .now phys => (c.now phys).1
  | .witness seen => seen
  | .seedFloor floor => floor

structure ClockEvent where
  minted : Bool
  stamp : Hlc
  deriving DecidableEq, Repr

def eventOf (c : HlcClock) (call : ClockCall) : ClockEvent where
  minted := match call with
    | .now _ => true
    | _ => false
  stamp := stampOf c call

def clockEvents (c : HlcClock) : List ClockCall → List ClockEvent
  | [] => []
  | call :: calls => eventOf c call :: clockEvents (applyCall c call) calls

/-- Every minted stamp is strictly above all stamps of the history before it. -/
def Rising (events : List ClockEvent) : Prop :=
  events.Pairwise (fun earlier later => later.minted = true → earlier.stamp < later.stamp)

instance (events : List ClockEvent) : Decidable (Rising events) :=
  inferInstanceAs (Decidable (List.Pairwise _ _))

/-- No `Now` call of the run finds the clock at the last counter value of a wall reading that
    the physical clock has not passed. -/
def NeverExhausted (c : HlcClock) : List ClockCall → Prop
  | [] => True
  | call :: calls =>
    (∀ phys, call = .now phys → ¬ c.Exhausted phys) ∧ NeverExhausted (applyCall c call) calls

theorem applyCall_mono {c : HlcClock} {call : ClockCall}
    (fresh : ∀ phys, call = .now phys → ¬ c.Exhausted phys) : c.last ≤ (applyCall c call).last := by
  cases call with
  | now phys => exact (HlcClock.now_above (fresh phys rfl)).le
  | witness seen => exact le_max_left _ _
  | seedFloor floor => exact le_max_left _ _

theorem stampOf_le_last (c : HlcClock) (call : ClockCall) :
    stampOf c call ≤ (applyCall c call).last := by
  cases call with
  | now phys => exact le_rfl
  | witness seen => exact le_max_right _ _
  | seedFloor floor => exact le_max_right _ _

theorem last_from_history {c : HlcClock} {call : ClockCall} {past : List Hlc}
    (known : c.last = {} ∨ c.last ∈ past) :
    (applyCall c call).last = {} ∨ (applyCall c call).last ∈ past ++ [stampOf c call] := by
  have pick : ∀ h : Hlc, max c.last h = {} ∨ max c.last h ∈ past ++ [h] := by
    intro h
    rcases max_choice c.last h with keep | take
    · rw [keep]
      exact known.imp_right (List.mem_append_left _)
    · rw [take]
      exact .inr (by simp)
  cases call with
  | now phys => exact .inr (by simp [applyCall, stampOf])
  | witness seen => exact pick seen
  | seedFloor floor => exact pick floor

theorem events_above_last {c : HlcClock} {calls : List ClockCall} (fresh : NeverExhausted c calls) :
    ∀ event ∈ clockEvents c calls, event.minted = true → c.last < event.stamp := by
  induction calls generalizing c with
  | nil => simp [clockEvents]
  | cons call calls ih =>
    intro event member minted
    rcases List.mem_cons.mp member with rfl | later
    · cases call with
      | now phys => exact HlcClock.now_above (fresh.1 phys rfl)
      | witness seen => cases minted
      | seedFloor floor => cases minted
    · exact (applyCall_mono fresh.1).trans_lt (ih fresh.2 event later minted)

theorem rising_of_neverExhausted {c : HlcClock} {calls : List ClockCall}
    (fresh : NeverExhausted c calls) : Rising (clockEvents c calls) := by
  induction calls generalizing c with
  | nil => exact .nil
  | cons call calls ih =>
    refine List.pairwise_cons.mpr ⟨?_, ih fresh.2⟩
    intro event member minted
    exact (stampOf_le_last c call).trans_lt (events_above_last fresh.2 event member minted)

theorem neverExhausted_of_rising {c : HlcClock} {past : List Hlc} {calls : List ClockCall}
    (known : c.last = {} ∨ c.last ∈ past) (rising : Rising (clockEvents c calls))
    (above : ∀ event ∈ clockEvents c calls, event.minted = true → ∀ h ∈ past, h < event.stamp) :
    NeverExhausted c calls := by
  induction calls generalizing c past with
  | nil => trivial
  | cons call calls ih =>
    obtain ⟨first, rest⟩ := List.pairwise_cons.mp rising
    refine ⟨?_, ih (last_from_history known) rest ?_⟩
    · rintro phys rfl full
      have back : (c.now phys).1 < c.last := HlcClock.now_exhausted full
      rcases known with zero | member
      · have counter := full.2
        rw [zero] at counter
        exact absurd counter (by decide)
      · exact lt_asymm back (above _ List.mem_cons_self rfl c.last member)
    · intro event member minted h old
      rcases List.mem_append.mp old with old | new
      · exact above event (List.mem_cons_of_mem _ member) minted h old
      · rw [List.mem_singleton.mp new]
        exact first event member minted

/-- The stamps of a run rise past everything returned, witnessed or seeded before them exactly
    when no `Now` call of the run meets an exhausted counter. -/
theorem hlc_stamps_rise_iff (calls : List ClockCall) :
    Rising (clockEvents {} calls) ↔ NeverExhausted {} calls :=
  ⟨fun rising => @neverExhausted_of_rising {} [] calls (.inl rfl) rising (by simp),
    rising_of_neverExhausted⟩

theorem hlc_witness_of_full_counter_wraps :
    ¬ Rising (clockEvents {} [.witness { wallMs := 10000, counter := maxWord }, .now 100]) := by
  decide

end ClippProof.Registers
