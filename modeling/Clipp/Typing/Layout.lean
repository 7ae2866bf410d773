import Clipp.Platform.WideConversion
import Clipp.Typing.Schedule

open Foundation

namespace ClippModel.Typing

/-- What the active layout answers: the scan of a UTF-16 unit as a `SHORT` (0xFFFF is -1), and the scancode of a
virtual key. -/
structure KeyboardLayout where
  vkKeyScan : UInt16 → UInt16
  mapVirtualKey : UInt8 → UInt32

structure TypeError where
  codepoint : UInt32 := 0
  line : Int := 1
  column : Int := 1
  deriving DecidableEq

structure TypeResult where
  ok : Bool := false
  plan : TypePlan := {}
  error : TypeError := {}
  deriving DecidableEq

/-- Ctrl with Alt is AltGr, which is the left Ctrl and the right Alt. -/
def AppendModifiers (shiftState : UInt8) : List TypeKeyCode :=
  let needShift := shiftState &&& 1 ≠ 0
  let needCtrl := shiftState &&& 2 ≠ 0
  let needAlt := shiftState &&& 4 ≠ 0
  (if needCtrl ∧ needAlt then [0xA2, 0xA5]
    else (if needCtrl then [0xA2] else []) ++ (if needAlt then [0xA4] else [])) ++
    if needShift then [0xA0] else []

def AppendSimple (plan : TypePlan) (key : TypeKeyCode) : TypePlan :=
  { plan with chords := plan.chords ++ [{ key := key }], characterCount := plan.characterCount + 1 }

def ToCodepoints : List UInt16 → List UInt32
  | [] => []
  | [unit] => [unit.toUInt32]
  | unit :: second :: rest =>
    if unit ≥ 0xD800 ∧ unit ≤ 0xDBFF ∧ second ≥ 0xDC00 ∧ second ≤ 0xDFFF then
      let high := unit.toUInt32 - 0xD800
      let low := second.toUInt32 - 0xDC00
      ((0x10000 : UInt32) + (high <<< 10) + low) :: ToCodepoints rest
    else unit.toUInt32 :: ToCodepoints (second :: rest)

namespace KeyboardLayout

/-- The chord of a UTF-16 unit, where the layout has a key for it that maps back to a scancode. -/
def chord (layout : KeyboardLayout) (unit : UInt16) : Option KeyChord :=
  let scan := layout.vkKeyScan unit
  if scan = 0xFFFF then none
  else
    let virtualKey := scan.toUInt8
    let shiftState := (scan >>> 8).toUInt8
    if virtualKey = 0 then none
    else if layout.mapVirtualKey virtualKey = 0 then none
    else some { modifiers := AppendModifiers shiftState, key := virtualKey.toUInt16 }

def typeCharacter (layout : KeyboardLayout) (cp : UInt32) : Option KeyChord :=
  if cp > 0xFFFF then none else layout.chord cp.toUInt16

end KeyboardLayout

def typeEnter (plan : TypePlan) : TypePlan :=
  let typed := AppendSimple plan 0x0D
  { typed with enterCount := typed.enterCount + 1 }

/-- The loop over the code points that are still to type; the counters are numbers here. -/
def translateFrom (layout : KeyboardLayout) : List UInt32 → TypePlan → Int → Int → TypeResult
  | [], plan, _, _ => { ok := true, plan := plan }
  | cp :: rest, plan, line, before =>
    let column := before + 1
    if cp = 0x0D then
      if rest.head? = some 0x0A then translateFrom layout rest plan line (column - 1)
      else translateFrom layout rest (typeEnter plan) (line + 1) 0
    else if cp = 0x0A then translateFrom layout rest (typeEnter plan) (line + 1) 0
    else if cp = 0x09 then translateFrom layout rest (AppendSimple plan 0x09) line column
    else
      match layout.typeCharacter cp with
      | none => { plan := plan, error := { codepoint := cp, line := line, column := column } }
      | some chord =>
        translateFrom layout rest
          { plan with chords := plan.chords ++ [chord], characterCount := plan.characterCount + 1 } line column

def TranslateTextToPlan (layout : KeyboardLayout) (text : List UInt16) : TypeResult :=
  translateFrom layout (ToCodepoints text) {} 1 0

/-- The code points that a UTF-16 text stands for; a surrogate without its other half stands for itself. -/
structure Decodes (text : List UInt16) (cps : List UInt32) : Prop where
  whole : cps.flatMap (ClippProof.Platform.unitsOf ClippModel.Platform.wchar16) = text
  paired : ∀ before high low after, cps = before ++ high :: low :: after →
    ¬ ((0xD800 ≤ high ∧ high ≤ 0xDBFF) ∧ 0xDC00 ≤ low ∧ low ≤ 0xDFFF)

/-- What is typed for a text: a line break, a tab or a character of the layout. -/
inductive Keystroke where
  | enter
  | tab
  | character (cp : UInt32)
  deriving DecidableEq

def keystroke (cp : UInt32) : Keystroke :=
  if cp = 0x0D ∨ cp = 0x0A then .enter else if cp = 0x09 then .tab else .character cp

/-- A carriage return before a line feed is one line break with it. -/
def keystrokes : List UInt32 → List Keystroke
  | [] => []
  | cp :: rest => if cp = 0x0D ∧ rest.head? = some 0x0A then keystrokes rest else keystroke cp :: keystrokes rest

def lineBreaks (cps : List UInt32) : Nat := (keystrokes cps).count .enter

def sinceBreak (cps : List UInt32) : Nat := (cps.reverse.takeWhile fun cp => cp ≠ 0x0D ∧ cp ≠ 0x0A).length

def KeyboardLayout.keys (layout : KeyboardLayout) : Keystroke → Option KeyChord
  | .enter => some { key := 0x0D }
  | .tab => some { key := 0x09 }
  | .character cp => if cp ≤ 0xFFFF then layout.chord cp.toUInt16 else none

def KeyboardLayout.Typable (layout : KeyboardLayout) (cp : UInt32) : Prop :=
  cp ≠ 0x0D → cp ≠ 0x0A → cp ≠ 0x09 → cp ≤ 0xFFFF ∧ (layout.chord cp.toUInt16).isSome = true

structure Translates (layout : KeyboardLayout) (cps : List UInt32) (result : TypeResult) : Prop where
  complete : result.ok = true ↔ ∀ cp ∈ cps, layout.Typable cp
  chords : result.ok = true → (keystrokes cps).map layout.keys = result.plan.chords.map some
  counts : result.ok = true →
    result.plan.enterCount = lineBreaks cps ∧ result.plan.characterCount = result.plan.chords.length
  first : result.ok = false → ∃ before cp after, cps = before ++ cp :: after ∧ (∀ earlier ∈ before, layout.Typable earlier) ∧
    ¬ layout.Typable cp ∧ result.error = ⟨cp, lineBreaks before + 1, sinceBreak before + 1⟩

end ClippModel.Typing

namespace ClippProof.Typing

open ClippModel.Typing ClippModel.Platform ClippProof.Platform

variable {layout : KeyboardLayout} {cp : UInt32} {cps rest before after : List UInt32} {plan : TypePlan} {line column : Int}

def isBreak (cp : UInt32) : Prop := cp = 0x0D ∨ cp = 0x0A

instance : DecidablePred isBreak := fun cp => inferInstanceAs (Decidable (cp = 0x0D ∨ cp = 0x0A))

def columnAfter (column : Int) (cps : List UInt32) : Int :=
  cps.foldl (fun column cp => if isBreak cp then 0 else column + 1) column

theorem keystrokes_cons (apart : ¬ (cp = 0x0D ∧ rest.head? = some 0x0A)) :
    keystrokes (cp :: rest) = keystroke cp :: keystrokes rest := if_neg apart

theorem keystrokes_pair (rest : List UInt32) : keystrokes (0x0D :: 0x0A :: rest) = keystrokes (0x0A :: rest) :=
  if_pos ⟨rfl, rfl⟩

theorem keystroke_break (broken : isBreak cp) : keystroke cp = .enter := if_pos broken

theorem keystroke_enter_iff : keystroke cp = .enter ↔ isBreak cp := by
  unfold keystroke isBreak
  split_ifs with broken tab
  · exact iff_of_true rfl broken
  · exact iff_of_false (by decide) broken
  · exact iff_of_false (by simp) broken

theorem typable_iff_key : layout.Typable cp ↔ (layout.keys (keystroke cp)).isSome = true := by
  unfold KeyboardLayout.Typable keystroke
  split_ifs with broken tab
  · rcases broken with rfl | rfl <;> simp [KeyboardLayout.keys]
  · simp [tab, KeyboardLayout.keys]
  · obtain ⟨carriage, feed⟩ := not_or.mp broken
    rw [KeyboardLayout.keys]
    by_cases inside : cp ≤ 0xFFFF <;> simp [carriage, feed, tab, inside]

theorem typable_of_break (broken : isBreak cp) : layout.Typable cp := by
  rw [typable_iff_key, keystroke_break broken]
  rfl

theorem keys_break (layout : KeyboardLayout) (broken : isBreak cp) : layout.keys (keystroke cp) = some { key := 0x0D } := by
  rw [keystroke_break broken, KeyboardLayout.keys]

theorem keys_tab (layout : KeyboardLayout) : layout.keys (keystroke 0x09) = some { key := 0x09 } :=
  rfl

theorem keys_character (layout : KeyboardLayout) (notBreak : ¬ isBreak cp) (notTab : cp ≠ 0x09) :
    layout.keys (keystroke cp) = layout.typeCharacter cp := by
  have character : keystroke cp = .character cp := (if_neg notBreak).trans (if_neg notTab)
  rw [character, KeyboardLayout.keys, KeyboardLayout.typeCharacter]
  by_cases inside : cp ≤ 0xFFFF
  · rw [if_pos inside, if_neg (UInt32.not_lt.mpr inside)]
  · rw [if_neg inside, if_pos (UInt32.not_le.mp inside)]

theorem lineBreaks_cons (apart : ¬ (cp = 0x0D ∧ rest.head? = some 0x0A)) :
    lineBreaks (cp :: rest) = lineBreaks rest + if isBreak cp then 1 else 0 := by
  rw [lineBreaks, keystrokes_cons apart, List.count_cons, lineBreaks]
  congr 1
  simp only [beq_iff_eq, keystroke_enter_iff]

theorem columnAfter_cons (column : Int) (cp : UInt32) (cps : List UInt32) :
    columnAfter column (cp :: cps) = columnAfter (if isBreak cp then 0 else column + 1) cps := rfl

/-- What the loop returns for the code points that are left, from any plan and any counters. -/
structure Returns (layout : KeyboardLayout) (cps : List UInt32) (plan : TypePlan) (line column : Int)
    (result : TypeResult) : Prop where
  complete : result.ok = true ↔ ∀ cp ∈ cps, layout.Typable cp
  chords : result.ok = true → ∃ chords, result.plan.chords = plan.chords ++ chords ∧
    (keystrokes cps).map layout.keys = chords.map some
  enterCount : result.ok = true → result.plan.enterCount = plan.enterCount + lineBreaks cps
  characterCount : result.ok = true → result.plan.characterCount = plan.characterCount + (keystrokes cps).length
  first : result.ok = false → ∃ before cp after, cps = before ++ cp :: after ∧ (∀ earlier ∈ before, layout.Typable earlier) ∧
    ¬ layout.Typable cp ∧ result.error = ⟨cp, line + lineBreaks before, columnAfter column before + 1⟩

theorem returns_nil (plan : TypePlan) (line column : Int) :
    Returns layout [] plan line column { ok := true, plan := plan } where
  complete := by simp
  chords := fun _ => ⟨[], (List.append_nil _).symm, rfl⟩
  enterCount := fun _ => (Int.add_zero _).symm
  characterCount := fun _ => (Int.add_zero _).symm
  first := by simp

theorem returns_untypable (rest : List UInt32) (plan : TypePlan) (line column : Int) (untypable : ¬ layout.Typable cp) :
    Returns layout (cp :: rest) plan line column { plan := plan, error := ⟨cp, line, column + 1⟩ } where
  complete := iff_of_false Bool.false_ne_true (fun all => untypable (all cp List.mem_cons_self))
  chords := by simp
  enterCount := by simp
  characterCount := by simp
  first := fun _ => ⟨[], cp, rest, rfl, by simp, untypable, by simp [lineBreaks, keystrokes, columnAfter]⟩

def keyed (plan : TypePlan) (cp : UInt32) (chord : KeyChord) : TypePlan :=
  { chords := plan.chords ++ [chord]
    characterCount := plan.characterCount + 1
    enterCount := plan.enterCount + if isBreak cp then 1 else 0 }

theorem Returns.typed {result : TypeResult} {chord : KeyChord} (key : layout.keys (keystroke cp) = some chord)
    (apart : ¬ (cp = 0x0D ∧ rest.head? = some 0x0A))
    (next : Returns layout rest (keyed plan cp chord) (line + if isBreak cp then 1 else 0)
      (if isBreak cp then 0 else column + 1) result) : Returns layout (cp :: rest) plan line column result where
  complete := by
    have typable : layout.Typable cp := by
      rw [typable_iff_key, key]
      rfl
    rw [next.complete, List.forall_mem_cons]
    exact (and_iff_right typable).symm
  chords := by
    intro ok
    obtain ⟨chords, whole, keys⟩ := next.chords ok
    refine ⟨chord :: chords, ?_, ?_⟩
    · rw [whole, keyed, List.append_assoc, List.singleton_append]
    · rw [keystrokes_cons apart, List.map_cons, key, keys, List.map_cons]
  enterCount := by
    intro ok
    rw [next.enterCount ok, lineBreaks_cons apart, keyed]
    split_ifs <;> push_cast <;> omega
  characterCount := by
    intro ok
    rw [next.characterCount ok, keystrokes_cons apart, keyed, List.length_cons]
    push_cast
    omega
  first := by
    intro failed
    obtain ⟨before, bad, after, rfl, fine, untypable, error⟩ := next.first failed
    have still : ¬ (cp = 0x0D ∧ before.head? = some 0x0A) := by
      rintro ⟨same, second⟩
      apply apart
      cases before with
      | nil => cases second
      | cons first before => exact ⟨same, second⟩
    refine ⟨cp :: before, bad, after, rfl, ?_, untypable, ?_⟩
    · rw [List.forall_mem_cons, typable_iff_key, key]
      exact ⟨rfl, fine⟩
    · rw [error, lineBreaks_cons still, columnAfter_cons]
      congr 1
      split_ifs <;> push_cast <;> omega

theorem Returns.paired {result : TypeResult} (next : Returns layout (0x0A :: rest) plan line column result) :
    Returns layout (0x0D :: 0x0A :: rest) plan line column result where
  complete := by
    have typable : layout.Typable 0x0D := typable_of_break (.inl rfl)
    rw [next.complete, List.forall_mem_cons (a := 0x0D)]
    exact (and_iff_right typable).symm
  chords := by
    rw [keystrokes_pair]
    exact next.chords
  enterCount := by
    rw [lineBreaks, keystrokes_pair]
    exact next.enterCount
  characterCount := by
    rw [keystrokes_pair]
    exact next.characterCount
  first := by
    intro failed
    obtain ⟨before, bad, after, split, fine, untypable, error⟩ := next.first failed
    have newline : layout.Typable 0x0A := typable_of_break (.inr rfl)
    cases before with
    | nil =>
      cases split
      exact absurd newline untypable
    | cons first before =>
      cases split
      refine ⟨0x0D :: 0x0A :: before, bad, after, rfl, ?_, untypable, ?_⟩
      · rw [List.forall_mem_cons]
        exact ⟨typable_of_break (.inl rfl), fine⟩
      · rw [error, lineBreaks, lineBreaks, keystrokes_pair]
        rfl

theorem translateFrom_returns (layout : KeyboardLayout) (cps : List UInt32) (plan : TypePlan) (line column : Int) :
    Returns layout cps plan line column (translateFrom layout cps plan line column) := by
  induction cps generalizing plan line column with
  | nil => exact returns_nil plan line column
  | cons cp rest ih =>
    rw [translateFrom]
    by_cases carriage : cp = 0x0D
    · subst carriage
      by_cases pair : rest.head? = some 0x0A
      · obtain ⟨tail, rfl⟩ : ∃ tail, rest = 0x0A :: tail := by
          cases rest with
          | nil => cases pair
          | cons first tail => exact ⟨tail, by rw [Option.some.inj pair]⟩
        simp only [if_true, List.head?_cons, Int.add_sub_cancel]
        exact (ih plan line column).paired
      · simp only [if_true, if_neg pair]
        exact Returns.typed (keys_break layout (by decide)) (fun paired => pair paired.2) (ih _ _ _)
    · have apart : ¬ (cp = 0x0D ∧ rest.head? = some 0x0A) := fun paired => carriage paired.1
      simp only [if_neg carriage]
      by_cases feed : cp = 0x0A
      · subst feed
        simp only [if_true]
        exact Returns.typed (keys_break layout (by decide)) apart (ih _ _ _)
      · have notBreak : ¬ isBreak cp := not_or.mpr ⟨carriage, feed⟩
        simp only [if_neg feed]
        by_cases tab : cp = 0x09
        · subst tab
          simp only [if_true]
          have next := ih (AppendSimple plan 0x09) line (column + 1)
          apply Returns.typed (keys_tab layout) apart
          simpa [keyed, AppendSimple, isBreak] using next
        · simp only [if_neg tab]
          have same := keys_character layout notBreak tab
          cases typed : layout.typeCharacter cp with
          | none =>
            apply returns_untypable
            rw [typable_iff_key, same, typed]
            exact Bool.false_ne_true
          | some chord =>
            have next := ih { plan with chords := plan.chords ++ [chord], characterCount := plan.characterCount + 1 }
              line (column + 1)
            apply Returns.typed (same.trans typed) apart
            simpa [keyed, if_neg notBreak] using next

theorem columnAfter_start (cps : List UInt32) : columnAfter 0 cps = sinceBreak cps := by
  induction cps using List.reverseRecOn with
  | nil => rfl
  | append_singleton cps cp ih =>
    have last : columnAfter 0 (cps ++ [cp]) = if isBreak cp then 0 else columnAfter 0 cps + 1 := List.foldl_append
    rw [last, ih, sinceBreak, sinceBreak, List.reverse_append, List.reverse_singleton, List.singleton_append,
      List.takeWhile_cons]
    by_cases broken : isBreak cp
    · rcases broken with rfl | rfl <;> rfl
    · have kept : decide (cp ≠ 0x0D ∧ cp ≠ 0x0A) = true := decide_eq_true (not_or.mp broken)
      simp only [kept, if_neg broken, if_true, List.length_cons]
      push_cast
      rfl

theorem units_of_pair {unit second : UInt16} (isHigh : unit ≥ 0xD800 ∧ unit ≤ 0xDBFF)
    (isLow : second ≥ 0xDC00 ∧ second ≤ 0xDFFF) {cp : UInt32}
    (pair : cp = (0x10000 : UInt32) + ((unit.toUInt32 - 0xD800) <<< 10) + (second.toUInt32 - 0xDC00)) :
    0x10000 ≤ cp.toNat ∧ unitsOf wchar16 cp = [unit, second] := by
  have highFrom : 0xD800 ≤ unit.toNat := isHigh.1
  have highTo : unit.toNat ≤ 0xDBFF := isHigh.2
  have lowFrom : 0xDC00 ≤ second.toNat := isLow.1
  have lowTo : second.toNat ≤ 0xDFFF := isLow.2
  have high : (unit.toUInt32 - 0xD800).toNat = unit.toNat - 0xD800 := by
    rw [UInt32.toNat_sub_of_le _ _ isHigh.1, UInt16.toNat_toUInt32]
    rfl
  have low : (second.toUInt32 - 0xDC00).toNat = second.toNat - 0xDC00 := by
    rw [UInt32.toNat_sub_of_le _ _ isLow.1, UInt16.toNat_toUInt32]
    rfl
  have value : cp.toNat = 0x10000 + (unit.toNat - 0xD800) * 1024 + (second.toNat - 0xDC00) := by
    have shifted : ((unit.toUInt32 - 0xD800) <<< 10).toNat = (unit.toNat - 0xD800) * 1024 := by
      rw [UInt32.toNat_shiftLeft, high]
      change (unit.toNat - 0xD800) <<< 10 % 2 ^ 32 = _
      rw [Nat.shiftLeft_eq]
      omega
    rw [pair, UInt32.toNat_add, UInt32.toNat_add, shifted, low]
    change ((0x10000 + _) % 2 ^ 32 + _) % 2 ^ 32 = _
    omega
  have least : (0x10000 : UInt32) ≤ cp := by
    change 0x10000 ≤ cp.toNat
    omega
  have wide : ¬ cp ≤ 0xFFFF := by
    change ¬ cp.toNat ≤ 0xFFFF
    omega
  have base : (cp - 0x10000).toNat = cp.toNat - 0x10000 := UInt32.toNat_sub_of_le _ _ least
  obtain ⟨upper, lower⟩ := halves_toNat (cp - 0x10000)
  have first := surrogate_toNat 0xD800 ((cp - 0x10000) >>> 10) 54 rfl (by omega) (by decide)
  have next := surrogate_toNat 0xDC00 ((cp - 0x10000) &&& 0x3FF) 55 rfl (by omega) (by decide)
  have narrow : wchar16.size = 2 := rfl
  refine ⟨by omega, ?_⟩
  rw [unitsOf, if_pos narrow, if_neg wide]
  congr 1
  · apply UInt16.toNat_inj.mp
    rw [UInt16.toNat_toUInt32] at first
    change ((0xD800 : UInt32) ||| ((cp - 0x10000) >>> 10)).toUInt16.toNat = unit.toNat
    rw [first, upper]
    change 0xD800 + _ = _
    omega
  · congr 1
    apply UInt16.toNat_inj.mp
    rw [UInt16.toNat_toUInt32] at next
    change ((0xDC00 : UInt32) ||| ((cp - 0x10000) &&& 0x3FF)).toUInt16.toNat = second.toNat
    rw [next, lower]
    change 0xDC00 + _ = _
    omega

theorem unitsOf_unit (unit : UInt16) : unitsOf wchar16 unit.toUInt32 = [unit] := by
  have narrow : unit.toUInt32 ≤ 0xFFFF := by
    show unit.toUInt32.toNat ≤ 0xFFFF
    have bound := unit.toNat_lt
    rw [UInt16.toNat_toUInt32]
    omega
  have size : wchar16.size = 2 := rfl
  rw [unitsOf, if_pos size, if_pos narrow]
  congr 1
  apply UInt16.toNat_inj.mp
  show unit.toUInt32.toUInt16.toNat = unit.toNat
  simp

theorem codepoints_begin {unit : UInt16} {text : List UInt16} {cp : UInt32} {cps : List UInt32}
    (split : ToCodepoints (unit :: text) = cp :: cps) (small : cp.toNat < 0x10000) : cp = unit.toUInt32 := by
  cases text with
  | nil =>
    cases split
    rfl
  | cons second rest =>
    rw [ToCodepoints] at split
    split at split
    · rename_i pair
      obtain ⟨same, _⟩ := List.cons.inj split
      have large := (units_of_pair ⟨pair.1, pair.2.1⟩ pair.2.2 same.symm).1
      omega
    · obtain ⟨rfl, _⟩ := List.cons.inj split
      rfl

theorem text_decodes (text : List UInt16) : Decodes text (ToCodepoints text) := by
  fun_induction ToCodepoints text with
  | case1 => exact ⟨rfl, by simp⟩
  | case2 unit =>
    constructor
    · simp [unitsOf_unit]
    · intro before high low after split
      have count := congrArg List.length split
      simp at count
      omega
  | case3 unit second rest pair high low ih =>
    obtain ⟨large, units⟩ := units_of_pair ⟨pair.1, pair.2.1⟩ pair.2.2 rfl
    constructor
    · rw [List.flatMap_cons, ih.whole]
      exact congrArg (· ++ rest) units
    · intro before first next after split halves
      cases before with
      | nil =>
        obtain ⟨rfl, _⟩ := List.cons.inj split
        have small : ((0x10000 : UInt32) + (high <<< 10) + low).toNat ≤ 0xDBFF := halves.1.2
        have least : 0x10000 ≤ ((0x10000 : UInt32) + (high <<< 10) + low).toNat := large
        omega
      | cons _ before => exact ih.paired before first next after (List.cons.inj split).2 halves
  | case4 unit second rest apart ih =>
    constructor
    · rw [List.flatMap_cons, ih.whole, unitsOf_unit]
      rfl
    · intro before first next after split halves
      cases before with
      | nil =>
        obtain ⟨rfl, others⟩ := List.cons.inj split
        have small : next.toNat ≤ 0xDFFF := halves.2.2
        have same := codepoints_begin others (by omega)
        subst same
        exact apart ⟨halves.1.1, halves.1.2, halves.2⟩
      | cons _ before => exact ih.paired before first next after (List.cons.inj split).2 halves

/-- A text is typed as its line breaks, tabs and characters, or the first character without a key is named. -/
theorem text_translates (layout : KeyboardLayout) (text : List UInt16) : Decodes text (ToCodepoints text) ∧
    Translates layout (ToCodepoints text) (TranslateTextToPlan layout text) := by
  refine ⟨text_decodes text, ?_⟩
  have returns := translateFrom_returns layout (ToCodepoints text) {} 1 0
  constructor
  · exact returns.complete
  · intro ok
    obtain ⟨chords, whole, keys⟩ := returns.chords ok
    rw [keys, TranslateTextToPlan, whole]
    rfl
  · intro ok
    obtain ⟨chords, whole, keys⟩ := returns.chords ok
    have count := congrArg List.length keys
    rw [List.length_map, List.length_map] at count
    constructor
    · rw [TranslateTextToPlan, returns.enterCount ok]
      exact Int.zero_add _
    · rw [TranslateTextToPlan, returns.characterCount ok, whole, count]
      exact Int.zero_add _
  · intro failed
    obtain ⟨before, bad, after, split, fine, untypable, error⟩ := returns.first failed
    refine ⟨before, bad, after, split, fine, untypable, ?_⟩
    rw [TranslateTextToPlan, error, columnAfter_start, Int.add_comm 1]

end ClippProof.Typing
