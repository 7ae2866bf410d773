import Mathlib.Algebra.Order.Ring.Int
import Mathlib.Data.List.DropRight
import Mathlib.Data.List.Infix
import Mathlib.Tactic.SplitIfs

namespace ClippModel.Logging

abbrev WideString := List UInt32

def escape : UInt32 := 0x1B
def bracket : UInt32 := 0x5B
def terminator : UInt32 := 0x6D
def semicolon : UInt32 := 0x3B
def lineFeed : UInt32 := 0x0A
def carriageReturn : UInt32 := 0x0D

def isWideDigit (ch : UInt32) : Bool := 0x30 ≤ ch ∧ ch ≤ 0x39

inductive Color where
  | default
  | gray
  | dimCyan
  | cyan
  | green
  | yellow
  | red
  deriving DecidableEq

structure Run where
  text : WideString
  color : Color
  deriving DecidableEq

structure Line where
  runs : List Run := []
  plainText : WideString := []
  deriving DecidableEq

def intMax : Nat := 2 ^ 31 - 1

/-- A parameter of type `int` as far as it has been read. An overflow is recorded, and the value wraps. -/
structure Parameter where
  value : Int
  parsed : Bool
  overflowed : Bool

def Parameter.accumulate (p : Parameter) (ch : UInt32) : Parameter :=
  let next := p.value * 10 + (ch.toNat - 0x30 : Nat)
  { p with value := next.bmod (2 ^ 32), overflowed := p.overflowed || next < -(2 ^ 31) || intMax < next }

def readParameter (p : Parameter) : WideString → Parameter
  | [] => p
  | ch :: rest => if isWideDigit ch then readParameter (p.accumulate ch) rest else { p with parsed := false }

/-- The attributes of a code; a foreground of -1 is none. -/
structure Attributes where
  dim : Bool := false
  bold : Bool := false
  foreground : Int := -1

def Attributes.apply (a : Attributes) (value : Int) : Attributes :=
  if value = 0 then {}
  else if value = 1 then { a with bold := true }
  else if value = 2 then { a with dim := true }
  else if value = 22 then { a with dim := false, bold := false }
  else if value = 36 ∨ value = 90 ∨ (30 ≤ value ∧ value ≤ 37) then { a with foreground := value }
  else if value = 39 then { a with foreground := -1 }
  else a

def Attributes.color (a : Attributes) : Color :=
  if a.foreground = 90 then .gray
  else if a.foreground = 36 then if a.dim then .dimCyan else .cyan
  else if a.bold ∧ a.foreground = 32 then .green
  else if a.bold ∧ a.foreground = 33 then .yellow
  else if a.bold ∧ a.foreground = 31 then .red
  else .default

/-- One part of a code, after the attributes and the overflows of the parts in front of it. -/
def applyPart (s : Attributes × Bool) (part : WideString) : Attributes × Bool :=
  let p := readParameter { value := 0, parsed := part ≠ [], overflowed := false } part
  (if p.parsed then s.1.apply p.value else s.1, s.2 || p.overflowed)

def colorForAnsiCode (code : WideString) : Color × Bool :=
  if code = [] then (.default, false)
  else
    let s := (code.splitOn semicolon).foldl applyPart ({}, false)
    (s.1.color, s.2)

structure AnsiScan where
  parsed : Line := {}
  currentColor : Color := .default
  currentText : WideString := []
  overflowed : Bool := false

namespace AnsiScan

def flushText (s : AnsiScan) : AnsiScan :=
  if s.currentText = [] then s
  else
    { s with
      parsed := { plainText := s.parsed.plainText ++ s.currentText
                  runs := s.parsed.runs ++ [{ text := s.currentText, color := s.currentColor }] }
      currentText := [] }

def keep (s : AnsiScan) (ch : UInt32) : AnsiScan := { s with currentText := s.currentText ++ [ch] }

def endCode (s : AnsiScan) (code : WideString) : AnsiScan :=
  { s with currentColor := (colorForAnsiCode code).1, overflowed := s.overflowed || (colorForAnsiCode code).2 }

/-- The loop over a line. Behind `ESC [` there is a code, as far as it has been collected. -/
def scan : Option WideString → AnsiScan → WideString → AnsiScan
  | _, s, [] => s.flushText
  | some code, s, ch :: rest =>
    if ch = terminator then scan none (s.endCode code) rest else scan (some (code ++ [ch])) s rest
  | none, s, [ch] => (s.keep ch).flushText
  | none, s, ch :: next :: rest =>
    if ch = escape ∧ next = bracket then scan (some []) s.flushText rest
    else scan none (s.keep ch) (next :: rest)

example (s : AnsiScan) : scan none s [escape, bracket] = s.flushText.flushText := by
  rw [scan, if_pos ⟨rfl, rfl⟩, scan]

end AnsiScan

def parseAnsiLine (line : WideString) : Line × Bool :=
  let s := AnsiScan.scan none {} line
  (s.parsed, s.overflowed)

def isLineBreak (ch : UInt32) : Bool := ch = carriageReturn ∨ ch = lineFeed

/-- A line ends at either break, and a carriage return takes the line feed behind it along. -/
def splitLines : WideString → List WideString
  | [] => [[]]
  | [ch] => if isLineBreak ch then [[], []] else [[ch]]
  | ch :: next :: rest =>
    if ch = carriageReturn ∧ next = lineFeed then [] :: splitLines rest
    else if isLineBreak ch then [] :: splitLines (next :: rest)
    else (splitLines (next :: rest)).modifyHead (ch :: ·)

structure AppendResult where
  addedLines : List Line := []
  removedLineCount : Nat := 0

structure TerminalLogBuffer where
  maxLines : Nat
  lines : List Line := []

namespace TerminalLogBuffer

def addedLines (text : WideString) : List Line :=
  let trimmedText := text.rdropWhile isLineBreak
  if trimmedText = [] then [] else (splitLines trimmedText).map fun line => (parseAnsiLine line).1

/-- Lines are popped from the front while there are too many, and counted. -/
def popExcess (maxLines : Nat) : List Line → Nat × List Line
  | [] => (0, [])
  | line :: rest =>
    if maxLines < rest.length + 1 then
      let popped := popExcess maxLines rest
      (popped.1 + 1, popped.2)
    else (0, line :: rest)

def appendAnsiLogText (b : TerminalLogBuffer) (text : WideString) : AppendResult × TerminalLogBuffer :=
  if text.rdropWhile isLineBreak = [] then ({}, b)
  else
    let popped := popExcess b.maxLines (b.lines ++ addedLines text)
    ({ addedLines := addedLines text, removedLineCount := popped.1 }, { b with lines := popped.2 })

end TerminalLogBuffer

structure LogRun where
  buffer : TerminalLogBuffer
  view : List Line := []

def LogRun.append (r : LogRun) (text : WideString) : LogRun :=
  let update := r.buffer.appendAnsiLogText text
  { buffer := update.2
    view := (r.view ++ update.1.addedLines).drop update.1.removedLineCount }

def logRun (maxLines : Nat) (texts : List WideString) : LogRun :=
  texts.foldl LogRun.append { buffer := { maxLines := maxLines } }

end ClippModel.Logging

namespace ClippProof.Logging

open ClippModel.Logging ClippModel.Logging.AnsiScan ClippModel.Logging.TerminalLogBuffer

variable {line rest params after : WideString} {ch next : UInt32} {s : AnsiScan}

def Opens (line : WideString) : Prop := ∃ rest, line = escape :: bracket :: rest

def isParameter (ch : UInt32) : Bool := isWideDigit ch || ch = semicolon

def afterSgr : WideString → Option WideString
  | ch :: next :: rest =>
    if ch = escape ∧ next = bracket ∧ (rest.dropWhile isParameter).head? = some terminator then
      some (rest.dropWhile isParameter).tail
    else none
  | _ => none

theorem afterSgr_length (found : afterSgr line = some after) : after.length < line.length := by
  unfold afterSgr at found
  split at found
  · split_ifs at found
    obtain rfl := Option.some.inj found
    rename_i rest _
    have shorter := (List.dropWhile_sublist (l := rest) isParameter).length_le
    simp only [List.length_tail, List.length_cons]
    omega
  · cases found

/-- The line without its complete SGR sequences. -/
def withoutSgr (line : WideString) : WideString :=
  match line with
  | [] => []
  | ch :: rest =>
    match _found : afterSgr (ch :: rest) with
    | some after => withoutSgr after
    | none => ch :: withoutSgr rest
termination_by line.length
decreasing_by
  · exact afterSgr_length ‹_›
  · exact Nat.lt_succ_self _

theorem withoutSgr_some (found : afterSgr line = some after) : withoutSgr line = withoutSgr after := by
  cases line with
  | nil => cases found
  | cons ch rest =>
    rw [withoutSgr]
    split
    · rename_i other same
      rw [Option.some.inj (same.symm.trans found)]
    · rename_i absent
      cases absent.symm.trans found

theorem withoutSgr_none (absent : afterSgr (ch :: rest) = none) : withoutSgr (ch :: rest) = ch :: withoutSgr rest := by
  rw [withoutSgr]
  split
  · rename_i other found
    cases absent.symm.trans found
  · rfl

/-- A line ends, opens a sequence that is cut off or terminated, or goes on with a unit of its text. -/
theorem line_induction {motive : WideString → Prop} (nil : motive [])
    (cutOff : ∀ rest, terminator ∉ rest → motive (escape :: bracket :: rest))
    (sequence : ∀ params after, terminator ∉ params → motive after →
      motive (escape :: bracket :: (params ++ terminator :: after)))
    (unit : ∀ ch rest, ¬ Opens (ch :: rest) → motive rest → motive (ch :: rest)) (line : WideString) : motive line := by
  induction size : line.length using Nat.strong_induction_on generalizing line with
  | _ n ih =>
    subst size
    by_cases opens : Opens line
    · obtain ⟨rest, rfl⟩ := opens
      by_cases ends : terminator ∈ rest
      · obtain ⟨params, after, rfl, first⟩ := List.eq_append_cons_of_mem ends
        apply sequence params after first
        apply ih _ _ after rfl
        simp only [List.length_cons, List.length_append]
        omega
      · exact cutOff rest ends
    · cases line with
      | nil => exact nil
      | cons ch rest => exact unit ch rest opens (ih _ (Nat.lt_succ_self _) rest rfl)

theorem terminator_not_parameter : isParameter terminator = false := by decide

theorem dropWhile_params (absent : terminator ∉ params) :
    ((params ++ terminator :: after).dropWhile isParameter).head? = some terminator ↔ params.all isParameter = true := by
  induction params with
  | nil => simp [terminator_not_parameter]
  | cons ch params ih =>
    rw [List.mem_cons, not_or] at absent
    rw [List.cons_append, List.dropWhile_cons, List.all_cons, Bool.and_eq_true]
    by_cases plain : isParameter ch = true
    · rw [if_pos plain, ih absent.2]
      exact (and_iff_right plain).symm
    · rw [if_neg plain, List.head?_cons, Option.some.injEq]
      exact iff_of_false (Ne.symm absent.1) fun both => plain both.1

theorem afterSgr_sequence (complete : params.all isParameter = true) :
    afterSgr (escape :: bracket :: (params ++ terminator :: after)) = some after := by
  have behind : (params ++ terminator :: after).dropWhile isParameter = terminator :: after := by
    rw [List.dropWhile_append_of_pos (List.all_eq_true.mp complete), List.dropWhile_cons_of_neg (by decide)]
  simp [afterSgr, behind]

theorem afterSgr_incomplete (absent : terminator ∉ params) (incomplete : ¬ params.all isParameter = true) :
    afterSgr (escape :: bracket :: (params ++ terminator :: after)) = none := by
  rw [afterSgr, if_neg]
  exact fun found => incomplete ((dropWhile_params absent).mp found.2.2)

theorem afterSgr_cutOff (absent : terminator ∉ rest) : afterSgr (escape :: bracket :: rest) = none := by
  rw [afterSgr, if_neg]
  intro found
  exact absent ((List.dropWhile_sublist _).subset (List.mem_of_head? found.2.2))

theorem afterSgr_closed (closed : ¬ Opens line) : afterSgr line = none := by
  unfold afterSgr
  split
  · rename_i ch next rest
    rw [if_neg]
    intro found
    obtain ⟨rfl, rfl, -⟩ := found
    exact closed ⟨rest, rfl⟩
  · rfl

theorem withoutSgr_behind (after : WideString) (absent : terminator ∉ params) :
    (withoutSgr after).length ≤ (withoutSgr (params ++ terminator :: after)).length := by
  induction params with
  | nil =>
    have closed : ¬ Opens (terminator :: after) := by
      rintro ⟨rest, same⟩
      exact absurd (List.cons.inj same).1 (by decide)
    rw [List.nil_append, withoutSgr_none (afterSgr_closed closed)]
    exact Nat.le_succ _
  | cons ch params ih =>
    rw [List.mem_cons, not_or] at absent
    have onward := ih absent.2
    cases found : afterSgr (ch :: params ++ terminator :: after) with
    | none =>
      rw [List.cons_append] at found ⊢
      rw [withoutSgr_none found, List.length_cons]
      omega
    | some behind =>
      have opens : Opens (ch :: params ++ terminator :: after) := by
        by_contra closed
        cases (afterSgr_closed closed).symm.trans found
      obtain ⟨rest, same⟩ := opens
      obtain ⟨rfl, tail⟩ := List.cons.inj same
      cases params with
      | nil => exact absurd (List.cons.inj tail).1 (by decide)
      | cons next params =>
        obtain ⟨rfl, -⟩ := List.cons.inj tail
        rw [List.mem_cons, not_or] at absent
        have complete : params.all isParameter = true := by
          by_contra incomplete
          cases (afterSgr_incomplete absent.2.2 incomplete).symm.trans found
        rw [List.cons_append, List.cons_append, withoutSgr_some (afterSgr_sequence complete)]

def shown (line : WideString) : WideString := (parseAnsiLine line).1.plainText

def overflows (line : WideString) : Bool := (parseAnsiLine line).2

def textOf (s : AnsiScan) : WideString := s.parsed.plainText ++ s.currentText

@[simp] theorem textOf_start : textOf {} = [] := rfl

@[simp] theorem flushText_textOf : textOf s.flushText = textOf s := by
  unfold flushText
  split_ifs with empty
  · rfl
  · simp [textOf]

@[simp] theorem flushText_plainText : s.flushText.parsed.plainText = textOf s := by
  unfold flushText
  split_ifs with empty
  · simp [textOf, empty]
  · rfl

@[simp] theorem flushText_overflowed : s.flushText.overflowed = s.overflowed := by
  unfold flushText
  split_ifs <;> rfl

@[simp] theorem keep_textOf : textOf (s.keep ch) = textOf s ++ [ch] := (List.append_assoc ..).symm

@[simp] theorem keep_overflowed : (s.keep ch).overflowed = s.overflowed := rfl

@[simp] theorem endCode_textOf : textOf (s.endCode params) = textOf s := rfl

@[simp] theorem endCode_overflowed :
    (s.endCode params).overflowed = (s.overflowed || (colorForAnsiCode params).2) := rfl

theorem scan_code_cutOff {code : WideString} (absent : terminator ∉ rest) :
    scan (some code) s rest = s.flushText := by
  induction rest generalizing code with
  | nil => rfl
  | cons ch rest ih =>
    rw [List.mem_cons, not_or] at absent
    rw [scan, if_neg (Ne.symm absent.1)]
    exact ih absent.2

theorem scan_code_ends {code : WideString} (absent : terminator ∉ params) :
    scan (some code) s (params ++ terminator :: after) = scan none (s.endCode (code ++ params)) after := by
  induction params generalizing code with
  | nil => rw [List.nil_append, scan, if_pos rfl, List.append_nil]
  | cons ch params ih =>
    rw [List.mem_cons, not_or] at absent
    rw [List.cons_append, scan, if_neg (Ne.symm absent.1), ih absent.2, List.append_assoc, List.singleton_append]

theorem scan_opens : scan none s (escape :: bracket :: rest) = scan (some []) s.flushText rest := by
  rw [scan, if_pos ⟨rfl, rfl⟩]

theorem scan_cutOff (absent : terminator ∉ rest) :
    scan none s (escape :: bracket :: rest) = s.flushText.flushText := by
  rw [scan_opens, scan_code_cutOff absent]

theorem scan_sequence (absent : terminator ∉ params) :
    scan none s (escape :: bracket :: (params ++ terminator :: after)) =
      scan none (s.flushText.endCode params) after := by
  rw [scan_opens, scan_code_ends absent, List.nil_append]

theorem scan_unit (closed : ¬ Opens (ch :: rest)) : scan none s (ch :: rest) = scan none (s.keep ch) rest := by
  cases rest with
  | nil => rfl
  | cons next rest =>
    rw [scan, if_neg]
    intro opens
    obtain ⟨rfl, rfl⟩ := opens
    exact closed ⟨rest, rfl⟩

theorem shown_eq (line : WideString) : shown line = (scan none {} line).parsed.plainText := rfl

theorem overflows_eq (line : WideString) : overflows line = (scan none {} line).overflowed := rfl

theorem scan_none (s : AnsiScan) (line : WideString) :
    (scan none s line).parsed.plainText = textOf s ++ shown line ∧
      (scan none s line).overflowed = (s.overflowed || overflows line) := by
  induction line using line_induction generalizing s with
  | nil => simp [shown_eq, overflows_eq, scan]
  | cutOff rest absent =>
    rw [shown_eq, overflows_eq, scan_cutOff absent, scan_cutOff absent]
    simp
  | sequence params after absent ih =>
    rw [shown_eq, overflows_eq, scan_sequence absent, scan_sequence absent, (ih _).1, (ih _).2, (ih _).1, (ih _).2]
    simp [Bool.or_assoc]
  | unit ch rest closed ih =>
    rw [shown_eq, overflows_eq, scan_unit closed, scan_unit closed, (ih _).1, (ih _).2, (ih _).1, (ih _).2]
    simp

theorem shown_cutOff (absent : terminator ∉ rest) : shown (escape :: bracket :: rest) = [] := by
  rw [shown_eq, scan_cutOff absent]
  simp

theorem shown_sequence (absent : terminator ∉ params) :
    shown (escape :: bracket :: (params ++ terminator :: after)) = shown after := by
  rw [shown_eq, scan_sequence absent, (scan_none _ after).1]
  simp

theorem overflows_sequence (absent : terminator ∉ params) :
    overflows (escape :: bracket :: (params ++ terminator :: after)) =
      ((colorForAnsiCode params).2 || overflows after) := by
  rw [overflows_eq, scan_sequence absent, (scan_none _ after).2]
  simp

theorem shown_unit (closed : ¬ Opens (ch :: rest)) : shown (ch :: rest) = ch :: shown rest := by
  rw [shown_eq, scan_unit closed, (scan_none _ rest).1]
  simp

theorem overflows_unit (closed : ¬ Opens (ch :: rest)) : overflows (ch :: rest) = overflows rest := by
  rw [overflows_eq, scan_unit closed, (scan_none _ rest).2]
  simp

theorem shown_le (line : WideString) : (shown line).length ≤ (withoutSgr line).length := by
  induction line using line_induction with
  | nil => exact Nat.zero_le _
  | cutOff rest absent =>
    rw [shown_cutOff absent]
    exact Nat.zero_le _
  | sequence params after absent ih =>
    rw [shown_sequence absent]
    have inner : terminator ∉ escape :: bracket :: params := by simp [absent]; decide
    exact ih.trans (withoutSgr_behind after inner)
  | unit ch rest closed ih =>
    rw [shown_unit closed, withoutSgr_none (afterSgr_closed closed)]
    exact Nat.succ_le_succ ih

def parameterNumber (part : WideString) : Nat := part.foldl (fun n ch => n * 10 + (ch.toNat - 0x30)) 0

/-- What stands behind `ESC [` goes on as a complete SGR sequence, with parameters in the range of `int`. -/
def CompleteSgr (rest : WideString) : Prop := ∃ params after, rest = params ++ terminator :: after ∧
  params.all isParameter = true ∧ ∀ part ∈ params.splitOn semicolon, parameterNumber part ≤ intMax

def OnlyColourCodes (line : WideString) : Prop := ∀ rest, escape :: bracket :: rest <:+ line → CompleteSgr rest

/-- The runs make up the plain text, which is the line without its colour codes, and no sum overflows. -/
structure LosesOnlyColours (line : WideString) : Prop where
  runs : (parseAnsiLine line).1.runs.flatMap Run.text = (parseAnsiLine line).1.plainText
  plain : (parseAnsiLine line).1.plainText = withoutSgr line
  exact : (parseAnsiLine line).2 = false

section Parameters

variable {p : Parameter} {part : WideString} {n : Nat}

theorem accumulate_exact (value : p.value = n) (bound : n * 10 + (ch.toNat - 0x30) ≤ intMax) :
    (p.accumulate ch).value = (n * 10 + (ch.toNat - 0x30) : Nat) ∧ (p.accumulate ch).overflowed = p.overflowed := by
  have sum : (n : Int) * 10 + (ch.toNat - 0x30 : Nat) = (n * 10 + (ch.toNat - 0x30) : Nat) := by omega
  unfold Parameter.accumulate
  simp only [value, sum]
  generalize n * 10 + (ch.toNat - 0x30) = next at bound
  unfold intMax at *
  constructor
  · rw [Int.bmod_eq_of_le (by omega) (by omega)]
  · have low : ¬ (next : Int) < -(2 ^ 31) := by omega
    have high : ¬ ((2 ^ 31 - 1 : Nat) : Int) < next := by omega
    rw [decide_eq_false low, decide_eq_false high, Bool.or_false, Bool.or_false]

theorem accumulate_overflows (value : p.value = n) (excess : intMax < n * 10 + (ch.toNat - 0x30)) :
    (p.accumulate ch).overflowed = true := by
  unfold Parameter.accumulate
  rw [value, Bool.or_eq_true, decide_eq_true_eq]
  right
  omega

theorem readParameter_overflowed (overflowed : p.overflowed = true) :
    (readParameter p part).overflowed = true := by
  induction part generalizing p with
  | nil => exact overflowed
  | cons ch part ih =>
    rw [readParameter]
    split_ifs
    · apply ih
      simp [Parameter.accumulate, overflowed]
    · exact overflowed

theorem foldl_number_le (n : Nat) (part : WideString) :
    n ≤ part.foldl (fun n ch => n * 10 + (ch.toNat - 0x30)) n := by
  induction part generalizing n with
  | nil => exact le_rfl
  | cons ch part ih =>
    have onward := ih (n * 10 + (ch.toNat - 0x30))
    rw [List.foldl_cons]
    omega

/-- A parameter of digits overflows just when its number is out of range. -/
theorem readParameter_iff (digits : part.all isWideDigit = true) (value : p.value = n) (clean : p.overflowed = false)
    (small : n ≤ intMax) : (readParameter p part).overflowed = false ↔
      part.foldl (fun n ch => n * 10 + (ch.toNat - 0x30)) n ≤ intMax := by
  induction part generalizing p n with
  | nil => exact iff_of_true clean small
  | cons ch part ih =>
    rw [List.all_cons, Bool.and_eq_true] at digits
    rw [readParameter, if_pos digits.1, List.foldl_cons]
    by_cases bound : n * 10 + (ch.toNat - 0x30) ≤ intMax
    · obtain ⟨next, kept⟩ := accumulate_exact value bound
      exact ih digits.2 next (kept.trans clean) bound
    · have least := foldl_number_le (n * 10 + (ch.toNat - 0x30)) part
      have overflowed : (readParameter (p.accumulate ch) part).overflowed = true :=
        readParameter_overflowed (accumulate_overflows value (not_le.mp bound))
      apply iff_of_false
      · simp [overflowed]
      · omega

theorem foldl_applyPart (parts : List WideString) (s : Attributes × Bool) : (parts.foldl applyPart s).2 = false ↔
    s.2 = false ∧ ∀ part ∈ parts, (applyPart ({}, false) part).2 = false := by
  induction parts generalizing s with
  | nil => simp
  | cons part parts ih =>
    have first : (applyPart s part).2 = (s.2 || (applyPart ({}, false) part).2) := by simp [applyPart]
    rw [List.foldl_cons, ih, first, Bool.or_eq_false_iff, List.forall_mem_cons, and_assoc]

theorem mem_splitOn {part : WideString} (piece : part ∈ params.splitOn semicolon) :
    ∀ c ∈ part, c ∈ params ∧ c ≠ semicolon := by
  induction params generalizing part with
  | nil =>
    rw [List.splitOn_nil, List.mem_singleton] at piece
    simp [piece]
  | cons ch params ih =>
    obtain ⟨first, others, split⟩ := List.exists_cons_of_ne_nil (List.splitOn_ne_nil semicolon params)
    rw [split] at ih
    rw [List.splitOn_cons_eq_if_modifyHead, split, List.modifyHead_cons] at piece
    intro c member
    split_ifs at piece with separates
    · rcases List.mem_cons.mp piece with rfl | later
      · cases member
      · have inside := ih later c member
        exact ⟨List.mem_cons_of_mem _ inside.1, inside.2⟩
    · rcases List.mem_cons.mp piece with rfl | later
      · rcases List.mem_cons.mp member with rfl | inFirst
        · exact ⟨List.mem_cons_self, by simpa using separates⟩
        · have inside := ih List.mem_cons_self c inFirst
          exact ⟨List.mem_cons_of_mem _ inside.1, inside.2⟩
      · have inside := ih (List.mem_cons_of_mem _ later) c member
        exact ⟨List.mem_cons_of_mem _ inside.1, inside.2⟩

theorem colorForAnsiCode_iff (complete : params.all isParameter = true) :
    (colorForAnsiCode params).2 = false ↔ ∀ part ∈ params.splitOn semicolon, parameterNumber part ≤ intMax := by
  have each : ∀ part ∈ params.splitOn semicolon,
      ((applyPart ({}, false) part).2 = false ↔ parameterNumber part ≤ intMax) := by
    intro part piece
    have digits : part.all isWideDigit = true := by
      rw [List.all_eq_true]
      intro c member
      obtain ⟨inside, plain⟩ := mem_splitOn piece c member
      simpa [isParameter, plain] using List.all_eq_true.mp complete c inside
    rw [applyPart, Bool.false_or]
    exact readParameter_iff digits rfl rfl (Nat.zero_le intMax)
  unfold colorForAnsiCode
  split_ifs with empty
  · simp [empty, parameterNumber]
  · rw [foldl_applyPart]
    simp only [true_and]
    exact forall₂_congr each

end Parameters

theorem split_unique {others behind : WideString} (first : terminator ∉ params) (second : terminator ∉ others)
    (same : params ++ terminator :: after = others ++ terminator :: behind) : params = others ∧ after = behind := by
  induction params generalizing others with
  | nil =>
    cases others with
    | nil => exact ⟨rfl, (List.cons.inj same).2⟩
    | cons ch others => exact absurd ((List.cons.inj same).1 ▸ List.mem_cons_self) second
  | cons ch params ih =>
    cases others with
    | nil => exact absurd ((List.cons.inj same).1 ▸ List.mem_cons_self) first
    | cons next others =>
      obtain ⟨rfl, rest⟩ := List.cons.inj same
      rw [List.mem_cons, not_or] at first second
      obtain ⟨rfl, rfl⟩ := ih first.2 second.2 rest
      exact ⟨rfl, rfl⟩

theorem params_plain (complete : params.all isParameter = true) : terminator ∉ params ∧ escape ∉ params := by
  constructor
  · intro member
    exact absurd (List.all_eq_true.mp complete _ member) (by decide)
  · intro member
    exact absurd (List.all_eq_true.mp complete _ member) (by decide)

theorem completeSgr_iff (absent : terminator ∉ params) : CompleteSgr (params ++ terminator :: after) ↔
    params.all isParameter = true ∧ ∀ part ∈ params.splitOn semicolon, parameterNumber part ≤ intMax := by
  constructor
  · rintro ⟨others, behind, same, complete, small⟩
    obtain ⟨rfl, rfl⟩ := split_unique absent (params_plain complete).1 same
    exact ⟨complete, small⟩
  · rintro ⟨complete, small⟩
    exact ⟨params, after, rfl, complete, small⟩

theorem suffix_behind {front : WideString} (plain : escape ∉ front) :
    escape :: bracket :: rest <:+ front ++ line ↔ escape :: bracket :: rest <:+ line := by
  induction front with
  | nil => rfl
  | cons ch front ih =>
    rw [List.mem_cons, not_or] at plain
    rw [List.cons_append, List.suffix_cons_iff, ih plain.2, or_iff_right]
    exact fun same => plain.1 (List.cons.inj same).1

theorem onlyColourCodes_sequence (complete : params.all isParameter = true) :
    OnlyColourCodes (escape :: bracket :: (params ++ terminator :: after)) ↔
      (∀ part ∈ params.splitOn semicolon, parameterNumber part ≤ intMax) ∧ OnlyColourCodes after := by
  obtain ⟨absent, plain⟩ := params_plain complete
  have front : escape ∉ bracket :: (params ++ [terminator]) := by simp [plain]; decide
  have tail : bracket :: (params ++ terminator :: after) = (bracket :: (params ++ [terminator])) ++ after := by simp
  unfold OnlyColourCodes
  constructor
  · intro every
    refine ⟨((completeSgr_iff absent).mp (every _ List.suffix_rfl)).2, fun rest behind => every rest ?_⟩
    rw [List.suffix_cons_iff, tail, suffix_behind front]
    exact .inr behind
  · rintro ⟨small, every⟩ rest behind
    rw [List.suffix_cons_iff, tail, suffix_behind front, ← tail] at behind
    rcases behind with same | later
    · obtain ⟨-, whole⟩ := List.cons.inj same
      rw [(List.cons.inj whole).2]
      exact (completeSgr_iff absent).mpr ⟨complete, small⟩
    · exact every rest later

theorem onlyColourCodes_unit (closed : ¬ Opens (ch :: rest)) : OnlyColourCodes (ch :: rest) ↔ OnlyColourCodes rest := by
  apply forall_congr'
  intro others
  rw [List.suffix_cons_iff, or_iff_right]
  exact fun same => closed ⟨others, same.symm⟩

/-- The text is the line without its colour codes, and no parameter overflows, when there is nothing else. -/
theorem shown_iff (line : WideString) :
    shown line = withoutSgr line ∧ overflows line = false ↔ OnlyColourCodes line := by
  induction line using line_induction with
  | nil => exact iff_of_true ⟨by rw [withoutSgr]; rfl, rfl⟩ fun rest ends => by simp at ends
  | cutOff rest absent =>
    apply iff_of_false
    · rw [shown_cutOff absent, withoutSgr_none (afterSgr_cutOff absent)]
      simp
    · intro every
      obtain ⟨params, after, rfl, -⟩ := every rest List.suffix_rfl
      simp at absent
  | sequence params after absent ih =>
    rw [shown_sequence absent, overflows_sequence absent, Bool.or_eq_false_iff]
    by_cases complete : params.all isParameter = true
    · rw [withoutSgr_some (afterSgr_sequence complete), onlyColourCodes_sequence complete,
        colorForAnsiCode_iff complete, ← ih]
      tauto
    · apply iff_of_false
      · -- The escape is left in the line, and no more is left behind the sequence than there is.
        intro both
        have lengths := congrArg List.length both.1
        have inner : terminator ∉ bracket :: params := by simp [absent]; decide
        have behind := (shown_le after).trans (withoutSgr_behind after inner)
        rw [withoutSgr_none (afterSgr_incomplete absent complete), List.length_cons] at lengths
        rw [List.cons_append] at behind
        omega
      · intro every
        exact complete ((completeSgr_iff absent).mp (every _ List.suffix_rfl)).1
  | unit ch rest closed ih =>
    rw [shown_unit closed, withoutSgr_none (afterSgr_closed closed), overflows_unit closed, List.cons.injEq,
      onlyColourCodes_unit closed, ← ih]
    simp

def RunsMatch (s : AnsiScan) : Prop := s.parsed.runs.flatMap Run.text = s.parsed.plainText

theorem RunsMatch.flushText (good : RunsMatch s) : RunsMatch s.flushText := by
  unfold AnsiScan.flushText
  split_ifs with empty
  · exact good
  · rw [RunsMatch, List.flatMap_append, good]
    simp

theorem RunsMatch.scan (good : RunsMatch s) (line : WideString) : RunsMatch (scan none s line) := by
  induction line using line_induction generalizing s with
  | nil =>
    rw [AnsiScan.scan]
    exact good.flushText
  | cutOff rest absent =>
    rw [scan_cutOff absent]
    exact good.flushText.flushText
  | sequence params after absent ih =>
    have coloured : RunsMatch (s.flushText.endCode params) := good.flushText
    rw [scan_sequence absent]
    exact ih coloured
  | unit ch rest closed ih =>
    have kept : RunsMatch (s.keep ch) := good
    rw [scan_unit closed]
    exact ih kept

theorem runs_match (line : WideString) :
    (parseAnsiLine line).1.runs.flatMap Run.text = (parseAnsiLine line).1.plainText :=
  RunsMatch.scan (s := {}) rfl line

theorem losesOnlyColours_iff (line : WideString) : LosesOnlyColours line ↔ OnlyColourCodes line := by
  rw [← shown_iff line]
  constructor
  · intro loses
    exact ⟨loses.plain, loses.exact⟩
  · rintro ⟨plain, exact⟩
    exact ⟨runs_match line, plain, exact⟩

section Buffer

variable {maxLines n : Nat} {lines added : List Line}

theorem popExcess_eq (maxLines : Nat) (lines : List Line) :
    popExcess maxLines lines = (lines.length - maxLines, lines.rtake maxLines) := by
  induction lines with
  | nil => simp [popExcess, List.rtake]
  | cons line rest ih =>
    rw [popExcess, List.rtake, List.length_cons]
    split_ifs with many
    · have more : rest.length + 1 - maxLines = rest.length - maxLines + 1 := by omega
      rw [ih, more, List.drop_succ_cons, List.rtake]
    · have none : rest.length + 1 - maxLines = 0 := by omega
      rw [none, List.drop_zero]

theorem rtake_append (n : Nat) (lines added : List Line) :
    (lines.rtake n ++ added).rtake n = (lines ++ added).rtake n := by
  unfold List.rtake
  have front : (lines.take (lines.length - n)).length = lines.length - n := List.length_take_of_le (Nat.sub_le ..)
  have whole : lines ++ added = lines.take (lines.length - n) ++ (lines.drop (lines.length - n) ++ added) := by
    rw [← List.append_assoc, List.take_append_drop]
  have cut : (lines ++ added).length - n =
      lines.length - n + ((lines.drop (lines.length - n) ++ added).length - n) := by
    simp only [List.length_append, List.length_drop]
    omega
  rw [cut, whole, ← List.drop_drop, List.drop_left' front]

theorem appendAnsiLogText_eq (b : TerminalLogBuffer) (text : WideString) (full : b.lines.length ≤ b.maxLines) :
    b.appendAnsiLogText text =
      ({ addedLines := addedLines text, removedLineCount := (b.lines ++ addedLines text).length - b.maxLines },
        { b with lines := (b.lines ++ addedLines text).rtake b.maxLines }) := by
  unfold appendAnsiLogText
  split_ifs with empty
  · have nothing : addedLines text = [] := by simp [addedLines, empty]
    have room : b.lines.length - b.maxLines = 0 := by omega
    simp [nothing, room, List.rtake]
  · rw [popExcess_eq]

/-- The buffer and the view hold the last lines of all. -/
structure KeepsLast (r : LogRun) (maxLines : Nat) (all : List Line) : Prop where
  limit : r.buffer.maxLines = maxLines
  kept : r.buffer.lines = all.rtake maxLines
  followed : r.view = r.buffer.lines

theorem KeepsLast.append {r : LogRun} {all : List Line} (keeps : KeepsLast r maxLines all) (text : WideString) :
    KeepsLast (r.append text) maxLines (all ++ addedLines text) := by
  obtain ⟨limit, kept, followed⟩ := keeps
  have full : r.buffer.lines.length ≤ r.buffer.maxLines := by
    rw [limit, kept, List.rtake, List.length_drop]
    omega
  rw [LogRun.append, appendAnsiLogText_eq r.buffer text full]
  refine ⟨limit, ?_, ?_⟩
  · dsimp only
    rw [limit, kept, rtake_append]
  · dsimp only
    rw [followed, List.rtake]

theorem logRun_keeps (maxLines : Nat) (texts : List WideString) :
    KeepsLast (logRun maxLines texts) maxLines (texts.flatMap addedLines) := by
  have run : ∀ (texts : List WideString) (r : LogRun) (all : List Line), KeepsLast r maxLines all →
      KeepsLast (texts.foldl LogRun.append r) maxLines (all ++ texts.flatMap addedLines) := by
    intro texts
    induction texts with
    | nil =>
      intro r all keeps
      simpa using keeps
    | cons text texts ih =>
      intro r all keeps
      rw [List.foldl_cons, List.flatMap_cons, ← List.append_assoc]
      exact ih _ _ (keeps.append text)
  exact run texts _ [] ⟨rfl, by simp [List.rtake], rfl⟩

end Buffer

/-- A line loses its colour codes and nothing else just when every `ESC [` in it begins one that can be read. The
    runs always make up the text that is shown, and buffer and view always hold the last of all lines. -/
theorem log_buffer_exact (line : WideString) (maxLines : Nat) (texts : List WideString) :
    (LosesOnlyColours line ↔ OnlyColourCodes line) ∧
    (parseAnsiLine line).1.runs.flatMap Run.text = (parseAnsiLine line).1.plainText ∧
    (logRun maxLines texts).buffer.lines = (texts.flatMap addedLines).rtake maxLines ∧
    (logRun maxLines texts).view = (logRun maxLines texts).buffer.lines :=
  ⟨losesOnlyColours_iff line, runs_match line, (logRun_keeps maxLines texts).kept,
    (logRun_keeps maxLines texts).followed⟩

def eraseLine : WideString := [escape, bracket, 0x4B, 0x68, 0x69]

def longParameter : WideString := escape :: bracket :: (List.replicate 10 0x39 ++ [terminator])

theorem escapes_lose_text : ¬ ((∀ line, LosesOnlyColours line) ∧
    ∀ maxLines texts, (logRun maxLines texts).buffer.lines = (texts.flatMap addedLines).rtake maxLines ∧
      (logRun maxLines texts).view = (logRun maxLines texts).buffer.lines) ∧
    ¬ LosesOnlyColours eraseLine ∧ ¬ LosesOnlyColours longParameter := by
  have erased : ¬ LosesOnlyColours eraseLine := by
    intro loses
    obtain ⟨params, after, same, -⟩ := (losesOnlyColours_iff _).mp loses _ List.suffix_rfl
    have ends : terminator ∈ ([0x4B, 0x68, 0x69] : WideString) := by simp [same]
    exact absurd ends (by decide)
  have overflowed : ¬ LosesOnlyColours longParameter := by
    intro loses
    exact absurd loses.exact (by decide)
  exact ⟨fun always => erased (always.1 _), erased, overflowed⟩

end ClippProof.Logging
