import Mathlib.Data.List.Lex
import Clipp.Foundation.FixedWidth
import Clipp.Foundation.KeyedMap
import Clipp.Foundation.Lines
import Clipp.Foundation.Text
import Clipp.Settings.NetworkKey

open Foundation

namespace ClippModel.Settings.Linux

/-- What stands before the first `=` of a line that begins with it is this and nothing else. -/
def PlainName (name : Bytes) : Prop := 0x3D ∉ name ∧ 0x0A ∉ name

instance (name : Bytes) : Decidable (PlainName name) := inferInstanceAs (Decidable (_ ∧ _))

abbrev ValueName : Type := { name : Bytes // PlainName name }

/-- Every name that the program stores a value under. -/
def valueNames : List Bytes :=
  [ascii "ListenerIp", ascii "TcpPort", ascii "NetworkName", ascii "ClipboardHistoryMemoryLimitBytes",
   ascii "ClipboardHistoryMaxAgeSeconds", ascii "ClipboardHistoryMaxItems", ascii "ClipboardSyncMaxItems",
   ascii "HonorExternalPrivacyMarkers", ascii "MaskShortTextPreviews", ascii "AnimateFlowFeedback",
   ascii "PopupHintShownCount", ascii "PopupTeachBannerDismissed", ascii "PopupHotkeyPrimary",
   ascii "PopupHotkeySecondary", ascii "OriginSequenceFloor", ascii "RegisterTtlSeconds", ascii "RegisterMaxCount",
   ascii "RegisterHlcFloorMs", ascii "NetworkKey", ascii "EncryptedNetworkKey", ascii "HostID"]

example : ∀ name ∈ valueNames, PlainName name := by decide +kernel

abbrev SettingsValues : Type := KeyedMap (Prod.fst : Bytes × Bytes → Bytes)

def chomped (line : Bytes) : Bytes := if line.getLast? = some 0x0D then line.dropLast else line

def loadLine (values : SettingsValues) (line : Bytes) : SettingsValues :=
  let line := chomped line
  if line = [] then values
  else if line.contains 0x3D = false then values
  else values.put (upTo 0x3D line, past 0x3D line)

/-- The file as its reader opens it: one that is missing or cannot be opened has no values. -/
def LoadAll (file : Option Bytes) : SettingsValues :=
  match file with
  | none => .empty
  | some content => (lines 0x0A content).foldl loadLine .empty

def serialized (values : SettingsValues) : Bytes :=
  values.entries.flatMap fun entry => entry.1 ++ [0x3D] ++ entry.2 ++ [0x0A]

inductive WriteResult where
  | interrupted
  | failed
  | written (count : Nat)

/-- The loop that writes the temporary file: what the file holds where it was written to the end. -/
def writeContent (content : Bytes) : List WriteResult → Nat → Option Bytes
  | [], offset => if offset < content.length then none else some (content.take offset)
  | result :: results, offset =>
    if offset < content.length then
      match result with
      | .interrupted => writeContent content results offset
      | .failed => none
      | .written count => writeContent content results (offset + count)
    else some (content.take offset)

structure StoreOutcome where
  configDir : Bool
  opened : Bool
  writes : List WriteResult
  renamed : Bool

def StoreAll (outcome : StoreOutcome) (file : Option Bytes) (values : SettingsValues) : Bool × Option Bytes :=
  if outcome.configDir = false then (false, file)
  else if outcome.opened = false then (false, file)
  else match writeContent (serialized values) outcome.writes 0 with
    | none => (false, file)
    | some temporary => if outcome.renamed then (true, some temporary) else (false, file)

def opened (opens : Bool) (file : Option Bytes) : Option Bytes := if opens then file else none

def ReadStringValue (file : Option Bytes) (valueName : Bytes) : Option Bytes :=
  ((LoadAll file).find valueName).map Prod.snd

def WriteStringValue (opens : Bool) (outcome : StoreOutcome) (file : Option Bytes) (valueName : ValueName)
    (value : Bytes) : Bool × Option Bytes :=
  StoreAll outcome file ((LoadAll (opened opens file)).put (valueName.val, value))

/-- What `strtol` and `strtoull` take for a number: spaces, a sign and digits up to the end of the text. -/
def scanNumber (text : Bytes) : Option (Bool × Nat) :=
  let signed := (upTo 0 text).dropWhile isSpace
  let negative := signed.head? = some 0x2D
  let unsigned := if negative ∨ signed.head? = some 0x2B then signed.drop 1 else signed
  if unsigned.takeWhile isDigit = [] ∨ unsigned.dropWhile isDigit ≠ [] then none
  else some (negative, digitsValue (unsigned.takeWhile isDigit))

/-- A number outside of a `long` is an error, one outside of an `int` is wrapped. -/
def parsedInt (text : Bytes) : Option Int32 :=
  match scanNumber text with
  | none => none
  | some (negative, value) =>
    let parsed : Int := if negative then -value else value
    if parsed < -2 ^ 63 ∨ 2 ^ 63 ≤ parsed then none else some (Int32.ofInt parsed)

def parsedUint64 (text : Bytes) : Option UInt64 :=
  match scanNumber text with
  | none => none
  | some (negative, value) =>
    if value ≥ 2 ^ 64 then none else some (if negative then 0 - UInt64.ofNat value else UInt64.ofNat value)

def ReadUint32Value (file : Option Bytes) (valueName : Bytes) : Option Int32 :=
  (ReadStringValue file valueName).bind parsedInt

def ReadUint64Value (file : Option Bytes) (valueName : Bytes) : Option UInt64 :=
  (ReadStringValue file valueName).bind parsedUint64

def intText (value : Int32) : Bytes :=
  if value.toInt < 0 then 0x2D :: decimal value.toInt.natAbs else decimal value.toInt.natAbs

def WriteUint32Value (opens : Bool) (outcome : StoreOutcome) (file : Option Bytes) (valueName : ValueName)
    (value : Int32) : Bool × Option Bytes :=
  WriteStringValue opens outcome file valueName (intText value)

def WriteUint64Value (opens : Bool) (outcome : StoreOutcome) (file : Option Bytes) (valueName : ValueName)
    (value : UInt64) : Bool × Option Bytes :=
  WriteStringValue opens outcome file valueName (decimal value.toNat)

/-- The two functions of the cryptographic library that the file's binary values go through. -/
structure Base64 where
  bin2base64 : Bytes → Bytes
  base642bin : Bytes → Option Bytes

def Base64.encode (base64 : Base64) (data : Bytes) : Bytes := if data = [] then [] else base64.bin2base64 data

def WriteBinaryValue (base64 : Base64) (opens : Bool) (outcome : StoreOutcome) (file : Option Bytes)
    (valueName : ValueName) (data : Bytes) : Bool × Option Bytes :=
  WriteStringValue opens outcome file valueName (base64.encode data)

/-- An empty text is a value that is present and empty. -/
def ReadBinaryValue (base64 : Base64) (file : Option Bytes) (valueName : Bytes) : Option Bytes :=
  (ReadStringValue file valueName).bind fun text => if text = [] then some [] else base64.base642bin text

end ClippModel.Settings.Linux

namespace ClippModel.Settings.Linux

def keyName : NetworkKeyName → ValueName
  | .networkKey => ⟨ascii "NetworkKey", by decide +kernel⟩
  | .legacyEncryptedNetworkKey => ⟨ascii "EncryptedNetworkKey", by decide +kernel⟩

/-- The file as the store that keeps the network key. -/
def binaryValues (base64 : Base64) (file : Option Bytes) : BinaryValues :=
  fun valueName => ReadBinaryValue base64 file (keyName valueName).val

def OneLine (value : Bytes) : Prop := 0x0A ∉ value ∧ value.getLast? ≠ some 0x0D

instance (value : Bytes) : Decidable (OneLine value) := inferInstanceAs (Decidable (_ ∧ _))

def KeepsOthers (before after : Option Bytes) (valueName : Bytes) : Prop :=
  ∀ other, other ≠ valueName → ReadStringValue after other = ReadStringValue before other

/-- The other values that a write loads are those read before, and none of them ends in a carriage return. -/
def LoadsOthers (before seen : Option Bytes) (valueName : Bytes) : Prop :=
  ∀ other, other ≠ valueName → ReadStringValue seen other = ReadStringValue before other ∧
    ∀ kept, ReadStringValue seen other = some kept → kept.getLast? ≠ some 0x0D

/-- What the library gives for some data is text of its alphabet, and gives the data back. -/
structure Base64.Transcribes (base64 : Base64) (data : Bytes) : Prop where
  nonempty : base64.bin2base64 data ≠ []
  plain : ∀ b ∈ base64.bin2base64 data, b ≠ 0x0A ∧ b ≠ 0x0D
  back : base64.base642bin (base64.bin2base64 data) = some data

end ClippModel.Settings.Linux

namespace ClippProof.Settings

open ClippModel.Settings (NetworkKeyName)
open ClippModel.Settings.Linux

variable {file before seen after : Option Bytes} {valueName : ValueName} {value line content : Bytes} {opens : Bool}
  {outcome : StoreOutcome} {values : SettingsValues} {entry : Bytes × Bytes}

theorem chomped_eq_iff : chomped value = value ↔ value.getLast? ≠ some 0x0D := by
  unfold chomped
  split_ifs with ends
  · apply iff_of_false
    · intro same
      have width := congrArg List.length same
      have some_left : value ≠ [] := by
        rintro rfl
        cases ends
      have positive := List.length_pos_iff.mpr some_left
      rw [List.length_dropLast] at width
      omega
    · exact not_not_intro ends
  · exact iff_of_true rfl ends

theorem chomped_mem {b : UInt8} (member : b ∈ chomped line) : b ∈ line := by
  unfold chomped at member
  split_ifs at member
  · exact List.mem_of_mem_dropLast member
  · exact member

theorem chomped_line (name value : Bytes) : chomped (name ++ 0x3D :: value) = name ++ 0x3D :: chomped value := by
  have last : (name ++ 0x3D :: value).getLast? = some (value.getLast?.getD 0x3D) := by
    rw [List.getLast?_append_cons, List.getLast?_cons]
  -- Without a value the line ends in its `=`.
  cases value with
  | nil =>
    rw [chomped, if_neg (by rw [last]; decide)]
    rfl
  | cons first rest =>
    have ends : (name ++ 0x3D :: first :: rest).getLast? = (first :: rest).getLast? := by
      rw [last, List.getLast?_cons, Option.getD_some]
    unfold chomped
    rw [ends]
    split_ifs
    · rw [List.dropLast_append_cons, List.dropLast_cons_cons]
    · rfl

theorem loadLine_entry (values : SettingsValues) (plain : PlainName entry.1) :
    loadLine values (entry.1 ++ 0x3D :: entry.2) = values.put (entry.1, chomped entry.2) := by
  have given : entry.1 ++ 0x3D :: chomped entry.2 ≠ [] := by simp
  have separated : ¬ (entry.1 ++ 0x3D :: chomped entry.2).contains 0x3D = false := by simp
  simp only [loadLine, chomped_line, if_neg given, if_neg separated, upTo_split plain.1, past_split plain.1]

structure LineEntry (entry : Bytes × Bytes) : Prop where
  name : PlainName entry.1
  value : 0x0A ∉ entry.2

theorem past_mem {c b : UInt8} {text : Bytes} (member : b ∈ past c text) : b ∈ text :=
  (List.dropWhile_sublist _).subset (List.mem_of_mem_drop member)

theorem loadLine_entries (plain : 0x0A ∉ line) (each : ∀ e ∈ values.entries, LineEntry e) :
    ∀ e ∈ (loadLine values line).entries, LineEntry e := by
  simp only [loadLine]
  by_cases empty : chomped line = []
  · rw [if_pos empty]
    exact each
  rw [if_neg empty]
  by_cases malformed : (chomped line).contains 0x3D = false
  · rw [if_pos malformed]
    exact each
  · rw [if_neg malformed]
    intro e member
    rcases KeyedMap.mem_place member with rfl | old
    · constructor
      · constructor
        · intro separator
          exact (upTo_mem separator).2 rfl
        · intro newline
          exact plain (chomped_mem (upTo_mem newline).1)
      · intro newline
        exact plain (chomped_mem (past_mem newline))
    · exact each e old

theorem loadAll_entries (file : Option Bytes) : ∀ e ∈ (LoadAll file).entries, LineEntry e := by
  cases file with
  | none => exact fun _ member => absurd member List.not_mem_nil
  | some content =>
    -- Induction on the lines, for any values loaded before.
    have kept : ∀ (ls : List Bytes) (values : SettingsValues), (∀ line ∈ ls, 0x0A ∉ line) →
        (∀ e ∈ values.entries, LineEntry e) → ∀ e ∈ (ls.foldl loadLine values).entries, LineEntry e := by
      intro ls
      induction ls with
      | nil => exact fun _ _ each => each
      | cons line ls ih =>
        intro values plain each
        rw [List.forall_mem_cons] at plain
        exact ih _ plain.2 (loadLine_entries plain.1 each)
    exact kept _ _ (lines_plain 0x0A content) (fun _ member => absurd member List.not_mem_nil)

theorem read_one_line {name : Bytes} (read : ReadStringValue file name = some value) : 0x0A ∉ value := by
  obtain ⟨e, found, rfl⟩ := Option.map_eq_some_iff.mp read
  exact (loadAll_entries file e (KeyedMap.find_eq_some.mp found).1).value

def chompedEntry (entry : Bytes × Bytes) : Bytes × Bytes := (entry.1, chomped entry.2)

theorem load_serialized (each : ∀ e ∈ values.entries, LineEntry e) (name : Bytes) :
    ReadStringValue (some (serialized values)) name = ((values.find name).map Prod.snd).map chomped := by
  have rows : lines 0x0A (serialized values) = values.entries.map fun e => e.1 ++ 0x3D :: e.2 := by
    have text : serialized values =
        (values.entries.map fun e => e.1 ++ 0x3D :: e.2).flatMap fun row => row ++ [0x0A] := by
      rw [serialized, List.flatMap_map]
      simp only [List.append_assoc, List.cons_append, List.nil_append]
    rw [text]
    apply lines_terminated
    intro row member
    obtain ⟨e, within, rfl⟩ := List.mem_map.mp member
    have plain := each e within
    simp [plain.name.2, plain.value]
  have loaded : LoadAll (some (serialized values)) = (values.entries.map chompedEntry).foldl KeyedMap.put .empty := by
    rw [LoadAll, rows, List.foldl_map, List.foldl_map]
    apply List.foldl_ext
    intro loaded e within
    exact loadLine_entry loaded (each e within).name
  have distinct : ((values.entries.map chompedEntry).map Prod.fst).Nodup := by
    rw [List.map_map]
    exact values.keys_nodup
  rw [ReadStringValue, loaded, KeyedMap.find_foldl_put _ distinct, List.find?_map]
  change ((Option.map chompedEntry (values.find name)).or none).map Prod.snd = _
  rw [Option.or_none, Option.map_map, Option.map_map]
  rfl

theorem writeContent_whole {results : List WriteResult} {offset : Nat}
    (ended : writeContent content results offset = some value) : value = content := by
  induction results generalizing offset with
  | nil =>
    rw [writeContent] at ended
    split_ifs at ended with more
    rw [← Option.some.inj ended, List.take_of_length_le (not_lt.mp more)]
  | cons result results ih =>
    by_cases more : offset < content.length
    · cases result with
      | interrupted =>
        rw [writeContent, if_pos more] at ended
        exact ih ended
      | failed =>
        rw [writeContent, if_pos more] at ended
        cases ended
      | written count =>
        rw [writeContent, if_pos more] at ended
        exact ih ended
    · rw [writeContent.eq_def] at ended
      simp only [if_neg more, Option.some.injEq] at ended
      rw [← ended, List.take_of_length_le (not_lt.mp more)]

theorem stored_whole (stored : StoreAll outcome file values = (true, after)) : after = some (serialized values) := by
  rw [StoreAll] at stored
  by_cases unmade : outcome.configDir = false
  · rw [if_pos unmade] at stored
    cases (Prod.mk.inj stored).1
  by_cases unopened : outcome.opened = false
  · rw [if_neg unmade, if_pos unopened] at stored
    cases (Prod.mk.inj stored).1
  rw [if_neg unmade, if_neg unopened] at stored
  cases ended : writeContent (serialized values) outcome.writes 0 with
  | none =>
    rw [ended] at stored
    cases (Prod.mk.inj stored).1
  | some temporary =>
    rw [ended] at stored
    cases renamed : outcome.renamed with
    | false =>
      rw [renamed] at stored
      cases (Prod.mk.inj stored).1
    | true =>
      rw [renamed] at stored
      rw [← writeContent_whole ended]
      exact (Prod.mk.inj stored).2.symm

theorem written_reads (plain : 0x0A ∉ value)
    (written : WriteStringValue opens outcome file valueName value = (true, after)) (name : Bytes) :
    ReadStringValue after name =
      (if valueName.val = name then some value else ReadStringValue (opened opens file) name).map chomped := by
  have each : ∀ e ∈ ((LoadAll (opened opens file)).put (valueName.val, value)).entries, LineEntry e := by
    intro e member
    rcases KeyedMap.mem_place member with rfl | old
    · exact ⟨valueName.property, plain⟩
    · exact loadAll_entries _ e old
  rw [stored_whole written, load_serialized each, KeyedMap.find_put]
  split_ifs <;> rfl

theorem written_value (plain : 0x0A ∉ value)
    (written : WriteStringValue opens outcome file valueName value = (true, after)) :
    ReadStringValue after valueName.val = some (chomped value) := by
  rw [written_reads plain written, if_pos rfl, Option.map_some]

theorem written_other (plain : 0x0A ∉ value)
    (written : WriteStringValue opens outcome file valueName value = (true, after)) {other : Bytes}
    (apart : other ≠ valueName.val) :
    ReadStringValue after other = (ReadStringValue (opened opens file) other).map chomped := by
  rw [written_reads plain written, if_neg apart.symm]

/-- A load that sees the whole file or nothing: the rest is as it was where it saw the rest, unchomped. -/
theorem others_iff (readOpens : Bool) (plain : 0x0A ∉ value)
    (written : WriteStringValue opens outcome file valueName value = (true, after)) :
    KeepsOthers (opened readOpens file) after valueName.val ↔
      LoadsOthers (opened readOpens file) (opened opens file) valueName.val := by
  have unread : ∀ other, ReadStringValue none other = none := fun _ => rfl
  constructor
  · intro keeps other apart
    have kept := (written_other plain written apart).symm.trans (keeps other apart)
    have same : ReadStringValue (opened opens file) other = ReadStringValue (opened readOpens file) other := by
      cases opens with
      | false =>
        rw [opened, if_neg Bool.false_ne_true, unread] at kept ⊢
        exact kept
      | true =>
        cases readOpens with
        | true => rfl
        | false =>
          rw [opened, if_pos rfl, opened, if_neg Bool.false_ne_true, unread] at kept ⊢
          exact Option.map_eq_none_iff.mp kept
    constructor
    · exact same
    · intro value read
      rw [← same, read, Option.map_some, Option.some.injEq] at kept
      exact chomped_eq_iff.mp kept
  · intro loads other apart
    obtain ⟨same, unended⟩ := loads other apart
    rw [written_other plain written apart]
    cases read : ReadStringValue (opened opens file) other with
    | none => rw [← same, read, Option.map_none]
    | some kept => rw [← same, read, Option.map_some, chomped_eq_iff.mpr (unended kept read)]

theorem string_written_iff (readOpens : Bool)
    (written : WriteStringValue opens outcome file valueName value = (true, after)) :
    (ReadStringValue after valueName.val = some value ∧ KeepsOthers (opened readOpens file) after valueName.val) ↔
      OneLine value ∧ LoadsOthers (opened readOpens file) (opened opens file) valueName.val := by
  by_cases plain : 0x0A ∈ value
  · apply iff_of_false
    · intro both
      exact read_one_line both.1 plain
    · intro both
      exact both.1.1 plain
  · rw [others_iff readOpens plain written, written_value plain written, Option.some.injEq, chomped_eq_iff]
    simp only [OneLine, plain, not_false_eq_true, true_and]

theorem typed_written_iff {α : Type} (readOpens : Bool) (parsed : Bytes → Option α) {a : α} (single : OneLine value)
    (parses : parsed value = some a)
    (written : WriteStringValue opens outcome file valueName value = (true, after)) :
    ((ReadStringValue after valueName.val).bind parsed = some a ∧
        KeepsOthers (opened readOpens file) after valueName.val) ↔
      LoadsOthers (opened readOpens file) (opened opens file) valueName.val := by
  have back : ReadStringValue after valueName.val = some value := by
    rw [written_value single.1 written, chomped_eq_iff.mpr single.2]
  rw [back, Option.bind_some, parses, others_iff readOpens single.1 written]
  simp only [true_and]

theorem oneLine_of_bytes (each : ∀ b ∈ value, b ≠ 0x0A ∧ b ≠ 0x0D) : OneLine value := by
  constructor
  · intro newline
    exact (each _ newline).1 rfl
  · intro ends
    exact (each _ (List.mem_of_getLast? ends)).2 rfl

theorem digits_scanned {digits : Bytes} (each : ∀ b ∈ digits, isDigit b = true) :
    digits.takeWhile isDigit = digits ∧ digits.dropWhile isDigit = [] ∧ upTo 0 digits = digits := by
  have whole : digits.takeWhile isDigit = digits := List.takeWhile_eq_self_iff.mpr each
  constructor
  · exact whole
  constructor
  · exact List.dropWhile_eq_nil_iff.mpr each
  · apply List.takeWhile_eq_self_iff.mpr
    intro b member
    rw [decide_eq_true_eq]
    exact isDigit_ne (each b member) rfl

theorem scan_digits {digits : Bytes} (given : digits ≠ []) (each : ∀ b ∈ digits, isDigit b = true) :
    scanNumber digits = some (false, digitsValue digits) := by
  obtain ⟨whole, nothing, ends⟩ := digits_scanned each
  have unspaced : digits.dropWhile isSpace = digits ∧ digits.head? ≠ some 0x2D ∧ digits.head? ≠ some 0x2B := by
    obtain ⟨first, others, rfl⟩ := List.exists_cons_of_ne_nil given
    have digit := each first List.mem_cons_self
    have head : ∀ {c : UInt8}, isDigit c = false → (first :: others).head? ≠ some c := by
      intro c other same
      exact isDigit_ne digit other (Option.some.inj same)
    constructor
    · exact List.dropWhile_cons_of_neg (by rw [isDigit_notSpace digit]; decide)
    · exact ⟨head rfl, head rfl⟩
  obtain ⟨unspaced, minus, plus⟩ := unspaced
  simp only [scanNumber, ends, unspaced, minus, plus, or_self, if_false, whole, nothing, given, ne_eq, not_true_eq_false,
    decide_false]

theorem scan_negative {digits : Bytes} (given : digits ≠ []) (each : ∀ b ∈ digits, isDigit b = true) :
    scanNumber (0x2D :: digits) = some (true, digitsValue digits) := by
  obtain ⟨whole, nothing, ends⟩ := digits_scanned each
  have front : upTo 0 (0x2D :: digits) = 0x2D :: digits := by
    rw [upTo, List.takeWhile_cons_of_pos (by decide)]
    exact congrArg (List.cons 0x2D) ends
  have unspaced : (0x2D :: digits).dropWhile isSpace = 0x2D :: digits :=
    List.dropWhile_cons_of_neg (by decide)
  simp only [scanNumber, front, unspaced, List.head?_cons, true_or, if_true, List.drop_succ_cons, List.drop_zero, whole,
    nothing, given, ne_eq, not_true_eq_false, or_self, if_false, decide_true]

theorem decimal_plain (n : Nat) : ∀ b ∈ decimal n, b ≠ 0x0A ∧ b ≠ 0x0D :=
  fun b member => ⟨isDigit_ne (decimal_digits n b member) rfl, isDigit_ne (decimal_digits n b member) rfl⟩

theorem intText_plain (value : Int32) : ∀ b ∈ intText value, b ≠ 0x0A ∧ b ≠ 0x0D := by
  unfold intText
  split_ifs
  · exact List.forall_mem_cons.mpr ⟨by decide, decimal_plain _⟩
  · exact decimal_plain _

theorem parsedInt_intText (value : Int32) : parsedInt (intText value) = some value := by
  have low := value.le_toInt
  have high := value.toInt_lt
  unfold intText
  split_ifs with negative
  · have number : -((value.toInt.natAbs : Nat) : Int) = value.toInt := by omega
    have inside : ¬ (value.toInt < -2 ^ 63 ∨ 2 ^ 63 ≤ value.toInt) := by omega
    rw [parsedInt, scan_negative (decimal_nonempty _) (decimal_digits _), digitsValue_decimal]
    simp only [if_true, number, if_neg inside, Int32.ofInt_toInt]
  · have number : ((value.toInt.natAbs : Nat) : Int) = value.toInt := by omega
    have inside : ¬ (value.toInt < -2 ^ 63 ∨ 2 ^ 63 ≤ value.toInt) := by omega
    rw [parsedInt, scan_digits (decimal_nonempty _) (decimal_digits _), digitsValue_decimal]
    simp only [Bool.false_eq_true, if_false, number, if_neg inside, Int32.ofInt_toInt]

theorem parsedUint64_decimal (value : UInt64) : parsedUint64 (decimal value.toNat) = some value := by
  have small : ¬ value.toNat ≥ 2 ^ 64 := not_le.mpr value.toNat_lt
  rw [parsedUint64, scan_digits (decimal_nonempty _) (decimal_digits _), digitsValue_decimal]
  simp only [Bool.false_eq_true, if_false, if_neg small, UInt64.ofNat_toNat]

theorem encode_plain {base64 : Base64} {data : Bytes} (transcribes : data ≠ [] → base64.Transcribes data) :
    ∀ b ∈ base64.encode data, b ≠ 0x0A ∧ b ≠ 0x0D := by
  unfold Base64.encode
  split_ifs with empty
  · exact fun _ member => absurd member List.not_mem_nil
  · exact (transcribes empty).plain

theorem decode_encode {base64 : Base64} {data : Bytes} (transcribes : data ≠ [] → base64.Transcribes data) :
    (if base64.encode data = [] then some [] else base64.base642bin (base64.encode data)) = some data := by
  by_cases empty : data = []
  · rw [Base64.encode, if_pos empty, if_pos rfl, empty]
  · rw [Base64.encode, if_neg empty, if_neg (transcribes empty).nonempty]
    exact (transcribes empty).back

/-- A file whose other values survive the load is a store of network keys that reads an empty value as present. -/
theorem file_is_store {base64 : Base64} {data : Bytes} {name : NetworkKeyName}
    (transcribes : data ≠ [] → base64.Transcribes data) (loads : LoadsOthers file (opened opens file) (keyName name).val)
    (written : WriteBinaryValue base64 opens outcome file (keyName name) data = (true, after)) :
    (true, binaryValues base64 after) =
      ClippModel.Settings.WriteBinaryValue true (binaryValues base64 file) name data := by
  have single := oneLine_of_bytes (encode_plain transcribes)
  obtain ⟨back, keeps⟩ := (typed_written_iff true (fun text => if text = [] then some [] else base64.base642bin text)
    single (decode_encode transcribes) written).mpr loads
  rw [ClippModel.Settings.WriteBinaryValue, if_pos rfl, Prod.mk.injEq]
  constructor
  · rfl
  · funext other
    by_cases same : other = name
    · rw [same, Function.update_self]
      exact back
    · have apart : (keyName other).val ≠ (keyName name).val := by
        cases other <;> cases name
        · exact absurd rfl same
        · decide +kernel
        · decide +kernel
        · exact absurd rfl same
      rw [Function.update_of_ne same]
      exact congrArg (fun text => Option.bind text _) (keeps (keyName other).val apart)

/-- A write that worked changes exactly one name if and only if its value is one line with no carriage return behind it
and the rest is loaded as it was read; numbers and binary values are such lines. -/
theorem settings_write_changes_one (file after : Option Bytes) (readOpens opens : Bool) (outcome : StoreOutcome)
    (valueName : ValueName) :
    (∀ value, WriteStringValue opens outcome file valueName value = (true, after) →
      ((ReadStringValue after valueName.val = some value ∧ KeepsOthers (opened readOpens file) after valueName.val) ↔
        OneLine value ∧ LoadsOthers (opened readOpens file) (opened opens file) valueName.val)) ∧
    (∀ value, WriteUint32Value opens outcome file valueName value = (true, after) →
      ((ReadUint32Value after valueName.val = some value ∧ KeepsOthers (opened readOpens file) after valueName.val) ↔
        LoadsOthers (opened readOpens file) (opened opens file) valueName.val)) ∧
    (∀ value, WriteUint64Value opens outcome file valueName value = (true, after) →
      ((ReadUint64Value after valueName.val = some value ∧ KeepsOthers (opened readOpens file) after valueName.val) ↔
        LoadsOthers (opened readOpens file) (opened opens file) valueName.val)) ∧
    ∀ base64 data, (data ≠ [] → Base64.Transcribes base64 data) →
      WriteBinaryValue base64 opens outcome file valueName data = (true, after) →
      ((ReadBinaryValue base64 after valueName.val = some data ∧
          KeepsOthers (opened readOpens file) after valueName.val) ↔
        LoadsOthers (opened readOpens file) (opened opens file) valueName.val) := by
  constructor
  · intro value written
    exact string_written_iff readOpens written
  constructor
  · intro value written
    exact typed_written_iff readOpens _ (oneLine_of_bytes (intText_plain value)) (parsedInt_intText value) written
  constructor
  · intro value written
    exact typed_written_iff readOpens _ (oneLine_of_bytes (decimal_plain _)) (parsedUint64_decimal value) written
  · intro base64 data transcribes written
    exact typed_written_iff readOpens _ (oneLine_of_bytes (encode_plain transcribes)) (decode_encode transcribes) written

def exampleOutcome : StoreOutcome where
  configDir := true
  opened := true
  writes := [.written 2, .interrupted, .written 40]
  renamed := true

def exampleName : ValueName := ⟨ascii "NetworkKey", by decide +kernel⟩

def exampleBase64 : Base64 where
  bin2base64 _ := ascii "AQ=="
  base642bin text := if text = ascii "AQ==" then some [1] else none

theorem file_is_store_first :
    (true, binaryValues exampleBase64 (some (ascii "NetworkKey=AQ==\n"))) =
      ClippModel.Settings.WriteBinaryValue true (binaryValues exampleBase64 none) .networkKey [1] := by
  have written : WriteBinaryValue exampleBase64 true exampleOutcome none (keyName .networkKey) [1] =
      (true, some (ascii "NetworkKey=AQ==\n")) := by decide +kernel
  have loads : LoadsOthers none (opened true none) (keyName .networkKey).val := by
    intro other _
    refine ⟨rfl, fun kept found => ?_⟩
    cases found
  exact file_is_store (fun _ => ⟨by decide +kernel, by decide +kernel, by decide +kernel⟩) loads written

/-- A key that is stored in a first settings file. -/
theorem settings_write_changes_one_first :
    (ReadStringValue (some (ascii "NetworkKey=a\n")) (ascii "NetworkKey") = some (ascii "a") ∧
        KeepsOthers none (some (ascii "NetworkKey=a\n")) (ascii "NetworkKey") ↔
      OneLine (ascii "a") ∧ LoadsOthers none none (ascii "NetworkKey")) ∧
    (ReadBinaryValue exampleBase64 (some (ascii "NetworkKey=AQ==\n")) (ascii "NetworkKey") = some [1] ∧
        KeepsOthers none (some (ascii "NetworkKey=AQ==\n")) (ascii "NetworkKey") ↔
      LoadsOthers none none (ascii "NetworkKey")) :=
  ⟨(settings_write_changes_one none (some (ascii "NetworkKey=a\n")) true true exampleOutcome exampleName).1
      (ascii "a") (by decide +kernel),
    (settings_write_changes_one none (some (ascii "NetworkKey=AQ==\n")) true true exampleOutcome exampleName).2.2.2
      exampleBase64 [1] (fun _ => ⟨by decide +kernel, by decide +kernel, by decide +kernel⟩) (by decide +kernel)⟩

/-- A value of two lines does not read back, and a file that the write cannot open loses its other values. -/
theorem settings_write_changes_more :
    (¬ ∀ (file after : Option Bytes) outcome valueName value,
      WriteStringValue true outcome file valueName value = (true, after) →
        ReadStringValue after valueName.val = some value) ∧
    ¬ ∀ (file after : Option Bytes) outcome valueName value,
      WriteStringValue false outcome file valueName value = (true, after) → KeepsOthers file after valueName.val := by
  constructor
  · intro every
    have back := every none (some (ascii "NetworkKey=a\nTcpPort=1\n")) exampleOutcome exampleName (ascii "a\nTcpPort=1")
      (by decide +kernel)
    exact read_one_line back (by decide +kernel)
  · intro every
    have kept := every (some (ascii "TcpPort=1\n")) (some (ascii "NetworkKey=a\n")) exampleOutcome exampleName
      (ascii "a") (by decide +kernel) (ascii "TcpPort") (by decide +kernel)
    exact absurd kept (by decide +kernel)

end ClippProof.Settings
