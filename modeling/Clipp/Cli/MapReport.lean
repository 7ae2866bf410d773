import Clipp.Gateway.NetMap

open Foundation

namespace ClippModel.Cli

open ClippModel.Registers ClippModel.Platform ClippModel.Gateway

variable {U : Type}

structure MapConnection (U : Type) where
  in_ : UInt64 := 0
  out : UInt64 := 0
  state : List U := []
  ageSeconds : UInt64 := 0
  tx : UInt64 := 0
  rx : UInt64 := 0
  os : List U := []
  idPrefix : List U := []
  name : List U := []

/-- The keys and values of a record. A name takes the rest of the line, and a key without an equals sign
    ends it. -/
def parseReportFields (tail : Bytes) : List (Bytes × Bytes) :=
  let rest := tail.dropWhile (· = 0x20)
  if rest.isEmpty then []
  else if rest.take 5 = ascii "name=" then [(ascii "name", rest.drop 5)]
  else if _ : 0x3D ∈ rest then
    let after := past 0x3D rest
    (upTo 0x3D rest, upTo 0x20 after) :: parseReportFields (past 0x20 after)
  else []
  termination_by tail.length
  decreasing_by
    have shorter : rest.length ≤ tail.length := (List.dropWhile_sublist _).length_le
    have inside := past_length (c := 0x3D) (List.ne_nil_of_mem ‹0x3D ∈ rest›)
    have behind := past_length_le 0x20 after
    exact lt_of_le_of_lt behind (lt_of_lt_of_le inside shorter)

def sanitizePreview (W : WideText U) (preview : Bytes) : List U := W.utf8ToWideString (scrub preview)

inductive ReportStatus where
  | badReport
  | ok
  deriving DecidableEq

structure HostReport (U : Type) where
  name : List U
  version : List U := []
  status : ReportStatus := .badReport
  totalIn : UInt64 := 0
  totalOut : UInt64 := 0
  conns : List (MapConnection U) := []
  rawLines : List (List U) := []

def setSelfField (W : WideText U) (report : HostReport U) (field : Bytes × Bytes) : HostReport U :=
  if field.1 = ascii "ver" then { report with version := W.utf8ToWideString field.2 }
  else if field.1 = ascii "name" ∧ !field.2.isEmpty then { report with name := sanitizePreview W field.2 }
  else report

def setConnField (W : WideText U) (conn : MapConnection U) (field : Bytes × Bytes) : MapConnection U :=
  if field.1 = ascii "in" then { conn with in_ := strtoull field.2 }
  else if field.1 = ascii "out" then { conn with out := strtoull field.2 }
  else if field.1 = ascii "state" then { conn with state := W.utf8ToWideString field.2 }
  else if field.1 = ascii "age" then { conn with ageSeconds := strtoull field.2 }
  else if field.1 = ascii "tx" then { conn with tx := strtoull field.2 }
  else if field.1 = ascii "rx" then { conn with rx := strtoull field.2 }
  else if field.1 = ascii "os" then { conn with os := W.utf8ToWideString field.2 }
  else if field.1 = ascii "id" then { conn with idPrefix := (W.utf8ToWideString field.2).take 8 }
  else if field.1 = ascii "name" then { conn with name := sanitizePreview W field.2 }
  else conn

def readConn (W : WideText U) (tail : Bytes) : MapConnection U :=
  (parseReportFields tail).foldl (setConnField W) {}

def addConn (report : HostReport U) (conn : MapConnection U) : HostReport U :=
  { report with totalIn := report.totalIn + conn.in_, totalOut := report.totalOut + conn.out,
                conns := report.conns ++ [conn] }

def reportLines (body : Bytes) : List Bytes :=
  if _ : body ≠ [] then upTo newline body :: reportLines (past newline body) else []
  termination_by body.length
  decreasing_by exact past_length ‹_›

def readLines (W : WideText U) (verbosity : Nat) : Bool → HostReport U → List Bytes → Bool × HostReport U
  | sawHeader, report, [] => (sawHeader, report)
  | sawHeader, report, line :: lines =>
    if line.isEmpty then readLines W verbosity sawHeader report lines
    else
      let report :=
        if verbosity ≥ 2 then { report with rawLines := report.rawLines ++ [sanitizePreview W line] } else report
      if upTo 0x20 line = ascii "netmap" then readLines W verbosity true report lines
      else if !sawHeader then (sawHeader, report)
      else if upTo 0x20 line = ascii "self" then
        readLines W verbosity sawHeader ((parseReportFields (past 0x20 line)).foldl (setSelfField W) report) lines
      else if upTo 0x20 line = ascii "conn" then
        readLines W verbosity sawHeader (addConn report (readConn W (past 0x20 line))) lines
      else readLines W verbosity sawHeader report lines

/-- The answer of a device known so far under the name it was discovered by. -/
def parseReport (W : WideText U) (verbosity : Nat) (discovered : List U) (body : Bytes) : HostReport U :=
  let (sawHeader, report) := readLines W verbosity false { name := discovered } (reportLines body)
  if sawHeader then { report with status := .ok } else report

end ClippModel.Cli

namespace ClippProof.Cli

open ClippModel.Registers ClippModel.Platform ClippModel.Gateway ClippModel.Cli ClippProof.Gateway ClippProof.Platform

variable {U V : Type}

theorem reportLines_line {line : Bytes} (whole : newline ∉ line) (rest : Bytes) :
    reportLines (line ++ newline :: rest) = line :: reportLines rest := by
  have present : line ++ newline :: rest ≠ [] := by simp
  rw [reportLines, dif_pos present, upTo_split whole, past_split whole]

theorem reportLines_flatMap {α : Type} {line : α → Bytes} (items : List α) (whole : ∀ item ∈ items, newline ∉ line item) :
    reportLines (items.flatMap fun item => line item ++ [newline]) = items.map line := by
  induction items with
  | nil =>
    rw [List.flatMap_nil, reportLines]
    rfl
  | cons item items ih =>
    have first := whole item (List.mem_cons_self ..)
    have further := ih fun later member => whole later (List.mem_cons_of_mem _ member)
    rw [List.flatMap_cons, List.append_assoc, List.singleton_append, reportLines_line first, further, List.map_cons]

def fieldText (key value rest : Bytes) : Bytes := key ++ 0x3D :: (value ++ 0x20 :: rest)

/-- The keys of the report start with neither a space nor the `n` of the name. -/
def Key (key : Bytes) : Prop := key ≠ [] ∧ (key.head? ≠ some 0x20 ∧ key.head? ≠ some 0x6E) ∧ 0x3D ∉ key

instance (key : Bytes) : Decidable (Key key) := inferInstanceAs (Decidable (_ ∧ _))

theorem parseReportFields_field {key value : Bytes} (isKey : Key key) (unspaced : 0x20 ∉ value) (rest : Bytes) :
    parseReportFields (fieldText key value rest) = (key, value) :: parseReportFields rest := by
  obtain ⟨nonempty, starts, plain⟩ := isKey
  obtain ⟨c, others, rfl⟩ := List.exists_cons_of_ne_nil nonempty
  have notSpace : c ≠ 0x20 := fun same => starts.1 (congrArg some same)
  have notName : c ≠ 0x6E := fun same => starts.2 (congrArg some same)
  have kept : (fieldText (c :: others) value rest).dropWhile (fun b => decide (b = 0x20)) =
      fieldText (c :: others) value rest := List.dropWhile_cons_of_neg (by simpa using notSpace)
  have notEmpty : ¬ (fieldText (c :: others) value rest).isEmpty = true := by simp [fieldText]
  have unnamed : ¬ (fieldText (c :: others) value rest).take 5 = ascii "name=" := fun named =>
    notName (List.cons.inj named).1
  have present : 0x3D ∈ fieldText (c :: others) value rest := by simp [fieldText]
  have key : upTo 0x3D (fieldText (c :: others) value rest) = c :: others := upTo_split plain _
  have after : past 0x3D (fieldText (c :: others) value rest) = value ++ 0x20 :: rest := past_split plain _
  rw [parseReportFields]
  simp only [kept, if_neg notEmpty, if_neg unnamed, dif_pos present, key, after, upTo_split unspaced,
    past_split unspaced]

theorem parseReportFields_name (rest : Bytes) : parseReportFields (ascii "name=" ++ rest) = [(ascii "name", rest)] := by
  have kept : (ascii "name=" ++ rest).dropWhile (fun b => decide (b = 0x20)) = ascii "name=" ++ rest := rfl
  have notEmpty : ¬ (ascii "name=" ++ rest).isEmpty = true := by simp [ascii]
  have named : (ascii "name=" ++ rest).take 5 = ascii "name=" := rfl
  have behind : (ascii "name=" ++ rest).drop 5 = rest := rfl
  rw [parseReportFields]
  simp only [kept, if_neg notEmpty, if_pos named, behind]

section Record

variable (D : WideText U) (now : Int) (requester : HostId) (item : PeerDisplayItem U)

def connTail : Bytes :=
  fieldText (ascii "in") (decimal (meshIncoming requester item).toNat)
    (fieldText (ascii "out") (decimal item.outgoingConnectionCount.toNat)
      (fieldText (ascii "state") (stateText item.outgoingConnState)
        (fieldText (ascii "age") (decimal (ageSeconds now item).toNat)
          (fieldText (ascii "tx") (decimal item.bytesSent.toNat)
            (fieldText (ascii "rx") (decimal item.bytesReceived.toNat)
              (fieldText (ascii "os") (osText item.osType)
                (fieldText (ascii "id") (toHexString item.hostID)
                  (ascii "name=" ++ scrub (D.wideToUtf8String item.hostName)))))))))

theorem connLine_tail : connLine D now requester item = ascii "conn" ++ 0x20 :: connTail D now requester item := by
  rw [connLine_eq]
  simp only [connFields, List.append_assoc]
  rfl

theorem connTail_fields : parseReportFields (connTail D now requester item) =
    [(ascii "in", decimal (meshIncoming requester item).toNat),
      (ascii "out", decimal item.outgoingConnectionCount.toNat),
      (ascii "state", stateText item.outgoingConnState),
      (ascii "age", decimal (ageSeconds now item).toNat),
      (ascii "tx", decimal item.bytesSent.toNat),
      (ascii "rx", decimal item.bytesReceived.toNat),
      (ascii "os", osText item.osType),
      (ascii "id", toHexString item.hostID),
      (ascii "name", scrub (D.wideToUtf8String item.hostName))] := by
  have space : graphic 0x20 = false := rfl
  have number := fun n => absent_of_graphic space (decimal_graphic n)
  have state := absent_of_graphic space (stateText_graphic item.outgoingConnState)
  have os := absent_of_graphic space (osText_graphic item.osType)
  have id := absent_of_graphic space (toHexString_graphic item.hostID)
  rw [connTail, parseReportFields_field (by decide) (number _), parseReportFields_field (by decide) (number _),
    parseReportFields_field (by decide) state, parseReportFields_field (by decide) (number _),
    parseReportFields_field (by decide) (number _), parseReportFields_field (by decide) (number _),
    parseReportFields_field (by decide) os, parseReportFields_field (by decide) id, parseReportFields_name]

/-- What the command line shows of an entry, on a platform of its own. -/
def recovered (C : WideText V) : MapConnection V where
  in_ := meshIncoming requester item
  out := item.outgoingConnectionCount
  state := (stateText item.outgoingConnState).map C.ofAscii
  ageSeconds := ageSeconds now item
  tx := item.bytesSent
  rx := item.bytesReceived
  os := (osText item.osType).map C.ofAscii
  idPrefix := ((toHexString item.hostID).take 8).map C.ofAscii
  name := C.utf8ToWideString (scrub (D.wideToUtf8String item.hostName))

theorem wide_of_graphic (C : WideText V) {value : Bytes} (printed : ∀ b ∈ value, graphic b = true) :
    C.utf8ToWideString value = value.map C.ofAscii :=
  C.toWide_ascii _ fun b member => graphic_ascii (printed b member)

theorem readConn_connTail (C : WideText V) :
    readConn C (connTail D now requester item) = recovered D now requester item C := by
  have state := wide_of_graphic C (stateText_graphic item.outgoingConnState)
  have os := wide_of_graphic C (osText_graphic item.osType)
  have id := wide_of_graphic C (toHexString_graphic item.hostID)
  rw [readConn, connTail_fields]
  show (⟨strtoull _, strtoull _, C.utf8ToWideString _, strtoull _, strtoull _, strtoull _, C.utf8ToWideString _,
    (C.utf8ToWideString _).take 8, C.utf8ToWideString (scrub _)⟩ : MapConnection V) = _
  rw [scrub_scrub, state, os, id, recovered, List.map_take]
  simp only [strtoull_decimal]

theorem unbroken_append {front back : Bytes} (left : newline ∉ front) (right : newline ∉ back) :
    newline ∉ front ++ back := by
  rw [List.mem_append]
  exact not_or.mpr ⟨left, right⟩

theorem connLine_unbroken : newline ∉ connLine D now requester item := by
  have control : graphic newline = false := rfl
  have number := fun n => absent_of_graphic control (decimal_graphic n)
  have state := absent_of_graphic control (stateText_graphic item.outgoingConnState)
  have os := absent_of_graphic control (osText_graphic item.osType)
  have id := absent_of_graphic control (toHexString_graphic item.hostID)
  rw [connLine_eq, connFields]
  repeat' apply unbroken_append
  all_goals first | exact number _ | exact state | exact os | exact id | exact scrub_clean _ | decide

theorem selfLine_unbroken (version : BuildVersion) (selfId : HostId) (selfName : Bytes) :
    newline ∉ selfLine D version selfId selfName := by
  have control : graphic newline = false := rfl
  have stamp := absent_of_graphic control version.printed
  have id := absent_of_graphic control (toHexString_graphic selfId)
  rw [selfLine, hex_utf8]
  repeat' apply unbroken_append
  all_goals first | exact stamp | exact id | exact scrub_clean _ | decide

end Record

section Lines

variable (C : WideText V) (verbosity : Nat) (report : HostReport V)

def noted (line : Bytes) : HostReport V :=
  if verbosity ≥ 2 then { report with rawLines := report.rawLines ++ [sanitizePreview C line] } else report

theorem noted_conns (line : Bytes) : (noted C verbosity report line).conns = report.conns := by
  unfold noted
  split_ifs <;> rfl

theorem readLines_header (lines : List Bytes) : readLines C verbosity false report (ascii "netmap v=1" :: lines) =
    readLines C verbosity true (noted C verbosity report (ascii "netmap v=1")) lines := by
  rw [readLines, if_neg (by decide)]
  exact if_pos (by decide)

theorem setSelfField_conns (fields : List (Bytes × Bytes)) :
    (fields.foldl (setSelfField C) report).conns = report.conns := by
  induction fields generalizing report with
  | nil => rfl
  | cons field fields ih =>
    rw [List.foldl_cons, ih, setSelfField]
    split_ifs <;> rfl

theorem readLines_record {word : Bytes} (unspaced : 0x20 ∉ word) (other : word ≠ ascii "netmap") (tail : Bytes)
    (lines : List Bytes) :
    readLines C verbosity true report ((word ++ 0x20 :: tail) :: lines) = readLines C verbosity true
      (if word = ascii "self" then
        (parseReportFields tail).foldl (setSelfField C) (noted C verbosity report (word ++ 0x20 :: tail))
      else if word = ascii "conn" then addConn (noted C verbosity report (word ++ 0x20 :: tail)) (readConn C tail)
      else noted C verbosity report (word ++ 0x20 :: tail)) lines := by
  have filled : ¬ (word ++ 0x20 :: tail).isEmpty = true := by simp
  rw [readLines, if_neg filled]
  simp only [upTo_split unspaced tail, past_split unspaced tail, if_neg other, Bool.not_true, Bool.false_eq_true,
    if_false]
  by_cases self : word = ascii "self"
  · rw [if_pos self, if_pos self]
    rfl
  · by_cases conn : word = ascii "conn"
    · rw [if_neg self, if_neg self, if_pos conn, if_pos conn]
      rfl
    · rw [if_neg self, if_neg self, if_neg conn, if_neg conn]
      rfl

theorem readLines_self (tail : Bytes) (lines : List Bytes) :
    readLines C verbosity true report ((ascii "self" ++ 0x20 :: tail) :: lines) = readLines C verbosity true
      ((parseReportFields tail).foldl (setSelfField C) (noted C verbosity report (ascii "self" ++ 0x20 :: tail)))
      lines := by
  rw [readLines_record C verbosity report (by decide) (by decide), if_pos rfl]

theorem readLines_conn (tail : Bytes) (lines : List Bytes) :
    readLines C verbosity true report ((ascii "conn" ++ 0x20 :: tail) :: lines) = readLines C verbosity true
      (addConn (noted C verbosity report (ascii "conn" ++ 0x20 :: tail)) (readConn C tail)) lines := by
  rw [readLines_record C verbosity report (by decide) (by decide), if_neg (by decide), if_pos rfl]

theorem readLines_conns (D : WideText U) (now : Int) (requester : HostId) (items : List (PeerDisplayItem U)) :
    (readLines C verbosity true report (items.map (connLine D now requester))).1 = true ∧
    (readLines C verbosity true report (items.map (connLine D now requester))).2.conns =
      report.conns ++ items.map fun item => recovered D now requester item C := by
  induction items generalizing report with
  | nil => exact ⟨rfl, (List.append_nil _).symm⟩
  | cons item items ih =>
    rw [List.map_cons, connLine_tail, readLines_conn, readConn_connTail]
    obtain ⟨seen, conns⟩ := ih (addConn (noted C verbosity report
      (ascii "conn" ++ 0x20 :: connTail D now requester item)) (recovered D now requester item C))
    refine ⟨seen, ?_⟩
    rw [conns, addConn, noted_conns, List.append_assoc, List.map_cons]
    rfl

end Lines

theorem reportLines_netmapReport (D : WideText U) (version : BuildVersion) (selfId : HostId) (selfName : Bytes)
    (now : Int) (requester : HostId) (items : List (PeerDisplayItem U)) :
    reportLines (netmapReport D version selfId selfName now requester items) =
      ascii "netmap v=1" :: selfLine D version selfId selfName ::
        (items.filter (isReported requester)).map (connLine D now requester) := by
  rw [netmapReport, reportLines_line (by decide), reportLines_line (selfLine_unbroken D version selfId selfName),
    reportLines_flatMap _ fun item _ => connLine_unbroken D now requester item]

theorem parseReport_netmapReport (C : WideText V) (D : WideText U) (verbosity : Nat) (discovered : List V)
    (version : BuildVersion) (selfId : HostId) (selfName : Bytes) (now : Int) (requester : HostId)
    (items : List (PeerDisplayItem U)) :
    (parseReport C verbosity discovered (netmapReport D version selfId selfName now requester items)).status = .ok ∧
    (parseReport C verbosity discovered (netmapReport D version selfId selfName now requester items)).conns =
      (items.filter (isReported requester)).map fun item => recovered D now requester item C := by
  have opening : selfLine D version selfId selfName = ascii "self" ++ 0x20 :: (selfLine D version selfId selfName).drop 5 :=
    rfl
  rw [parseReport, reportLines_netmapReport, readLines_header, opening, readLines_self]
  generalize kept : noted C verbosity { name := discovered } (ascii "netmap v=1") = headed
  generalize told : (parseReportFields ((selfLine D version selfId selfName).drop 5)).foldl (setSelfField C) _ = report
  have empty : report.conns = [] := by rw [← told, setSelfField_conns, noted_conns, ← kept, noted_conns]
  obtain ⟨seen, conns⟩ := readLines_conns C verbosity report D now requester (items.filter (isReported requester))
  rw [empty, List.nil_append] at conns
  simp only [seen, if_true]
  exact ⟨trivial, conns⟩

section Names

def scrubUnit (unit : UInt32) : UInt32 := if unit < 0x20 ∨ unit = 0x7F then 0x2E else unit

def isScalar (unit : UInt32) : Bool := unit ≤ 0x10FFFF ∧ ¬ (unit ≥ 0xD800 ∧ unit ≤ 0xDFFF)

theorem scrub_high {bytes : Bytes} (high : ∀ b ∈ bytes, 0x80 ≤ b) : scrub bytes = bytes := by
  conv_rhs => rw [← List.map_id bytes]
  apply List.map_congr_left
  intro b member
  have bound : 0x80 ≤ b.toNat := high b member
  have plain : ¬ (b < 0x20 ∨ b = 0x7F) := by
    rintro (control | delete)
    · have below : b.toNat < 0x20 := control
      omega
    · rw [delete] at bound
      exact absurd bound (by decide)
  exact if_neg plain

theorem append_scrubUnit {unit : UInt32} {bytes : Bytes} (appended : appendUtf8CodePoint unit = some bytes) :
    appendUtf8CodePoint (scrubUnit unit) = some (scrub bytes) := by
  by_cases small : unit ≤ 0x7F
  · have single : appendUtf8CodePoint unit = some [unit.toUInt8] := if_pos small
    obtain rfl := Option.some.inj (appended.symm.trans single)
    exact of_small (P := fun y => appendUtf8CodePoint (scrubUnit y) = some (scrub [y.toUInt8])) 128 (by decide) _
      (Nat.lt_succ_of_le small)
  · have unchanged : scrubUnit unit = unit := by
      have bound : ¬ unit.toNat ≤ 0x7F := small
      have plain : ¬ (unit < 0x20 ∨ unit = 0x7F) := by
        rintro (control | delete)
        · have below : unit.toNat < 0x20 := control
          omega
        · rw [delete] at bound
          exact absurd bound (by decide)
      exact if_neg plain
    rw [unchanged, appended, scrub_high (appendUtf8CodePoint_high small appended)]

theorem utf16ToUtf8_scrub (units : List UInt32) (bytes : Bytes) (encoded : utf16ToUtf8 units = some bytes) :
    utf16ToUtf8 (units.map scrubUnit) = some (scrub bytes) := by
  induction units generalizing bytes with
  | nil =>
    obtain rfl := Option.some.inj encoded
    rfl
  | cons unit units ih =>
    obtain ⟨first, others, appended, further, rfl⟩ := utf16ToUtf8_cons encoded
    simp only [List.map_cons, utf16ToUtf8, append_scrubUnit appended, ih others further, Option.bind_eq_bind,
      Option.bind_some, Option.pure_def]
    rw [scrub, scrub, scrub, List.map_append]

theorem append_isSome (unit : UInt32) : (appendUtf8CodePoint unit).isSome = isScalar unit := by
  have scalar : isScalar unit = decide (unit.toNat ≤ 0x10FFFF ∧ ¬ (0xD800 ≤ unit.toNat ∧ unit.toNat ≤ 0xDFFF)) := rfl
  have step : ∀ bound : UInt32, (unit ≤ bound) = (unit.toNat ≤ bound.toNat) := fun _ => rfl
  rw [scalar, appendUtf8CodePoint]
  split_ifs with one two three surrogate four
  · rw [step] at one
    exact (decide_eq_true (by change unit.toNat ≤ 127 at one; omega)).symm
  · rw [step] at two
    exact (decide_eq_true (by change unit.toNat ≤ 2047 at two; omega)).symm
  · exact (decide_eq_false fun valid => valid.2 surrogate).symm
  · rw [step] at three
    exact (decide_eq_true ⟨three.trans (by decide), surrogate⟩).symm
  · rw [step] at three
    exact (decide_eq_true ⟨four, fun high => three (high.2.trans (by decide))⟩).symm
  · exact (decide_eq_false fun valid => four valid.1).symm

theorem utf16ToUtf8_isSome (units : List UInt32) : (utf16ToUtf8 units).isSome = units.all isScalar := by
  induction units with
  | nil => rfl
  | cons unit units ih =>
    rw [List.all_cons, ← ih, ← append_isSome]
    cases first : appendUtf8CodePoint unit <;> cases others : utf16ToUtf8 units <;> simp [utf16ToUtf8, first, others]

theorem posix_name (units : List UInt32) : posix.utf8ToWideString (scrub (posix.wideToUtf8String units)) =
    if units.all isScalar then units.map scrubUnit else [] := by
  rw [← utf16ToUtf8_isSome]
  cases encoded : utf16ToUtf8 units with
  | none =>
    simp only [posix, posixWideToUtf8, encoded]
    rfl
  | some bytes =>
    have scrubbed := utf16ToUtf8_scrub units bytes encoded
    have back := posixUtf8ToWide_posixWideToUtf8 (units.map scrubUnit)
    rw [posixWideToUtf8, scrubbed, Option.getD_some] at back
    simp only [posix, posixWideToUtf8, encoded, Option.getD_some]
    exact back

end Names

def nameless (conn : MapConnection V) : MapConnection V := { conn with name := [] }

/-- The records are those of the reported hosts, whatever the hosts are called. -/
theorem netmap_round_trip (C : WideText V) (D : WideText U) (verbosity : Nat) (discovered : List V)
    (version : BuildVersion) (selfId : HostId) (selfName : Bytes) (now : Int) (requester : HostId)
    (items : List (PeerDisplayItem U)) :
    (parseReport C verbosity discovered (netmapReport D version selfId selfName now requester items)).status = .ok ∧
    (parseReport C verbosity discovered (netmapReport D version selfId selfName now requester items)).conns =
      (items.filter (isReported requester)).map (fun item => recovered D now requester item C) ∧
    (∀ rename : PeerDisplayItem U → List U,
      (parseReport C verbosity discovered (netmapReport D version selfId selfName now requester
        (items.map fun item => { item with hostName := rename item }))).conns.map nameless =
      (parseReport C verbosity discovered (netmapReport D version selfId selfName now requester items)).conns.map
        nameless) ∧
    ∀ item : PeerDisplayItem UInt32, (recovered posix now requester item posix).name =
      if item.hostName.all isScalar then item.hostName.map scrubUnit else [] := by
  have parsed := parseReport_netmapReport C D verbosity discovered version selfId selfName now requester
  refine ⟨(parsed items).1, (parsed items).2, fun rename => ?_, fun item => posix_name item.hostName⟩
  rw [(parsed _).2, (parsed items).2, List.filter_map, List.map_map, List.map_map, List.map_map]
  rfl

end ClippProof.Cli
