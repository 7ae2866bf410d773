import Clipp.Clipboard.Payload
import Clipp.Foundation.Text
import Clipp.Platform.WideConversion

open Foundation

namespace ClippModel.Platform

open ClippModel.Persistence ClippModel.Registers

def putCString {n : Nat} (dst : Sized n) (text : Bytes) (fits : text.length < n) : Sized n :=
  ⟨text ++ 0 :: dst.val.drop (text.length + 1), by
    rw [List.length_append, List.length_cons, List.length_drop, dst.property]
    omega⟩

/-- The source is read up to its terminator and cut to the room. -/
def strncpys {n : Nat} (dst : Sized n) (src : Bytes) : Sized n :=
  if room : 0 < n then
    putCString dst ((upTo 0 src).take (n - 1)) (by rw [List.length_take]; omega)
  else dst

end ClippModel.Platform

namespace ClippModel.Peers

open ClippModel.Persistence ClippModel.Registers ClippModel.Platform ClippModel.Clipboard

/-- From `limit` down to the first unit that is no continuation. -/
def backOff (value : Bytes) : Nat → Nat
  | 0 => 0
  | limit + 1 => if isContinuation (byteAt value (limit + 1)) then backOff value limit else limit + 1

def truncateForCString (value : Bytes) (maxBytes : Nat) : Bytes :=
  if maxBytes = 0 then []
  else if value.length < maxBytes then value
  else
    let limit := backOff value (maxBytes - 1)
    value.take (if limit = 0 then maxBytes - 1 else limit)

/-- What the system reports as the name of the device, if it does, and the name that stands in for it where
    the caller has none. -/
structure DeviceName where
  reported : Option Bytes
  standIn : Bytes

def hostDevice (hostName : Option Bytes) : DeviceName := { reported := hostName, standIn := ascii "unknown" }

/-- All names are C strings here. -/
def getLocalPeerDisplayName (device : DeviceName) (fallback : Option Bytes) (maxBytes : Nat) : Bytes :=
  let reported := upTo 0 (device.reported.getD [])
  if reported ≠ [] then truncateForCString reported maxBytes
  else truncateForCString (upTo 0 (fallback.getD device.standIn)) maxBytes

def copyLocalPeerDisplayName {n : Nat} (device : DeviceName) (fallback : Option Bytes) (buffer : Sized n) :
    Bool × Sized n :=
  if room : 0 < n then
    let name := getLocalPeerDisplayName device fallback n
    let copied := name.take (min name.length (n - 1))
    (0 < copied.length, putCString buffer copied (by rw [List.length_take]; omega))
  else (false, buffer)

/-- The name field of the handshake's plaintext, which is zeroed before it is filled. -/
def handshakeHostName (hostNameUtf8 : Bytes) : Sized hostnameMaxBytes :=
  strncpys (zeroBytes hostnameMaxBytes) hostNameUtf8

def clientHostName (device : DeviceName) (fallback : Option Bytes) : Sized hostnameMaxBytes :=
  handshakeHostName (getLocalPeerDisplayName device fallback hostnameMaxBytes)

/-- The server side copies the name first, and fails without one. -/
def serverHostName (device : DeviceName) (fallback : Option Bytes) : Option (Sized hostnameMaxBytes) :=
  let hostNameUtf8 := copyLocalPeerDisplayName device fallback (zeroBytes hostnameMaxBytes)
  if hostNameUtf8.1 then some (handshakeHostName hostNameUtf8.2.val) else none

def remoteHostName (hostNameUtf8 : Sized hostnameMaxBytes) : Bytes := upTo 0 hostNameUtf8.val

/-- The name of a device that put a register here: the handshake's, stored as a wide string. -/
def requestingDeviceName {U : Type} (W : WideChar U) (hostNameUtf8 : Sized hostnameMaxBytes) : Bytes :=
  utf16ToUtf8String W (utf8ToUtf16String W (remoteHostName hostNameUtf8))

/-- The stamp with the name copied over what its field held. -/
def stampOriginName (p : ClipboardPayload) (stamp : ClipboardPayload.OriginStamp)
    (originHostNameUtf8 : Bytes) : ClipboardPayload :=
  p.stampOrigin { stamp with originHostName := strncpys p.meta_.originHostName originHostNameUtf8 }

end ClippModel.Peers

namespace ClippProof.Peers

open ClippModel.Persistence ClippModel.Registers ClippModel.Platform ClippModel.Clipboard ClippModel.Peers
open ClippProof.Platform

variable {value text front : Bytes} {limit maxBytes n : Nat} {b : UInt8} {device : DeviceName} {fallback : Option Bytes}

def IsUtf8 (text : Bytes) : Prop := ∃ chars : List Char, text = utf8.text chars

/-- The longest beginning of a text that fits with its terminator and ends between characters. -/
structure LongestFitting (text : Bytes) (maxBytes : Nat) (front : Bytes) : Prop where
  beginning : front <+: text
  terminated : front.length < maxBytes
  whole : IsUtf8 front
  longest : ∀ other, other <+: text → other.length < maxBytes → IsUtf8 other → other <+: front

theorem backOff_spec (value : Bytes) (limit : Nat) : backOff value limit ≤ limit ∧
    (backOff value limit = 0 ∨ isContinuation (byteAt value (backOff value limit)) = false) ∧
    ∀ i, backOff value limit < i → i ≤ limit → isContinuation (byteAt value i) = true := by
  induction limit with
  | zero => exact ⟨le_rfl, .inl rfl, fun i after within => absurd within (Nat.not_le_of_gt after)⟩
  | succ limit ih =>
    rw [backOff]
    by_cases continued : isContinuation (byteAt value (limit + 1)) = true
    · rw [if_pos continued]
      obtain ⟨below, stops, passed⟩ := ih
      refine ⟨by omega, stops, fun i after within => ?_⟩
      rcases Nat.lt_or_ge limit i with last | earlier
      · obtain rfl : i = limit + 1 := by omega
        exact continued
      · exact passed i after earlier
    · rw [if_neg continued]
      exact ⟨le_rfl, .inr (Bool.eq_false_of_not_eq_true continued), fun i after within => by omega⟩

theorem byteAt_of_getElem? {i : Nat} (unit : value[i]? = some b) : byteAt value i = b := by
  rw [byteAt, unit, Option.getD_some]

theorem beginning_isUtf8_iff (written : IsUtf8 text) : IsUtf8 (text.take n) ↔
    ∀ b, text[n]? = some b → isContinuation b = false := by
  obtain ⟨chars, rfl⟩ := written
  exact utf8.take_isText_iff

/-- With room for any one character the loop stops behind a whole one. -/
theorem backOff_text (written : IsUtf8 text) (inside : limit < text.length) (room : 4 ≤ limit) :
    0 < backOff text limit ∧ IsUtf8 (text.take (backOff text limit)) := by
  obtain ⟨below, stops, passed⟩ := backOff_spec text limit
  have lead : ∀ b, text[backOff text limit]? = some b → isContinuation b = false := by
    intro b unit
    rcases stops with start | found
    · obtain ⟨chars, rfl⟩ := written
      rw [start, ← List.head?_eq_getElem?] at unit
      exact utf8.text_head?_continues unit
    · rwa [byteAt_of_getElem? unit] at found
  refine ⟨?_, (beginning_isUtf8_iff written).mpr lead⟩
  by_contra exhausted
  obtain ⟨chars, rfl⟩ := written
  have ahead : backOff (utf8.text chars) limit < limit := by omega
  have near : limit < backOff (utf8.text chars) limit + 4 := by
    apply utf8.continuations_lt encodeChar_length lead ahead
    intro i after within
    have unit : (utf8.text chars)[i]? = some (utf8.text chars)[i] := List.getElem?_eq_getElem (by omega)
    have continued := passed i after within
    rw [byteAt_of_getElem? unit] at continued
    exact ⟨_, unit, continued⟩
  omega

theorem truncateForCString_fits (written : IsUtf8 text) (room : 5 ≤ maxBytes) :
    LongestFitting text maxBytes (truncateForCString text maxBytes) := by
  have something : maxBytes ≠ 0 := by omega
  unfold truncateForCString
  rw [if_neg something]
  by_cases short : text.length < maxBytes
  · rw [if_pos short]
    exact ⟨List.prefix_rfl, short, written, fun other begins _ _ => begins⟩
  have inside : maxBytes - 1 < text.length := by omega
  obtain ⟨below, -, passed⟩ := backOff_spec text (maxBytes - 1)
  obtain ⟨positive, whole⟩ := backOff_text written inside (by omega)
  rw [if_neg short]
  simp only [if_neg (Nat.pos_iff_ne_zero.mp positive)]
  refine ⟨List.take_prefix _ _, ?_, whole, fun other begins terminated cut => ?_⟩
  · rw [List.length_take]
    omega
  · -- A longer beginning would be cut within the continuations that were passed.
    have front : other = text.take other.length := List.prefix_iff_eq_take.mp begins
    rw [front] at cut ⊢
    apply List.take_prefix_take_left
    by_contra longer
    have unit : text[other.length]? = some text[other.length] := List.getElem?_eq_getElem (by omega)
    have continued := passed other.length (by omega) (by omega)
    rw [byteAt_of_getElem? unit, (beginning_isUtf8_iff written).mp cut _ unit] at continued
    exact Bool.false_ne_true continued

theorem isUtf8_upTo (written : IsUtf8 text) : IsUtf8 (upTo 0 text) := by
  have split : text.take (upTo 0 text).length = upTo 0 text :=
    (List.prefix_iff_eq_take.mp (List.takeWhile_prefix _)).symm
  rw [← split, beginning_isUtf8_iff written]
  intro b unit
  rw [upTo_stops unit]
  decide

def WellNamed (device : DeviceName) (fallback : Option Bytes) : Prop :=
  IsUtf8 (device.reported.getD []) ∧ IsUtf8 (fallback.getD device.standIn)

def Holds {n : Nat} (field : Sized n) (name : Bytes) : Prop := name ++ [0] <+: field.val ∧ upTo 0 field.val = name

structure FittingName (name : Bytes) (maxBytes : Nat) : Prop where
  whole : IsUtf8 name
  terminated : name.length < maxBytes
  plain : 0 ∉ name

theorem displayName_fits (named : WellNamed device fallback) (room : 5 ≤ maxBytes) :
    FittingName (getLocalPeerDisplayName device fallback maxBytes) maxBytes := by
  have each : ∀ source, IsUtf8 source → FittingName (truncateForCString (upTo 0 source) maxBytes) maxBytes := by
    intro source written
    obtain ⟨beginning, terminated, whole, -⟩ := truncateForCString_fits (isUtf8_upTo written) room
    exact ⟨whole, terminated, fun member => (upTo_mem (beginning.subset member)).2 rfl⟩
  unfold getLocalPeerDisplayName
  by_cases reported : upTo 0 (device.reported.getD []) ≠ []
  · rw [if_pos reported]
    exact each _ named.1
  · rw [if_neg reported]
    exact each _ named.2

theorem putCString_holds {dst : Sized n} {fits : text.length < n} (plain : 0 ∉ text) :
    Holds (putCString dst text fits) text := by
  constructor
  · exact ⟨dst.val.drop (text.length + 1), by simp [putCString]⟩
  · exact upTo_split plain _

theorem strncpys_holds {dst : Sized n} (fits : (upTo 0 text).length < n) : Holds (strncpys dst text) (upTo 0 text) := by
  have kept : (upTo 0 text).take (n - 1) = upTo 0 text := List.take_of_length_le (by omega)
  have room : 0 < n := by omega
  rw [strncpys, dif_pos room]
  simp only [kept]
  exact putCString_holds fun member => (upTo_mem member).2 rfl

theorem upTo_plain (plain : 0 ∉ text) : upTo 0 text = text :=
  List.takeWhile_eq_self_iff.mpr (none_stops plain)

theorem strncpys_name {dst : Sized n} (fits : FittingName text n) : Holds (strncpys dst text) text := by
  have same := upTo_plain fits.plain
  have held : Holds (strncpys dst text) (upTo 0 text) := strncpys_holds (by rw [same]; exact fits.terminated)
  rwa [same] at held

theorem copy_holds (buffer : Sized n) (fits : FittingName (getLocalPeerDisplayName device fallback n) n) :
    (copyLocalPeerDisplayName device fallback buffer).1 = decide (getLocalPeerDisplayName device fallback n ≠ []) ∧
      Holds (copyLocalPeerDisplayName device fallback buffer).2 (getLocalPeerDisplayName device fallback n) := by
  have terminated := fits.terminated
  have room : 0 < n := by omega
  have all : (getLocalPeerDisplayName device fallback n).take
      (min (getLocalPeerDisplayName device fallback n).length (n - 1)) = getLocalPeerDisplayName device fallback n :=
    List.take_of_length_le (by omega)
  rw [copyLocalPeerDisplayName, dif_pos room]
  simp only [all]
  exact ⟨decide_eq_decide.mpr List.length_pos_iff, putCString_holds fits.plain⟩

theorem serverHostName_holds {field : Sized hostnameMaxBytes}
    (fits : FittingName (getLocalPeerDisplayName device fallback hostnameMaxBytes) hostnameMaxBytes)
    (sent : serverHostName device fallback = some field) :
    Holds field (getLocalPeerDisplayName device fallback hostnameMaxBytes) := by
  obtain ⟨-, read⟩ := (copy_holds (zeroBytes hostnameMaxBytes) fits).2
  simp only [serverHostName] at sent
  split_ifs at sent
  obtain rfl := Option.some.inj sent
  have short : (upTo 0 (copyLocalPeerDisplayName device fallback (zeroBytes hostnameMaxBytes)).2.val).length <
      hostnameMaxBytes := by
    rw [read]
    exact fits.terminated
  have held : Holds (handshakeHostName _) _ := strncpys_holds short
  rwa [read] at held

theorem requestingDeviceName_eq {U : Type} {W : WideChar U} {field : Sized hostnameMaxBytes} {name : Bytes}
    (reads : ReadsBack W) (written : IsUtf8 name) (held : Holds field name) : requestingDeviceName W field = name := by
  obtain ⟨chars, rfl⟩ := written
  rw [requestingDeviceName, remoteHostName, held.2]
  exact (roundTrips reads).back chars

/-- The name as a device shows it in its handshakes and stamps it on what it originates, and as another device
    stamps it on what it relays for it. -/
structure NameCarried (device : DeviceName) (fallback : Option Bytes) (name : Bytes) : Prop where
  whole : IsUtf8 name
  client : Holds (clientHostName device fallback) name
  server : ∀ field, serverHostName device fallback = some field → Holds field name
  stamped : ∀ (p : ClipboardPayload) (stamp : ClipboardPayload.OriginStamp),
    Holds (stampOriginName p stamp name).meta_.originHostName name
  relayed16 : ∀ field, Holds field name → requestingDeviceName wchar16 field = name
  relayed32 : ∀ field, Holds field name → requestingDeviceName wchar32 field = name

theorem nameCarried (named : WellNamed device fallback) :
    NameCarried device fallback (getLocalPeerDisplayName device fallback hostnameMaxBytes) := by
  have fits : FittingName (getLocalPeerDisplayName device fallback hostnameMaxBytes) hostnameMaxBytes :=
    displayName_fits named (by decide)
  refine ⟨fits.whole, strncpys_name fits, fun field sent => serverHostName_holds fits sent,
    fun p stamp => strncpys_name fits, fun field held => ?_, fun field held => ?_⟩
  · exact requestingDeviceName_eq wchar16_reads fits.whole held
  · exact requestingDeviceName_eq wchar32_reads fits.whole held

/-- No character is split, and no part of the name is lost behind it. -/
theorem display_name_whole (text : Bytes) (maxBytes : Nat) (written : IsUtf8 text) (room : 5 ≤ maxBytes) :
    LongestFitting text maxBytes (truncateForCString text maxBytes) ∧
    ∀ (device : DeviceName) (fallback : Option Bytes), WellNamed device fallback →
      (∀ buffer : Sized maxBytes,
        (copyLocalPeerDisplayName device fallback buffer).1 =
            decide (getLocalPeerDisplayName device fallback maxBytes ≠ []) ∧
          Holds (copyLocalPeerDisplayName device fallback buffer).2
            (getLocalPeerDisplayName device fallback maxBytes)) ∧
      NameCarried device fallback (getLocalPeerDisplayName device fallback hostnameMaxBytes) :=
  ⟨truncateForCString_fits written room, fun _ _ named =>
    ⟨fun buffer => copy_holds buffer (displayName_fits named room), nameCarried named⟩⟩

example : truncateForCString [0x61, 0x62, 0x63, 0xC3, 0xBC] 5 = [0x61, 0x62, 0x63] := by decide

theorem umlaut_kept_whole :
    LongestFitting [0x61, 0x62, 0x63, 0xC3, 0xBC] 5 (truncateForCString [0x61, 0x62, 0x63, 0xC3, 0xBC] 5) ∧
      NameCarried (hostDevice (some [0xC3, 0xBC])) none
        (getLocalPeerDisplayName (hostDevice (some [0xC3, 0xBC])) none hostnameMaxBytes) := by
  have written : IsUtf8 [0x61, 0x62, 0x63, 0xC3, 0xBC] := ⟨['a', 'b', 'c', 'ü'], by decide +kernel⟩
  have named : WellNamed (hostDevice (some [0xC3, 0xBC])) none :=
    ⟨⟨['ü'], by decide +kernel⟩, ⟨"unknown".toList, by decide +kernel⟩⟩
  obtain ⟨fitting, carried⟩ := display_name_whole [0x61, 0x62, 0x63, 0xC3, 0xBC] 5 written le_rfl
  exact ⟨fitting, (carried _ _ named).2⟩

end ClippProof.Peers
