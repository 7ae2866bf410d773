import Clipp.Foundation.Text
import Clipp.Platform.WideText
import Clipp.Registers.Record

open Foundation

namespace ClippModel.Gateway

open ClippModel.Registers ClippModel.Platform

def graphic (b : UInt8) : Bool := 0x20 < b ∧ b < 0x7F

structure BuildVersion where
  text : Bytes
  printed : ∀ b ∈ text, graphic b = true

inductive PeerConnState where
  | connecting
  | connected
  | backoff
  | failed

/-- Times are nanoseconds of the steady clock, of which 0 is none; numbers of operating systems this build
    does not know are kept as they came. -/
structure PeerDisplayItem (U : Type) where
  hostName : List U
  hostID : HostId
  osType : UInt16
  outgoingConnState : PeerConnState
  bytesSent : UInt64
  bytesReceived : UInt64
  connectedSince : Int
  incomingConnectionCount : UInt64
  outgoingConnectionCount : UInt64

def hexDigit (nibble : UInt8) : UInt8 := byteAt (ascii "0123456789abcdef") nibble.toNat

def toHexFrom (bytesPerGroup : Nat) : Nat → Bytes → Bytes
  | _, [] => []
  | idx, byte :: rest =>
    (if idx > 0 ∧ idx % bytesPerGroup = 0 then ([0x2D] : Bytes) else []) ++
      hexDigit (byte >>> 4) :: hexDigit (byte &&& 0x0F) :: toHexFrom bytesPerGroup (idx + 1) rest

def toHexString (id : HostId) : Bytes := toHexFrom 4 0 id.bytes

def scrub (s : Bytes) : Bytes := s.map fun c => if c < 0x20 ∨ c = 0x7F then 0x2E else c

def stateText : PeerConnState → Bytes
  | .connecting => ascii "connecting"
  | .connected => ascii "connected"
  | .backoff => ascii "backoff"
  | .failed => ascii "failed"

def osText (os : UInt16) : Bytes :=
  if os = 1 then ascii "windows"
  else if os = 2 then ascii "macos"
  else if os = 3 then ascii "iphone"
  else if os = 4 then ascii "ipad"
  else if os = 5 then ascii "linux"
  else ascii "unknown"

def kNanosecondsPerSecond : Nat := 1000000000

variable {U : Type}

def ageSeconds (now : Int) (item : PeerDisplayItem U) : UInt64 :=
  if item.connectedSince ≠ 0 ∧ now > item.connectedSince then
    UInt64.ofNat ((now - item.connectedSince).toNat / kNanosecondsPerSecond)
  else 0

/-- The connection carrying the request is not counted. -/
def meshIncoming (requester : HostId) (item : PeerDisplayItem U) : UInt64 :=
  if item.hostID = requester ∧ item.incomingConnectionCount > 0 then item.incomingConnectionCount - 1
  else item.incomingConnectionCount

def isReported (requester : HostId) (item : PeerDisplayItem U) : Bool :=
  !(meshIncoming requester item = 0 ∧ item.outgoingConnectionCount = 0)

def connFields (now : Int) (requester : HostId) (item : PeerDisplayItem U) : Bytes :=
  ascii "conn in=" ++ (decimal (meshIncoming requester item).toNat ++
    (ascii " out=" ++ (decimal item.outgoingConnectionCount.toNat ++
      (ascii " state=" ++ (stateText item.outgoingConnState ++
        (ascii " age=" ++ (decimal (ageSeconds now item).toNat ++
          (ascii " tx=" ++ (decimal item.bytesSent.toNat ++
            (ascii " rx=" ++ (decimal item.bytesReceived.toNat ++
              (ascii " os=" ++ (osText item.osType ++ ascii " id=")))))))))))))

/-- The fields are printed into a buffer of 192 bytes, the last of which is the terminator. -/
def connLine (W : WideText U) (now : Int) (requester : HostId) (item : PeerDisplayItem U) : Bytes :=
  (connFields now requester item).take 191 ++ (W.wideToUtf8String ((toHexString item.hostID).map W.ofAscii) ++
    (ascii " name=" ++ scrub (W.wideToUtf8String item.hostName)))

def selfLine (W : WideText U) (version : BuildVersion) (selfId : HostId) (selfName : Bytes) : Bytes :=
  ascii "self ver=" ++ (version.text ++ (ascii " id=" ++
    (W.wideToUtf8String ((toHexString selfId).map W.ofAscii) ++ (ascii " name=" ++ scrub selfName))))

def newline : UInt8 := 0x0A

def netmapReport (W : WideText U) (version : BuildVersion) (selfId : HostId) (selfName : Bytes) (now : Int)
    (requester : HostId) (items : List (PeerDisplayItem U)) : Bytes :=
  ascii "netmap v=1" ++ newline :: (selfLine W version selfId selfName ++
    newline :: (items.filter (isReported requester)).flatMap fun item => connLine W now requester item ++ [newline])

end ClippModel.Gateway

namespace ClippProof.Gateway

open ClippModel.Registers ClippModel.Platform ClippModel.Gateway ClippProof.Platform

variable {U : Type} {b : UInt8}

theorem graphic_iff (b : UInt8) : graphic b = true ↔ 0x20 < b.toNat ∧ b.toNat < 0x7F := decide_eq_true_iff

theorem isDigit_graphic (digit : isDigit b = true) : graphic b = true := by
  rw [graphic_iff]
  have range := (isDigit_iff b).mp digit
  omega

theorem graphic_ascii (printed : graphic b = true) : b < 0x80 := by
  have range := (graphic_iff b).mp printed
  show b.toNat < 0x80
  omega

theorem absent_of_graphic {c : UInt8} {value : Bytes} (other : graphic c = false)
    (printed : ∀ b ∈ value, graphic b = true) : c ∉ value := by
  intro member
  have here := printed c member
  rw [other] at here
  exact absurd here (by decide)

theorem hexDigit_graphic {nibble : UInt8} (small : nibble.toNat < 16) : graphic (hexDigit nibble) = true := by
  have each : ∀ n < 16, graphic (byteAt (ascii "0123456789abcdef") n) = true := by decide
  exact each _ small

theorem toHexFrom_graphic (bytesPerGroup idx : Nat) (bytes : Bytes) :
    ∀ b ∈ toHexFrom bytesPerGroup idx bytes, graphic b = true := by
  induction bytes generalizing idx with
  | nil => simp [toHexFrom]
  | cons byte rest ih =>
    intro b member
    have high : (byte >>> 4).toNat < 16 := by
      have bound := byte.toNat_lt
      rw [UInt8.toNat_shiftRight]
      change byte.toNat >>> 4 < 16
      rw [Nat.shiftRight_eq_div_pow]
      omega
    have low : (byte &&& 0x0F).toNat < 16 := by
      have modulo : byte.toNat &&& 15 = byte.toNat % 2 ^ 4 := Nat.and_two_pow_sub_one_eq_mod byte.toNat 4
      rw [UInt8.toNat_and]
      change byte.toNat &&& 15 < 16
      omega
    simp only [toHexFrom, List.mem_append, List.mem_cons] at member
    rcases member with dash | rfl | rfl | further
    · split_ifs at dash
      · rw [List.mem_singleton.mp dash]
        rfl
      · exact absurd dash List.not_mem_nil
    · exact hexDigit_graphic high
    · exact hexDigit_graphic low
    · exact ih _ b further

theorem toHexString_graphic (id : HostId) : ∀ b ∈ toHexString id, graphic b = true := toHexFrom_graphic 4 0 id.bytes

theorem hex_utf8 (W : WideText U) (id : HostId) : W.wideToUtf8String ((toHexString id).map W.ofAscii) = toHexString id :=
  W.toUtf8_ascii _ fun b member => graphic_ascii (toHexString_graphic id b member)

theorem stateText_graphic (state : PeerConnState) : ∀ b ∈ stateText state, graphic b = true := by
  cases state <;> exact List.all_eq_true.mp (by decide)

theorem osText_graphic (os : UInt16) : ∀ b ∈ osText os, graphic b = true := by
  unfold osText
  split_ifs <;> exact List.all_eq_true.mp (by decide)

theorem decimal_graphic (n : Nat) : ∀ b ∈ decimal n, graphic b = true :=
  fun b member => isDigit_graphic (decimal_digits n b member)

theorem scrub_clean (s : Bytes) : newline ∉ scrub s := by
  intro member
  obtain ⟨c, -, scrubbed⟩ := List.mem_map.mp member
  split_ifs at scrubbed with control
  · exact absurd scrubbed (by decide)
  · exact control (.inl (scrubbed ▸ by decide))

theorem scrub_scrub (s : Bytes) : scrub (scrub s) = scrub s := by
  rw [scrub, scrub, List.map_map]
  apply List.map_congr_left
  intro c _
  by_cases control : c < 0x20 ∨ c = 0x7F
  · simp [control]
  · simp [control]

theorem connFields_length (now : Int) (requester : HostId) (item : PeerDisplayItem U) :
    (connFields now requester item).length ≤ 191 := by
  have printed : ∀ n : UInt64, (decimal n.toNat).length ≤ 20 := fun n =>
    decimal_length (n.toNat_lt.trans (by decide))
  have state : (stateText item.outgoingConnState).length ≤ 10 := by cases item.outgoingConnState <;> decide
  have os : (osText item.osType).length ≤ 7 := by
    unfold osText
    split_ifs <;> decide
  simp only [connFields, List.length_append]
  calc
    _ ≤ 8 + (20 + (5 + (20 + (7 + (10 + (5 + (20 + (4 + (20 + (4 + (20 + (4 + (7 + 4))))))))))))) := by
      repeat' apply Nat.add_le_add
      all_goals first | exact printed _ | exact state | exact os | decide
    _ ≤ 191 := by decide

theorem connLine_eq (W : WideText U) (now : Int) (requester : HostId) (item : PeerDisplayItem U) :
    connLine W now requester item = connFields now requester item ++ (toHexString item.hostID ++
      (ascii " name=" ++ scrub (W.wideToUtf8String item.hostName))) := by
  rw [connLine, hex_utf8, List.take_of_length_le (connFields_length now requester item)]

end ClippProof.Gateway
