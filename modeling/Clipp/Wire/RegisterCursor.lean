import Clipp.Foundation.Cursor
import Clipp.Wire.RegisterDigest

open Foundation

namespace ClippModel.Wire

open ClippModel.Registers

namespace RegisterCursor

-- The decoders as the code runs them, on a pointer and the count of what remains.

open RegisterWire Scan

def u8 : Scan UInt8 := do
  need 1
  let out ← peek 0
  advance 1
  return out

def joined16 : Scan Nat := do
  let p0 ← peek 0
  let p1 ← peek 1
  return (p0.toUInt16 <<< 8 ||| p1.toUInt16).toNat

def u16 : Scan Nat := do
  need 2
  let out ← joined16
  advance 2
  return out

def joined32 : Scan Nat := do
  let p0 ← peek 0
  let p1 ← peek 1
  let p2 ← peek 2
  let p3 ← peek 3
  return (p0.toUInt32 <<< 24 ||| p1.toUInt32 <<< 16 ||| p2.toUInt32 <<< 8 ||| p3.toUInt32).toNat

def u32 : Scan Nat := do
  need 4
  let out ← joined32
  advance 4
  return out

/-- The loop of `U64`: from the index on, so many bytes are shifted in. -/
def shiftIn : Nat → Nat → UInt64 → Scan UInt64
  | 0, _, out => pure out
  | count + 1, i, out => do
    let b ← peek i
    shiftIn count (i + 1) (out <<< 8 ||| b.toUInt64)

def joined64 : Scan Nat := do
  let out ← shiftIn 8 0 0
  return out.toNat

def u64 : Scan Nat := do
  need 8
  let out ← joined64
  advance 8
  return out

def copiedHlc : Scan Hlc := do
  let a ← copy 16
  return Hlc.unpack a

def readHlc : Scan Hlc := do
  need 16
  let out ← copiedHlc
  advance 16
  return out

def hostIdOf (field : Bytes) : HostId :=
  if size : field.length = HostId.kSize then ⟨field, size⟩ else HostId.zero

def copiedHostId : Scan HostId := do
  let bytes ← copy HostId.kSize
  return hostIdOf bytes

def readHostId : Scan HostId := do
  need HostId.kSize
  let out ← copiedHostId
  advance HostId.kSize
  return out

def readString (n : Nat) : Scan Bytes := do
  need n
  let out ← copy n
  advance n
  return out

def record : Scan (RegisterRecord × UInt8) := do
  let version ← u8
  check (version = kVersion)
  let recordFlags ← u8
  let transport ← u8
  let _reserved ← u8
  let written ← readHlc
  let touched ← readHlc
  let origin ← readHostId
  let nameLen ← u16
  check (nameLen ≤ kMaxNameLen)
  let name ← readString nameLen
  let valueLen ← u32
  check (valueLen ≤ kMaxValueLen)
  let value ← readString valueLen
  return ({ name := name, value := value, written := written, touched := touched,
            originHostId := origin, flags := recordFlags }, transport)

def digestEntry : Scan RegisterDigestEntry := do
  let nameLen ← u16
  check (nameLen ≤ kMaxNameLen)
  let name ← readString nameLen
  let written ← readHlc
  let touched ← readHlc
  return { name := name, written := written, touched := touched }

def digest : Scan (List RegisterDigestEntry) := do
  let version ← u8
  check (version = kVersion)
  let count ← u16
  check (count ≤ kMaxDigestEntries)
  times count digestEntry

def name : Scan Bytes := do
  let version ← u8
  check (version = kVersion)
  let nameLen ← u16
  check (nameLen ≤ kMaxNameLen)
  readString nameLen

def listEntry : Scan RegisterListEntry := do
  let nameLen ← u16
  check (nameLen ≤ kMaxNameLen)
  let name ← readString nameLen
  let touched ← readHlc
  let valueSize ← u64
  let origin ← readHostId
  let flags ← u8
  let previewLen ← u16
  check (previewLen ≤ kMaxPreviewLen)
  let preview ← readString previewLen
  let originNameLen ← u16
  check (originNameLen ≤ kMaxOriginNameLen)
  let originHostName ← readString originNameLen
  return { name := name, touched := touched, valueSize := UInt64.ofNat valueSize, originHostId := origin,
           flags := flags, preview := preview, originHostName := originHostName }

def list : Scan (List RegisterListEntry) := do
  let version ← u8
  check (version = kVersion)
  let count ← u16
  check (count ≤ kMaxDigestEntries)
  times count listEntry

/-- Trailing bytes are refused by all of them. -/
def tryDecodeRecord (body : Bytes) : Except ScanStop (RegisterRecord × UInt8) := Scan.whole record body
def tryDecodeDigest (body : Bytes) : Except ScanStop (List RegisterDigestEntry) := Scan.whole digest body
def tryDecodeName (body : Bytes) : Except ScanStop Bytes := Scan.whole name body
def tryDecodeList (body : Bytes) : Except ScanStop (List RegisterListEntry) := Scan.whole list body

end RegisterCursor

end ClippModel.Wire

namespace ClippProof.Wire

open ClippModel.Registers ClippModel.Wire ClippModel.Wire.RegisterWire

variable {c : Cursor} {offset : Nat} {b p0 p1 p2 p3 : UInt8} {tail : Bytes}

theorem peek_rest (here : c.rest[offset]? = some b) : Scan.peek offset c = .ok (b, c) := by
  rw [Cursor.rest, List.getElem?_drop] at here
  unfold Scan.peek
  rw [here]

theorem or_low {n k m : Nat} (fits : m < 2 ^ k) : n * 2 ^ k ||| m = n * 2 ^ k + m := by
  rw [← Nat.shiftLeft_eq, Nat.shiftLeft_add_eq_or_of_lt fits]

theorem u16_number : (p0.toUInt16 <<< 8 ||| p1.toUInt16).toNat = number [p0, p1] := by
  have high := p0.toNat_lt
  have low := p1.toNat_lt
  have shift : (8 : UInt16).toNat % 16 = 8 := rfl
  rw [UInt16.toNat_or, UInt16.toNat_shiftLeft, shift, UInt8.toNat_toUInt16, UInt8.toNat_toUInt16, Nat.shiftLeft_eq,
    Nat.mod_eq_of_lt (by omega), or_low (by omega)]
  simp only [number, List.foldl]
  omega

theorem u32_number :
    (p0.toUInt32 <<< 24 ||| p1.toUInt32 <<< 16 ||| p2.toUInt32 <<< 8 ||| p3.toUInt32).toNat =
      number [p0, p1, p2, p3] := by
  have fits0 := p0.toNat_lt
  have fits1 := p1.toNat_lt
  have fits2 := p2.toNat_lt
  have fits3 := p3.toNat_lt
  have shift24 : (24 : UInt32).toNat % 32 = 24 := rfl
  have shift16 : (16 : UInt32).toNat % 32 = 16 := rfl
  have shift8 : (8 : UInt32).toNat % 32 = 8 := rfl
  have two : p0.toNat * 2 ^ 24 ||| p1.toNat * 2 ^ 16 = (p0.toNat * 2 ^ 8 + p1.toNat) * 2 ^ 16 := by
    rw [or_low (by omega)]
    omega
  have three : (p0.toNat * 2 ^ 8 + p1.toNat) * 2 ^ 16 ||| p2.toNat * 2 ^ 8 =
      ((p0.toNat * 2 ^ 8 + p1.toNat) * 2 ^ 8 + p2.toNat) * 2 ^ 8 := by
    rw [or_low (by omega)]
    omega
  simp only [UInt32.toNat_or, UInt32.toNat_shiftLeft, shift24, shift16, shift8, UInt8.toNat_toUInt32, Nat.shiftLeft_eq]
  rw [Nat.mod_eq_of_lt (show p0.toNat * 2 ^ 24 < 2 ^ 32 by omega),
    Nat.mod_eq_of_lt (show p1.toNat * 2 ^ 16 < 2 ^ 32 by omega),
    Nat.mod_eq_of_lt (show p2.toNat * 2 ^ 8 < 2 ^ 32 by omega), two, three, or_low (by omega)]
  simp only [number, List.foldl]
  omega

def shifted (out : UInt64) (field : Bytes) : UInt64 := field.foldl (fun word b => word <<< 8 ||| b.toUInt64) out

theorem shiftIn_reads (count : Nat) {i : Nat} (out : UInt64) (there : i + count ≤ c.rest.length) :
    RegisterCursor.shiftIn count i out c =
      .ok (shifted out ((c.rest.drop i).take count), c) := by
  induction count generalizing i out with
  | zero => rfl
  | succ count ih =>
    have inside : i < c.rest.length := by omega
    have here : c.rest[i]? = some c.rest[i] := List.getElem?_eq_getElem inside
    rw [RegisterCursor.shiftIn, Scan.bind_ok (peek_rest here), ih _ (by omega), List.drop_eq_getElem_cons inside,
      List.take_succ_cons, shifted, shifted, List.foldl_cons]

theorem shifted_byte (out : UInt64) (b : UInt8) (fits : out.toNat * 256 + b.toNat < 2 ^ 64) :
    (out <<< 8 ||| b.toUInt64).toNat = out.toNat * 256 + b.toNat := by
  have low := b.toNat_lt
  have kept : out.toNat * 2 ^ 8 < 2 ^ 64 := (Nat.le_add_right _ _).trans_lt fits
  have shift : (8 : UInt64).toNat % 64 = 8 := rfl
  rw [UInt64.toNat_or, UInt64.toNat_shiftLeft, shift, UInt8.toNat_toUInt64, Nat.shiftLeft_eq, Nat.mod_eq_of_lt kept,
    or_low low]
  rfl

theorem shifted_number (field : Bytes) (out : UInt64) (fits : out.toNat * 256 ^ field.length + number field < 2 ^ 64) :
    (shifted out field).toNat = out.toNat * 256 ^ field.length + number field := by
  induction field generalizing out with
  | nil => simp [shifted, number]
  | cons b tail ih =>
    have split : out.toNat * 256 ^ (b :: tail).length + number (b :: tail) =
        (out.toNat * 256 + b.toNat) * 256 ^ tail.length + number tail := by
      rw [number_cons, List.length_cons]
      ring
    have small : out.toNat * 256 + b.toNat < 2 ^ 64 := by
      have positive : 1 ≤ 256 ^ tail.length := Nat.one_le_pow _ _ (by decide)
      have grows := Nat.le_mul_of_pos_right (out.toNat * 256 + b.toNat) positive
      omega
    have next := shifted_byte out b small
    rw [split] at fits ⊢
    exact (ih _ (by rwa [next])).trans (by rw [next])

theorem looks_byte (c : Cursor) (sound : c.Sound) (enough : 1 ≤ c.remaining) :
    Scan.peek 0 c = .ok ((c.rest.take 1).headD 0, c) := by
  have size := sound.rest_length
  cases rest : c.rest with
  | nil =>
    rw [rest, List.length_nil] at size
    omega
  | cons b tail => exact peek_rest (by rw [rest]; rfl)

theorem looks_joined16 (c : Cursor) (sound : c.Sound) (enough : 2 ≤ c.remaining) :
    RegisterCursor.joined16 c = .ok (number (c.rest.take 2), c) := by
  have size := sound.rest_length
  match rest : c.rest with
  | [] | [_] =>
    simp only [rest, List.length_cons, List.length_nil] at size
    omega
  | p0 :: p1 :: tail =>
    rw [RegisterCursor.joined16, Scan.bind_ok (peek_rest (b := p0) (by rw [rest]; rfl)),
      Scan.bind_ok (peek_rest (b := p1) (by rw [rest]; rfl)), u16_number]
    rfl

theorem looks_joined32 (c : Cursor) (sound : c.Sound) (enough : 4 ≤ c.remaining) :
    RegisterCursor.joined32 c = .ok (number (c.rest.take 4), c) := by
  have size := sound.rest_length
  match rest : c.rest with
  | [] | [_] | [_, _] | [_, _, _] =>
    simp only [rest, List.length_cons, List.length_nil] at size
    omega
  | p0 :: p1 :: p2 :: p3 :: tail =>
    rw [RegisterCursor.joined32, Scan.bind_ok (peek_rest (b := p0) (by rw [rest]; rfl)),
      Scan.bind_ok (peek_rest (b := p1) (by rw [rest]; rfl)), Scan.bind_ok (peek_rest (b := p2) (by rw [rest]; rfl)),
      Scan.bind_ok (peek_rest (b := p3) (by rw [rest]; rfl)), u32_number]
    rfl

theorem looks_joined64 (c : Cursor) (sound : c.Sound) (enough : 8 ≤ c.remaining) :
    RegisterCursor.joined64 c = .ok (number (c.rest.take 8), c) := by
  have size := sound.rest_length
  have width : (c.rest.take 8).length = 8 := List.length_take_of_le (by omega)
  have fits := number_lt (c.rest.take 8)
  rw [width] at fits
  have word := shifted_number (c.rest.take 8) 0 (by rw [width]; simpa using fits)
  rw [RegisterCursor.joined64, Scan.bind_ok (shiftIn_reads 8 0 (by omega)), List.drop_zero, word]
  simp only [UInt64.toNat_zero, Nat.zero_mul, Nat.zero_add]
  rfl

theorem follows_u8 : Scan.Follows RegisterCursor.u8 u8 := by
  have same : u8 = (do
      let field ← Reader.bytes 1
      return field.headD 0) := by
    funext input
    cases input with
    | nil => rfl
    | cons b rest => rfl
  rw [same]
  exact .field looks_byte

theorem follows_u16 : Scan.Follows RegisterCursor.u16 (Reader.int 2) := .field looks_joined16

theorem follows_u32 : Scan.Follows RegisterCursor.u32 (Reader.int 4) := .field looks_joined32

theorem follows_u64 : Scan.Follows RegisterCursor.u64 (Reader.int 8) := .field looks_joined64

theorem follows_hlc : Scan.Follows RegisterCursor.readHlc readHlc := by
  refine .field fun c sound enough => ?_
  rw [RegisterCursor.copiedHlc, Scan.bind_ok (Scan.looks_copy c sound enough)]
  rfl

theorem follows_hostId : Scan.Follows RegisterCursor.readHostId readHostId := by
  have same : readHostId = (do
      let field ← Reader.bytes HostId.kSize
      return RegisterCursor.hostIdOf field) := by
    funext input
    change readHostId input = (Reader.bytes HostId.kSize input).bind _
    by_cases size : HostId.kSize ≤ input.length
    · have width := List.length_take_of_le size
      rw [readHostId, dif_pos size, Reader.bytes, if_neg (not_lt.mpr size), Option.bind_some]
      simp only [RegisterCursor.hostIdOf, width, dif_pos]
      rfl
    · rw [readHostId, dif_neg size, Reader.bytes, if_pos (not_le.mp size), Option.bind_none]
  rw [same]
  refine .field fun c sound enough => ?_
  rw [RegisterCursor.copiedHostId, Scan.bind_ok (Scan.looks_copy c sound enough)]
  rfl

theorem follows_string (n : Nat) : Scan.Follows (RegisterCursor.readString n) (Reader.bytes n) := by
  have here : Scan.Follows (RegisterCursor.readString n) (Reader.bytes n >>= fun field => pure (id field)) :=
    .field Scan.looks_copy
  exact (bind_pure (Reader.bytes n)) ▸ here

theorem follows_record : Scan.Follows RegisterCursor.record recordBody :=
  follows_u8.bind fun _ => .bind (.check _) fun _ => follows_u8.bind fun _ => follows_u8.bind fun _ =>
    follows_u8.bind fun _ => follows_hlc.bind fun _ => follows_hlc.bind fun _ => follows_hostId.bind fun _ =>
      follows_u16.bind fun _ => .bind (.check _) fun _ => (follows_string _).bind fun _ =>
        follows_u32.bind fun _ => .bind (.check _) fun _ => (follows_string _).bind fun _ => .pure _

theorem follows_digestEntry : Scan.Follows RegisterCursor.digestEntry digestEntryBody :=
  follows_u16.bind fun _ => .bind (.check _) fun _ => (follows_string _).bind fun _ =>
    follows_hlc.bind fun _ => follows_hlc.bind fun _ => .pure _

theorem follows_digest : Scan.Follows RegisterCursor.digest digestBody :=
  follows_u8.bind fun _ => .bind (.check _) fun _ => follows_u16.bind fun _ => .bind (.check _) fun _ =>
    follows_digestEntry.times _

theorem follows_name : Scan.Follows RegisterCursor.name nameBody :=
  follows_u8.bind fun _ => .bind (.check _) fun _ => follows_u16.bind fun _ => .bind (.check _) fun _ =>
    follows_string _

theorem follows_listEntry : Scan.Follows RegisterCursor.listEntry listEntryBody :=
  follows_u16.bind fun _ => .bind (.check _) fun _ => (follows_string _).bind fun _ => follows_hlc.bind fun _ =>
    follows_u64.bind fun _ => follows_hostId.bind fun _ => follows_u8.bind fun _ => follows_u16.bind fun _ =>
      .bind (.check _) fun _ => (follows_string _).bind fun _ => follows_u16.bind fun _ =>
        .bind (.check _) fun _ => (follows_string _).bind fun _ => .pure _

theorem follows_list : Scan.Follows RegisterCursor.list listBody :=
  follows_u8.bind fun _ => .bind (.check _) fun _ => follows_u16.bind fun _ => .bind (.check _) fun _ =>
    follows_listEntry.times _

end ClippProof.Wire
