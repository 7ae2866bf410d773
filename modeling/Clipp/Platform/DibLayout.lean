import Mathlib.Algebra.Order.Ring.Nat
import Mathlib.Tactic.Ring
import Clipp.Platform.Dib

open Foundation

namespace ClippProof.Platform

open ClippModel.Platform

variable {dib : Dib} {d : DibPixelDecode} {offset a b n : Nat}

def word (dib : Dib) : Nat → Nat → Nat
  | _, 0 => 0
  | offset, width + 1 => (dib.byte offset).toNat + 256 * word dib (offset + 1) width

theorem word_lt (dib : Dib) (offset width : Nat) : word dib offset width < 256 ^ width := by
  induction width generalizing offset with
  | zero => exact Nat.one_pos
  | succ width ih =>
    have low := (dib.byte offset).toNat_lt
    have high := ih (offset + 1)
    rw [word, Nat.pow_succ]
    omega

theorem readByte_eq (inside : offset < dib.dibSize.toNat) : dib.readByte offset = .ok (dib.byte offset) :=
  if_pos inside

theorem or_shiftLeft_eq {low shift : UInt32} {high : UInt8} (k : Nat) (by_ : shift.toNat = k) (fits : k ≤ 24)
    (below : low.toNat < 2 ^ k) :
    (low ||| high.toUInt32 <<< shift).toNat = low.toNat + 2 ^ k * high.toNat := by
  have byte := high.toNat_lt
  have room : high.toNat <<< k < 2 ^ 32 := by
    rw [Nat.shiftLeft_eq]
    calc high.toNat * 2 ^ k ≤ 255 * 2 ^ 24 := Nat.mul_le_mul (by omega) (Nat.pow_le_pow_right (by omega) fits)
      _ < 2 ^ 32 := by omega
  rw [UInt32.toNat_or, UInt32.toNat_shiftLeft, by_, Nat.mod_eq_of_lt (show k < 32 by omega), UInt8.toNat_toUInt32,
    Nat.mod_eq_of_lt room, Nat.or_comm, ← Nat.shiftLeft_add_eq_or_of_lt below, Nat.shiftLeft_eq]
  ring

theorem readLe16_eq (inside : offset + 2 ≤ dib.dibSize.toNat) :
    dib.readLe16 offset = .ok (UInt32.ofNat (word dib offset 2)) := by
  have value : (dib.byte offset).toUInt32 ||| (dib.byte (offset + 1)).toUInt32 <<< 8 =
      UInt32.ofNat (word dib offset 2) := by
    have byte0 := (dib.byte offset).toNat_lt
    have byte1 := (dib.byte (offset + 1)).toNat_lt
    have two : ((dib.byte offset).toUInt32 ||| (dib.byte (offset + 1)).toUInt32 <<< 8).toNat =
        (dib.byte offset).toNat + 2 ^ 8 * (dib.byte (offset + 1)).toNat := or_shiftLeft_eq 8 rfl (by omega) byte0
    apply UInt32.toNat_inj.mp
    rw [two, UInt32.toNat_ofNat']
    simp only [word]
    omega
  unfold Dib.readLe16
  rw [readByte_eq (show offset < _ by omega), readByte_eq (show offset + 1 < _ by omega), ← value]
  rfl

theorem readLe32_eq (inside : offset + 4 ≤ dib.dibSize.toNat) :
    dib.readLe32 offset = .ok (UInt32.ofNat (word dib offset 4)) := by
  have value : (dib.byte offset).toUInt32 ||| (dib.byte (offset + 1)).toUInt32 <<< 8 |||
      (dib.byte (offset + 2)).toUInt32 <<< 16 ||| (dib.byte (offset + 3)).toUInt32 <<< 24 =
      UInt32.ofNat (word dib offset 4) := by
    have byte0 := (dib.byte offset).toNat_lt
    have byte1 := (dib.byte (offset + 1)).toNat_lt
    have byte2 := (dib.byte (offset + 2)).toNat_lt
    have byte3 := (dib.byte (offset + 3)).toNat_lt
    have two : ((dib.byte offset).toUInt32 ||| (dib.byte (offset + 1)).toUInt32 <<< 8).toNat =
        (dib.byte offset).toNat + 2 ^ 8 * (dib.byte (offset + 1)).toNat := or_shiftLeft_eq 8 rfl (by omega) byte0
    have three : ((dib.byte offset).toUInt32 ||| (dib.byte (offset + 1)).toUInt32 <<< 8 |||
        (dib.byte (offset + 2)).toUInt32 <<< 16).toNat =
        (dib.byte offset).toNat + 2 ^ 8 * (dib.byte (offset + 1)).toNat + 2 ^ 16 * (dib.byte (offset + 2)).toNat := by
      rw [or_shiftLeft_eq 16 rfl (by omega) (by omega), two]
    apply UInt32.toNat_inj.mp
    rw [or_shiftLeft_eq 24 rfl (by omega) (by omega), three, UInt32.toNat_ofNat']
    simp only [word, Nat.add_assoc, Nat.reduceAdd]
    omega
  unfold Dib.readLe32
  rw [readByte_eq (show offset < _ by omega), readByte_eq (show offset + 1 < _ by omega),
    readByte_eq (show offset + 2 < _ by omega), readByte_eq (show offset + 3 < _ by omega), ← value]
  rfl

/-- The call fails with a reason; nothing is read or written outside and no size wraps. -/
def Refuses (stop : Stop) : Prop := ∃ reason, stop = .refused reason

theorem ends_require {condition : Prop} [Decidable condition] {reason : Refusal} :
    Ends (fun _ => condition) Refuses (require condition reason) := by
  unfold require
  split_ifs with holds
  · exact holds
  · exact ⟨reason, rfl⟩

theorem size_eq (fits : n < 2 ^ 64) : size n = .ok n := if_pos fits

theorem ends_size (fits : n < 2 ^ 64) : Ends (fun m => m = n) Refuses (size n) := .of_eq (size_eq fits) rfl

theorem ends_checkedMulSize {reason : Refusal} :
    Ends (fun product => product = a * b ∧ a * b < 2 ^ 64) Refuses (checkedMulSize a b reason) := by
  unfold checkedMulSize
  split_ifs with tooLarge
  · exact ⟨reason, rfl⟩
  · have fits : a * b < 2 ^ 64 := by
      by_cases zero : a = 0
      · rw [zero, Nat.zero_mul]
        omega
      · have bound : b ≤ (2 ^ 64 - 1) / a := Nat.le_of_not_lt (fun more => tooLarge ⟨zero, more⟩)
        have product : a * b ≤ 2 ^ 64 - 1 := (Nat.mul_comm a b).trans_le
          ((Nat.le_div_iff_mul_le (Nat.pos_of_ne_zero zero)).mp bound)
        omega
    exact .of_eq (size_eq fits) ⟨rfl, fits⟩

def headerOf (dib : Dib) : BitmapInfoHeader where
  biSize := UInt32.ofNat (word dib 0 4)
  biWidth := (UInt32.ofNat (word dib 4 4)).toInt32
  biHeight := (UInt32.ofNat (word dib 8 4)).toInt32
  biPlanes := (UInt32.ofNat (word dib 12 2)).toUInt16
  biBitCount := (UInt32.ofNat (word dib 14 2)).toUInt16
  biCompression := UInt32.ofNat (word dib 16 4)
  biClrUsed := UInt32.ofNat (word dib 32 4)

theorem readHeader_eq (inside : 40 ≤ dib.dibSize.toNat) : readHeader dib = .ok (headerOf dib) := by
  unfold readHeader
  rw [readLe32_eq (show 0 + 4 ≤ _ by omega), readLe32_eq (show 4 + 4 ≤ _ by omega),
    readLe32_eq (show 8 + 4 ≤ _ by omega), readLe16_eq (show 12 + 2 ≤ _ by omega),
    readLe16_eq (show 14 + 2 ≤ _ by omega), readLe32_eq (show 16 + 4 ≤ _ by omega),
    readLe32_eq (show 32 + 4 ≤ _ by omega)]
  rfl

/-- A header that brings its own masks, in the fields after the first forty bytes. -/
def OwnMasks (header : BitmapInfoHeader) : Prop := 108 ≤ header.biSize.toNat

instance (header : BitmapInfoHeader) : Decidable (OwnMasks header) := inferInstanceAs (Decidable (_ ≤ _))

def masksAt (dib : Dib) (offset : Nat) (alpha : Bool) : Masks where
  redMask := UInt32.ofNat (word dib offset 4)
  greenMask := UInt32.ofNat (word dib (offset + 4) 4)
  blueMask := UInt32.ofNat (word dib (offset + 8) 4)
  alphaMask := if alpha then UInt32.ofNat (word dib (offset + 12) 4) else 0

def impliedMasks (header : BitmapInfoHeader) : Masks :=
  if header.biBitCount = 16 then { redMask := 0x7c00, greenMask := 0x03e0, blueMask := 0x001f }
  else if header.biBitCount = 32 then
    { redMask := 0x00ff0000, greenMask := 0x0000ff00, blueMask := 0x000000ff, alphaMask := 0xff000000 }
  else {}

def masksOf (dib : Dib) (header : BitmapInfoHeader) : Masks :=
  if header.bitfields then
    if OwnMasks header then masksAt dib 40 true
    else masksAt dib header.biSize.toNat (header.biCompression = biAlphaBitfields)
  else impliedMasks header

/-- The palette follows the header, and the masks where these stand between. -/
def paletteOf (header : BitmapInfoHeader) : Nat :=
  header.biSize.toNat + if header.bitfields ∧ ¬ OwnMasks header then header.maskBytes else 0

theorem ends_readMasks {header : BitmapInfoHeader} (inside : header.biSize.toNat ≤ dib.dibSize.toNat) :
    Ends (fun found => found = (masksOf dib header, paletteOf header) ∧ paletteOf header ≤ dib.dibSize.toNat) Refuses
      (readMasks dib header) := by
  have held := dib.dibSize.toNat_lt
  unfold readMasks masksOf paletteOf
  dsimp only
  by_cases fields : header.bitfields = true
  · by_cases own : OwnMasks header
    · have room : 108 ≤ header.biSize.toNat := own
      rw [if_pos fields, if_pos fields, if_pos own, if_neg (fun both => both.2 own),
        if_pos (show sizeofBitmapV4Header ≤ _ from own), readLe32_eq (show 40 + 4 ≤ _ by omega),
        readLe32_eq (show 44 + 4 ≤ _ by omega), readLe32_eq (show 48 + 4 ≤ _ by omega),
        readLe32_eq (show 52 + 4 ≤ _ by omega)]
      exact ⟨rfl, inside⟩
    · rw [if_pos fields, if_pos fields, if_neg own, if_pos ⟨fields, own⟩,
        if_neg (show ¬ sizeofBitmapV4Header ≤ _ from own)]
      apply ends_require.bind
      intro _ room
      have masks : header.biSize.toNat + header.maskBytes ≤ dib.dibSize.toNat := by omega
      have least : 12 ≤ header.maskBytes := by
        unfold BitmapInfoHeader.maskBytes
        split_ifs <;> omega
      have alpha : readAlphaMask dib header =
          .ok (masksAt dib header.biSize.toNat (header.biCompression = biAlphaBitfields)).alphaMask := by
        unfold BitmapInfoHeader.maskBytes at masks
        unfold readAlphaMask BitmapInfoHeader.maskBytes masksAt
        by_cases four : header.biCompression = biAlphaBitfields
        · simp only [four, if_true, decide_true] at masks ⊢
          exact readLe32_eq (by omega)
        · simp only [four, if_false, decide_false]
          rfl
      rw [readLe32_eq (show header.biSize.toNat + 4 ≤ _ by omega),
        readLe32_eq (show header.biSize.toNat + 4 + 4 ≤ _ by omega),
        readLe32_eq (show header.biSize.toNat + 8 + 4 ≤ _ by omega), alpha,
        size_eq (show header.biSize.toNat + header.maskBytes < 2 ^ 64 by omega)]
      exact ⟨rfl, masks⟩
  · rw [if_neg fields, if_neg fields, if_neg (fun both => fields both.1)]
    unfold impliedMasks
    split_ifs
    · exact ⟨rfl, inside⟩
    · exact ⟨rfl, inside⟩
    · exact ⟨rfl, inside⟩

def layout (dib : Dib) : DibPixelDecode :=
  let header := headerOf dib
  { dst := List.replicate (header.width * header.height * 4) 0
    pixels := paletteOf header + header.dibColorTableEntries * 4
    palette := paletteOf header
    width := header.width
    height := header.height
    rowStride := (header.width * header.biBitCount.toNat + 31) / 32 * 4
    paletteEntries := header.dibColorTableEntries
    masks := masksOf dib header
    bitCount := header.biBitCount.toNat
    bottomUp := 0 < header.biHeight.toInt
    standard32BppBgra := header.biBitCount.toNat = 32 && isStandard32BppBgra (masksOf dib header)
    preserveAlpha := header.biCompression = biAlphaBitfields && (masksOf dib header).alphaMask ≠ 0 }

/-- The checks leave a picture that lies within the bitmap and within the buffer. -/
structure InBounds (dib : Dib) (d : DibPixelDecode) : Prop where
  depth : d.bitCount ∈ [1, 4, 8, 16, 24, 32]
  rowStride : d.rowStride = (d.width * d.bitCount + 31) / 32 * 4
  pixels : d.pixels + d.rowStride * d.height ≤ dib.dibSize.toNat
  palette : d.palette + d.paletteEntries * 4 ≤ d.pixels
  rgba : d.dst.length = d.width * d.height * 4
  area : d.width * d.height * 4 < 2 ^ 64
  standard : d.standard32BppBgra = true → d.bitCount = 32 ∧ isStandard32BppBgra d.masks = true
  alpha : d.preserveAlpha = true → d.masks.alphaMask ≠ 0

theorem width_lt (header : BitmapInfoHeader) : header.width < 2 ^ 31 := by
  have bound := header.biWidth.toInt_lt
  unfold BitmapInfoHeader.width
  omega

theorem height_le (header : BitmapInfoHeader) : header.height ≤ 2 ^ 31 := by
  have top := header.biHeight.toInt_lt
  have bottom := header.biHeight.le_toInt
  unfold BitmapInfoHeader.height
  split_ifs <;> omega

theorem layout_inBounds (depth : (headerOf dib).biBitCount.toNat ∈ [1, 4, 8, 16, 24, 32])
    (pixels : ¬ (dib.dibSize.toNat < (layout dib).pixels ∨
      dib.dibSize.toNat - (layout dib).pixels < (layout dib).rowStride * (headerOf dib).height))
    (fits : (headerOf dib).width * (headerOf dib).height * 4 < 2 ^ 64) : InBounds dib (layout dib) where
  depth := by simpa only [layout] using depth
  rowStride := by simp only [layout]
  pixels := by
    simp only [layout] at pixels ⊢
    omega
  palette := by simp only [layout, le_refl]
  rgba := by simp only [layout, List.length_replicate]
  area := by simpa only [layout] using fits
  standard := by
    intro standard
    simpa only [layout, Bool.and_eq_true, decide_eq_true_eq] using standard
  alpha := by
    intro alpha
    simp only [layout, Bool.and_eq_true, decide_eq_true_eq] at alpha ⊢
    exact alpha.2

theorem ends_parseDib (spanIsReadable : Nat → Nat → Bool) (dib : Dib) :
    Ends (fun d => d = layout dib ∧ InBounds dib d) Refuses (parseDib spanIsReadable dib) := by
  have held := dib.dibSize.toNat_lt
  unfold parseDib
  -- the checks in the order of the source; each leaves a fact that the later ones rest on
  apply ends_require.bind
  intro _ fixed
  have inside : 40 ≤ dib.dibSize.toNat := fixed
  have header : Ends (fun header => header = headerOf dib) Refuses (readHeader dib) := .of_eq (readHeader_eq inside) rfl
  apply header.bind
  intro header same
  subst same
  apply ends_require.bind
  intro _ headerSize
  apply ends_require.bind
  intro _ geometry
  apply ends_require.bind
  intro _ depth
  apply ends_require.bind
  intro _ _
  have columns := width_lt (headerOf dib)
  have rows := height_le (headerOf dib)
  have deep : (headerOf dib).biBitCount.toNat ≤ 32 := by
    simp only [List.mem_cons, List.not_mem_nil, or_false] at depth
    omega
  apply ends_checkedMulSize.bind
  intro rowBits bits
  obtain ⟨rfl, bits⟩ := bits
  have bounded : (headerOf dib).width * (headerOf dib).biBitCount.toNat ≤ 2 ^ 31 * 32 := Nat.mul_le_mul columns.le deep
  apply (ends_size (by omega)).bind
  intro rounded same
  subst same
  apply (ends_size (by omega)).bind
  intro rowStride same
  subst same
  apply ends_checkedMulSize.bind
  intro pixelBytes product
  obtain ⟨rfl, _⟩ := product
  have headerFits : (headerOf dib).biSize.toNat ≤ dib.dibSize.toNat := headerSize.2
  apply (ends_readMasks headerFits).bind
  intro found masks
  obtain ⟨rfl, beyond⟩ := masks
  apply ends_checkedMulSize.bind
  intro paletteBytes product
  obtain ⟨rfl, _⟩ := product
  apply ends_require.bind
  intro _ palette
  have paletteFits : paletteOf (headerOf dib) + (headerOf dib).dibColorTableEntries * 4 ≤ dib.dibSize.toNat := by
    simp only [sizeofRgbQuad] at palette
    omega
  apply (ends_size (show paletteOf _ + _ * sizeofRgbQuad < _ by simp only [sizeofRgbQuad]; omega)).bind
  intro pixelOffset same
  subst same
  apply ends_require.bind
  intro _ pixels
  apply ends_checkedMulSize.bind
  intro area product
  obtain ⟨rfl, _⟩ := product
  apply ends_checkedMulSize.bind
  intro rgbaBytes product
  obtain ⟨rfl, fits⟩ := product
  apply ends_require.bind
  intro _ _
  exact .of_eq (a := layout dib) rfl ⟨rfl, layout_inBounds depth pixels fits⟩

end ClippProof.Platform
