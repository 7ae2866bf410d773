import Clipp.Platform.DibLayout
import Clipp.Platform.MaskScaling

open Foundation

namespace ClippProof.Platform

open ClippModel.Platform

variable {dib : Dib} {d : DibPixelDecode} {rgba : Bytes} {row x y at_ j k : Nat} {p : Rgba}

def pixelIndex (dib : Dib) (bitCount row x : Nat) : Nat :=
  (dib.byte (row + x * bitCount / 8)).toNat / 2 ^ (8 - bitCount - x * bitCount % 8) % 2 ^ bitCount

def pixelValue (dib : Dib) (bitCount row x : Nat) : UInt32 :=
  UInt32.ofNat (word dib (row + x * (bitCount / 8)) (bitCount / 8))

def opaqueAt (dib : Dib) (offset : Nat) : Rgba :=
  { r := dib.byte (offset + 2), g := dib.byte (offset + 1), b := dib.byte offset, a := 255 }

def decoded (dib : Dib) (d : DibPixelDecode) (row x : Nat) : Rgba :=
  if d.bitCount = 24 then opaqueAt dib (row + x * 3)
  else if d.bitCount = 32 ∨ d.bitCount = 16 then
    let pixel := pixelValue dib d.bitCount row x
    { r := scaleMaskComponent pixel d.masks.redMask
      g := scaleMaskComponent pixel d.masks.greenMask
      b := scaleMaskComponent pixel d.masks.blueMask
      a := if d.preserveAlpha then scaleMaskComponent pixel d.masks.alphaMask else 255 }
  else opaqueAt dib (d.palette + pixelIndex dib d.bitCount row x * 4)

/-- The pixel has no index, or one that the palette has an entry for. -/
def InPalette (dib : Dib) (d : DibPixelDecode) (row x : Nat) : Prop :=
  d.bitCount ≤ 8 → pixelIndex dib d.bitCount row x < d.paletteEntries

def sourceRow (d : DibPixelDecode) (y : Nat) : Nat := if d.bottomUp then d.height - 1 - y else y

def rowAt (d : DibPixelDecode) (y : Nat) : Nat := d.pixels + sourceRow d y * d.rowStride

theorem toNat_and_low (b : UInt8) : (b &&& 0x0f).toNat = b.toNat % 16 := by
  rw [UInt8.toNat_and]
  exact Nat.and_two_pow_sub_one_eq_mod b.toNat 4

theorem toNat_shiftRight_byte (b : UInt8) (shift : Nat) (below : shift < 8) :
    (b >>> UInt8.ofNat shift).toNat = b.toNat / 2 ^ shift := by
  have small : shift % 2 ^ 8 % 8 = shift := by omega
  rw [UInt8.toNat_shiftRight, UInt8.toNat_ofNat', small, Nat.shiftRight_eq_div_pow]

theorem paletteIndex_eq {bitCount : Nat} (depth : bitCount = 1 ∨ bitCount = 4 ∨ bitCount = 8)
    (inside : row + x * bitCount / 8 < dib.dibSize.toNat) :
    paletteIndex dib bitCount row x = .ok (pixelIndex dib bitCount row x) := by
  unfold paletteIndex pixelIndex
  rcases depth with rfl | rfl | rfl
  · have place : x * 1 / 8 = x / 8 := by omega
    have shift : 8 - 1 - x * 1 % 8 = 7 - x % 8 := by omega
    rw [place] at inside
    rw [if_neg (by omega), if_neg (by omega), readByte_eq inside, place, shift, ← toNat_shiftRight_byte _ _ (by omega)]
    show Except.ok _ = Except.ok _
    rw [UInt8.toNat_and, UInt8.toNat_one, Nat.and_one_is_mod]
    rfl
  · have place : x * 4 / 8 = x / 2 := by omega
    rw [place] at inside
    rw [if_neg (by omega), if_pos rfl, readByte_eq inside, place]
    show Except.ok _ = Except.ok _
    congr 1
    by_cases even : x % 2 = 0
    · have shift : 8 - 4 - x * 4 % 8 = 4 := by omega
      have byte := (dib.byte (row + x / 2)).toNat_lt
      have high : (dib.byte (row + x / 2) >>> 4).toNat = (dib.byte (row + x / 2)).toNat / 2 ^ 4 :=
        toNat_shiftRight_byte _ 4 (by omega)
      rw [if_pos even, shift, high]
      omega
    · have shift : 8 - 4 - x * 4 % 8 = 0 := by omega
      rw [if_neg even, shift, toNat_and_low, Nat.pow_zero, Nat.div_one]
      rfl
  · have place : x * 8 / 8 = x := by omega
    have shift : 8 - 8 - x * 8 % 8 = 0 := by omega
    have byte := (dib.byte (row + x)).toNat_lt
    rw [place] at inside
    rw [if_pos rfl, readByte_eq inside, place, shift, Nat.pow_zero, Nat.div_one, Nat.mod_eq_of_lt byte]
    rfl

def RowInside (dib : Dib) (d : DibPixelDecode) (row : Nat) : Prop := row + d.rowStride ≤ dib.dibSize.toNat

theorem InBounds.rowInside (bounds : InBounds dib d) (below : y < d.height) : RowInside dib d (rowAt d y) := by
  have source : sourceRow d y + 1 ≤ d.height := by
    unfold sourceRow
    split_ifs <;> omega
  have rows : (sourceRow d y + 1) * d.rowStride ≤ d.rowStride * d.height :=
    (Nat.mul_le_mul_right _ source).trans (Nat.mul_comm _ _).le
  have pixels := bounds.pixels
  rw [Nat.add_mul, Nat.one_mul] at rows
  unfold RowInside rowAt
  omega

theorem InBounds.pixelInside (bounds : InBounds dib d) (below : x < d.width) (inside : RowInside dib d row) :
    row + (x * d.bitCount + d.bitCount + 7) / 8 ≤ dib.dibSize.toNat := by
  have bits : (x + 1) * d.bitCount ≤ d.width * d.bitCount := Nat.mul_le_mul_right _ below
  have stride := bounds.rowStride
  unfold RowInside at inside
  rw [Nat.add_mul, Nat.one_mul] at bits
  omega

theorem readOpaque_eq (offset : Nat) (inside : offset + 3 ≤ dib.dibSize.toNat) :
    (do
      let b ← dib.readByte (offset + 0)
      let g ← dib.readByte (offset + 1)
      let r ← dib.readByte (offset + 2)
      return ({ r := r, g := g, b := b, a := 255 } : Rgba)) = .ok (opaqueAt dib offset) := by
  rw [readByte_eq (show offset + 0 < _ by omega), readByte_eq (show offset + 1 < _ by omega),
    readByte_eq (show offset + 2 < _ by omega)]
  rfl

theorem InBounds.column_lt (bounds : InBounds dib d) (below : x < d.width) (some : 0 < d.height) :
    x * 4 + 3 < 2 ^ 64 := by
  have area : (x + 1) * 1 * 4 ≤ d.width * d.height * 4 := Nat.mul_le_mul_right _ (Nat.mul_le_mul below some)
  have fits := bounds.area
  omega

theorem ends_decodePixel (bounds : InBounds dib d) (below : x < d.width) (some : 0 < d.height)
    (inside : RowInside dib d row) :
    Ends (fun p => p = decoded dib d row x ∧ InPalette dib d row x)
      (fun stop => stop = .refused .paletteIndex ∧ ¬ InPalette dib d row x) (decodePixel dib d row x) := by
  have place := bounds.pixelInside below inside
  have column := bounds.column_lt below some
  have depth := bounds.depth
  simp only [List.mem_cons, List.not_mem_nil, or_false] at depth
  unfold decodePixel decoded InPalette
  by_cases triple : d.bitCount = 24
  · rw [if_pos triple, if_pos triple, size_eq (show x * 3 < 2 ^ 64 by omega)]
    rw [triple] at place
    refine .of_eq (readOpaque_eq (row + x * 3) (by omega)) ⟨rfl, fun indexed => by omega⟩
  · rw [if_neg triple, if_neg triple]
    by_cases masked : d.bitCount = 32 ∨ d.bitCount = 16
    · have pixel : readPixel dib d.bitCount row x = .ok (pixelValue dib d.bitCount row x) := by
        unfold readPixel pixelValue
        rcases masked with word | half
        · rw [word] at place ⊢
          rw [if_pos rfl, size_eq (show x * 4 < 2 ^ 64 by omega)]
          exact readLe32_eq (show row + x * 4 + 4 ≤ _ by omega)
        · rw [half] at place ⊢
          rw [if_neg (by omega), size_eq (show x * 2 < 2 ^ 64 by omega)]
          exact readLe16_eq (show row + x * 2 + 2 ≤ _ by omega)
      rw [if_pos masked, if_pos masked, pixel]
      exact ⟨rfl, fun indexed => by omega⟩
    · have index : paletteIndex dib d.bitCount row x = .ok (pixelIndex dib d.bitCount row x) := by
        apply paletteIndex_eq (by omega)
        omega
      rw [if_neg masked, if_neg masked, index]
      show Ends _ _ (require _ _ >>= _)
      unfold require
      split_ifs with known
      · have entries := bounds.palette
        have pixels := bounds.pixels
        have held := dib.dibSize.toNat_lt
        show Ends _ _ (size (pixelIndex dib d.bitCount row x * 4) >>= _)
        rw [size_eq (show pixelIndex dib d.bitCount row x * 4 < 2 ^ 64 by omega)]
        exact .of_eq (readOpaque_eq (d.palette + pixelIndex dib d.bitCount row x * 4) (by omega))
          ⟨rfl, fun _ => known⟩
      · exact ⟨rfl, fun all => known (all (by omega))⟩

def pixelAt (rgba : Bytes) (k : Nat) : Rgba where
  r := rgba.getD (k * 4) 0
  g := rgba.getD (k * 4 + 1) 0
  b := rgba.getD (k * 4 + 2) 0
  a := rgba.getD (k * 4 + 3) 0

def setPixel (rgba : Bytes) (k : Nat) (p : Rgba) : Bytes :=
  (((rgba.set (k * 4) p.r).set (k * 4 + 1) p.g).set (k * 4 + 2) p.b).set (k * 4 + 3) p.a

@[simp] theorem length_setPixel : (setPixel rgba k p).length = rgba.length := by simp [setPixel]

theorem writePixel_eq (inside : k * 4 + 4 ≤ rgba.length) : writePixel rgba (k * 4) p = .ok (setPixel rgba k p) := by
  unfold writePixel writeByte setPixel
  rw [if_pos (by omega)]
  show (if _ then _ else _ : Except Stop Bytes) >>= _ = _
  rw [if_pos (by rw [List.length_set]; omega)]
  show (if _ then _ else _ : Except Stop Bytes) >>= _ = _
  rw [if_pos (by rw [List.length_set, List.length_set]; omega)]
  show (if _ then _ else _ : Except Stop Bytes) = _
  rw [if_pos (by rw [List.length_set, List.length_set, List.length_set]; omega)]
  rfl

theorem getD_setPixel {i : Nat} (inside : k * 4 + 4 ≤ rgba.length) :
    (setPixel rgba k p).getD i 0 =
      if i = k * 4 + 3 then p.a else if i = k * 4 + 2 then p.b else if i = k * 4 + 1 then p.g
      else if i = k * 4 then p.r else rgba.getD i 0 := by
  simp only [setPixel, List.getD_eq_getElem?_getD, List.getElem?_set, List.length_set]
  split_ifs <;> first | omega | rfl

theorem pixelAt_setPixel (inside : k * 4 + 4 ≤ rgba.length) :
    pixelAt (setPixel rgba k p) j = if j = k then p else pixelAt rgba j := by
  by_cases same : j = k
  · subst same
    simp only [pixelAt, getD_setPixel inside]
    simp
  · have kept : ∀ c < 4, (setPixel rgba k p).getD (j * 4 + c) 0 = rgba.getD (j * 4 + c) 0 := by
      intro c small
      rw [getD_setPixel inside, if_neg (by omega), if_neg (by omega), if_neg (by omega), if_neg (by omega)]
    rw [if_neg same, pixelAt, pixelAt, kept 1 (by omega), kept 2 (by omega), kept 3 (by omega)]
    have first := kept 0 (by omega)
    rw [Nat.add_zero] at first
    rw [first]

/-- The first `k` pixels, row by row, are drawn, and all of them have a colour. -/
structure Drawn (dib : Dib) (d : DibPixelDecode) (k : Nat) (rgba : Bytes) : Prop where
  length : rgba.length = d.width * d.height * 4
  drawn : ∀ j < k, pixelAt rgba j = decoded dib d (rowAt d (j / d.width)) (j % d.width) ∧
    InPalette dib d (rowAt d (j / d.width)) (j % d.width)

/-- The call fails on a pixel whose index is outside the palette. -/
def OutsidePalette (dib : Dib) (d : DibPixelDecode) (stop : Stop) : Prop :=
  stop = .refused .paletteIndex ∧ ∃ y < d.height, ∃ x < d.width, ¬ InPalette dib d (rowAt d y) x

theorem cell_lt (column : x < d.width) (line : y < d.height) : y * d.width + x < d.width * d.height := by
  calc y * d.width + x < y * d.width + d.width := by omega
    _ = (y + 1) * d.width := (Nat.succ_mul y d.width).symm
    _ ≤ d.height * d.width := Nat.mul_le_mul_right _ line
    _ = d.width * d.height := Nat.mul_comm _ _

theorem cell_row (column : x < d.width) : (y * d.width + x) / d.width = y := by
  rw [Nat.mul_comm, Nat.mul_add_div (by omega), Nat.div_eq_of_lt column, Nat.add_zero]

theorem cell_column (column : x < d.width) : (y * d.width + x) % d.width = x := by
  rw [Nat.mul_comm, Nat.mul_add_mod, Nat.mod_eq_of_lt column]

theorem Drawn.room (drawn : Drawn dib d k rgba) (column : x < d.width) (line : y < d.height) :
    (y * d.width + x) * 4 + 4 ≤ rgba.length := by
  have cell := cell_lt column line
  rw [drawn.length]
  omega

theorem Drawn.next (drawn : Drawn dib d (y * d.width + x) rgba) (column : x < d.width) (line : y < d.height)
    (known : InPalette dib d (rowAt d y) x) :
    Drawn dib d (y * d.width + (x + 1)) (setPixel rgba (y * d.width + x) (decoded dib d (rowAt d y) x)) := by
  refine ⟨length_setPixel.trans drawn.length, fun j below => ?_⟩
  rw [pixelAt_setPixel (drawn.room column line)]
  by_cases here : j = y * d.width + x
  · subst here
    rw [if_pos rfl, cell_row column, cell_column column]
    exact ⟨rfl, known⟩
  · rw [if_neg here]
    exact drawn.drawn j (by omega)

/-- Where a row draws its pixels one by one, the loop over the rows draws them all. -/
theorem ends_drawRows (bounds : InBounds dib d) (draw : Nat → Nat → Bytes → Except Stop Bytes)
    (each : ∀ y < d.height, ∀ rgba, Drawn dib d (y * d.width) rgba →
      Ends (Drawn dib d (y * d.width + d.width)) (OutsidePalette dib d)
        (draw (rowAt d y) (y * d.width * 4) rgba)) :
    Ends (Drawn dib d (d.height * d.width)) (OutsidePalette dib d)
      (forRange d.height (drawRow d draw) d.dst) := by
  refine ends_forRange (fun y => Drawn dib d (y * d.width)) (fun y below rgba drawn => ?_) ?_
  · have held := dib.dibSize.toNat_lt
    have inside := bounds.rowInside below
    have area := bounds.area
    have corner : y * d.width * 4 ≤ d.width * d.height * 4 :=
      Nat.mul_le_mul_right _ ((Nat.mul_le_mul_right _ below.le).trans (Nat.mul_comm _ _).le)
    unfold RowInside rowAt at inside
    unfold drawRow
    show Ends _ _ (size (sourceRow d y * d.rowStride) >>= _)
    rw [size_eq (show sourceRow d y * d.rowStride < 2 ^ 64 by omega)]
    show Ends _ _ (size (y * d.width * 4) >>= _)
    rw [size_eq (show y * d.width * 4 < 2 ^ 64 by omega)]
    show Ends (Drawn dib d ((y + 1) * d.width)) _ (draw (rowAt d y) (y * d.width * 4) rgba)
    rw [Nat.succ_mul]
    exact each y below rgba drawn
  · rw [Nat.zero_mul]
    exact ⟨bounds.rgba, fun j below => absurd below (Nat.not_lt_zero j)⟩

theorem ends_decodeRow (bounds : InBounds dib d) (below : y < d.height) (drawn : Drawn dib d (y * d.width) rgba) :
    Ends (Drawn dib d (y * d.width + d.width)) (OutsidePalette dib d)
      (decodeRow dib d (rowAt d y) (y * d.width * 4) rgba) := by
  refine ends_forRange (fun x => Drawn dib d (y * d.width + x)) (fun x column rgba drawn => ?_) drawn
  have some : 0 < d.height := by omega
  have pixel : Ends (fun p => p = decoded dib d (rowAt d y) x ∧ InPalette dib d (rowAt d y) x) (OutsidePalette dib d)
      (decodePixel dib d (rowAt d y) x) := by
    apply (ends_decodePixel bounds column some (bounds.rowInside below)).mono
    · exact fun _ both => both
    · exact fun stop both => ⟨both.1, y, below, x, column, both.2⟩
  apply pixel.bind
  intro p both
  obtain ⟨rfl, known⟩ := both
  have place : y * d.width * 4 + x * 4 = (y * d.width + x) * 4 := (Nat.add_mul _ _ _).symm
  have wide := bounds.column_lt column some
  rw [size_eq (show x * 4 < 2 ^ 64 by omega)]
  show Ends _ _ (writePixel rgba (y * d.width * 4 + x * 4) _)
  rw [place, writePixel_eq (drawn.room column below)]
  exact drawn.next column below known

def bgraAt (dib : Dib) (offset : Nat) (preserveAlpha : Bool) : Rgba :=
  { opaqueAt dib offset with a := if preserveAlpha then dib.byte (offset + 3) else 255 }

theorem decoded_standard (bounds : InBounds dib d) (standard : d.standard32BppBgra = true) :
    decoded dib d row x = bgraAt dib (row + x * 4) d.preserveAlpha := by
  obtain ⟨depth, masks⟩ := bounds.standard standard
  simp only [isStandard32BppBgra, Bool.and_eq_true, Bool.or_eq_true, decide_eq_true_eq] at masks
  obtain ⟨⟨⟨red, green⟩, blue⟩, alpha⟩ := masks
  have byte0 := (dib.byte (row + x * 4)).toNat_lt
  have byte1 := (dib.byte (row + x * 4 + 1)).toNat_lt
  have byte2 := (dib.byte (row + x * 4 + 2)).toNat_lt
  have byte3 := (dib.byte (row + x * 4 + 3)).toNat_lt
  have value : (pixelValue dib 32 row x).toNat = (dib.byte (row + x * 4)).toNat +
      256 * (dib.byte (row + x * 4 + 1)).toNat + 65536 * (dib.byte (row + x * 4 + 2)).toNat +
      16777216 * (dib.byte (row + x * 4 + 3)).toNat := by
    have whole : word dib (row + x * (32 / 8)) (32 / 8) < 2 ^ 32 := word_lt dib _ 4
    rw [pixelValue, UInt32.toNat_ofNat', Nat.mod_eq_of_lt whole]
    simp only [word, Nat.add_assoc, Nat.reduceAdd, Nat.reduceDiv]
    omega
  have redByte : scaleMaskComponent (pixelValue dib 32 row x) 0x00ff0000 = dib.byte (row + x * 4 + 2) := by
    apply UInt8.toNat_inj.mp
    have mask : Contiguous 0x00ff0000 16 8 := ⟨rfl, by omega, by omega⟩
    rw [scaleMaskComponent_byte mask, value]
    omega
  have greenByte : scaleMaskComponent (pixelValue dib 32 row x) 0x0000ff00 = dib.byte (row + x * 4 + 1) := by
    apply UInt8.toNat_inj.mp
    have mask : Contiguous 0x0000ff00 8 8 := ⟨rfl, by omega, by omega⟩
    rw [scaleMaskComponent_byte mask, value]
    omega
  have blueByte : scaleMaskComponent (pixelValue dib 32 row x) 0x000000ff = dib.byte (row + x * 4) := by
    apply UInt8.toNat_inj.mp
    have mask : Contiguous 0x000000ff 0 8 := ⟨rfl, by omega, by omega⟩
    rw [scaleMaskComponent_byte mask, value]
    omega
  have alphaByte : scaleMaskComponent (pixelValue dib 32 row x) 0xff000000 = dib.byte (row + x * 4 + 3) := by
    apply UInt8.toNat_inj.mp
    have mask : Contiguous 0xff000000 24 8 := ⟨rfl, by omega, by omega⟩
    rw [scaleMaskComponent_byte mask, value]
    omega
  unfold decoded bgraAt opaqueAt
  rw [if_neg (by omega), if_pos (.inl depth), depth, red, green, blue]
  dsimp only
  rw [redByte, greenByte, blueByte]
  cases preserve : d.preserveAlpha with
  | false => rfl
  | true =>
    have full : d.masks.alphaMask = 0xff000000 := alpha.resolve_left (bounds.alpha preserve)
    rw [full, if_pos rfl, if_pos rfl, alphaByte]

theorem ends_convertBgraToRgbaRow (bounds : InBounds dib d) (standard : d.standard32BppBgra = true)
    (below : y < d.height) (drawn : Drawn dib d (y * d.width) rgba) :
    Ends (Drawn dib d (y * d.width + d.width)) (OutsidePalette dib d)
      (convertBgraToRgbaRow dib (rowAt d y) (y * d.width * 4) d.width d.preserveAlpha rgba) := by
  have depth := (bounds.standard standard).1
  refine ends_forRange (fun x => Drawn dib d (y * d.width + x)) (fun x column rgba drawn => ?_) drawn
  have place := bounds.pixelInside column (bounds.rowInside below)
  rw [depth] at place
  have alpha : readAlpha dib (rowAt d y + x * 4) d.preserveAlpha =
      .ok (bgraAt dib (rowAt d y + x * 4) d.preserveAlpha).a := by
    unfold readAlpha bgraAt
    split_ifs
    · exact readByte_eq (by omega)
    · rfl
  have cell : y * d.width * 4 + x * 4 = (y * d.width + x) * 4 := (Nat.add_mul _ _ _).symm
  rw [readByte_eq (show rowAt d y + x * 4 + 2 < _ by omega), readByte_eq (show rowAt d y + x * 4 + 1 < _ by omega),
    readByte_eq (show rowAt d y + x * 4 + 0 < _ by omega), alpha]
  show Ends _ _ (writePixel rgba (y * d.width * 4 + x * 4) (bgraAt dib (rowAt d y + x * 4) d.preserveAlpha))
  rw [cell, writePixel_eq (drawn.room column below), ← decoded_standard bounds standard]
  exact drawn.next column below (fun indexed => by omega)

theorem ends_safeDecodeDibPixels (bounds : InBounds dib d) :
    Ends (Drawn dib d (d.height * d.width)) (OutsidePalette dib d) (safeDecodeDibPixels dib d) := by
  unfold safeDecodeDibPixels
  split_ifs with standard
  · exact ends_drawRows bounds _ (fun y below rgba drawn => ends_convertBgraToRgbaRow bounds standard below drawn)
  · exact ends_drawRows bounds _ (fun y below rgba drawn => ends_decodeRow bounds below drawn)

theorem ends_dibToPNG (spanIsReadable : Nat → Nat → Bool) (wicEncode : Bytes → Nat → Nat → Option Bytes) (dib : Dib) :
    Ends (fun _ => ∀ d, parseDib spanIsReadable dib = .ok d →
      ∀ y < d.height, ∀ x < d.width, InPalette dib d (rowAt d y) x) Refuses
      (dibToPNG spanIsReadable wicEncode dib) := by
  unfold dibToPNG
  cases parsed : parseDib spanIsReadable dib with
  | error stop => exact (ends_parseDib spanIsReadable dib).of_error parsed
  | ok d =>
    obtain ⟨_, bounds⟩ := (ends_parseDib spanIsReadable dib).of_ok parsed
    show Ends _ _ (safeDecodeDibPixels dib d >>= _)
    cases decode : safeDecodeDibPixels dib d with
    | error stop =>
      obtain ⟨refused, _⟩ := (ends_safeDecodeDibPixels bounds).of_error decode
      exact ⟨.paletteIndex, refused⟩
    | ok rgba =>
      have drawn := (ends_safeDecodeDibPixels bounds).of_ok decode
      have known : ∀ y < d.height, ∀ x < d.width, InPalette dib d (rowAt d y) x := by
        intro y line x column
        have cell := cell_lt column line
        have here := (drawn.drawn (y * d.width + x) (by rwa [Nat.mul_comm d.height])).2
        rwa [cell_row column, cell_column column] at here
      show Ends _ _ (wicEncodePngFromRgba wicEncode rgba d.width d.height)
      unfold wicEncodePngFromRgba
      cases wicEncode rgba d.width d.height with
      | none => exact ⟨.encoder, rfl⟩
      | some pngData =>
        rintro _ ⟨⟩
        exact known

/-- Parsing and decoding read only the bitmap, write only the buffer and let no size wrap, and an index outside the
    palette fails the call. -/
theorem dib_parsing_stays_inside (spanIsReadable : Nat → Nat → Bool) (wicEncode : Bytes → Nat → Nat → Option Bytes)
    (dib : Dib) :
    (∀ fault, dibToPNG spanIsReadable wicEncode dib ≠ .error (.fault fault)) ∧
    ∀ d, parseDib spanIsReadable dib = .ok d →
      ∀ y < d.height, ∀ x < d.width, ¬ InPalette dib d (rowAt d y) x →
        ∃ reason, dibToPNG spanIsReadable wicEncode dib = .error (.refused reason) := by
  have ends := ends_dibToPNG spanIsReadable wicEncode dib
  constructor
  · intro fault stopped
    obtain ⟨reason, refused⟩ := ends.of_error stopped
    cases refused
  · intro d parsed y line x column outside
    obtain ⟨_, stopped, reason, rfl⟩ := ends.stopped (fun _ all => outside (all d parsed y line x column))
    exact ⟨reason, stopped⟩

namespace OnePixel

/-- One pixel of eight bits with a palette of one entry, which the pixel does not name. -/
def indexed : Dib where
  dibData := [40, 0, 0, 0, 1, 0, 0, 0, 1, 0, 0, 0, 1, 0, 8, 0, 0, 0, 0, 0, 0, 0, 0, 0, 0, 0, 0, 0, 0, 0, 0, 0, 1, 0, 0, 0,
    0, 0, 0, 0, 10, 20, 30, 0, 5, 0, 0, 0]
  dibSize := 48
  held := by decide

end OnePixel

open OnePixel in
theorem unnamed_entry_refused :
    ∃ reason, dibToPNG (fun _ _ => true) (fun rgba _ _ => some rgba) indexed = .error (.refused reason) := by
  have parsed : parseDib (fun _ _ => true) indexed = .ok (layout indexed) := by rfl
  exact (dib_parsing_stays_inside (fun _ _ => true) (fun rgba _ _ => some rgba) indexed).2 (layout indexed) parsed
    0 (by decide) 0 (by decide) (by
      intro named
      exact absurd (named (by decide)) (by decide))

end ClippProof.Platform
