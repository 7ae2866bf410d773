import Clipp.Platform.DibSafety

open Foundation

namespace ClippProof.Platform

open ClippModel.Platform

variable {dib : Dib} {d : DibPixelDecode} {a b rgba : Bytes} {row x y : Nat} {pixel mask : UInt32}

/-- The colour of a component under a mask that is empty or one run of bits; other masks have none. -/
structure Masked (pixel mask : UInt32) (colour : UInt8) : Prop where
  absent : mask = 0 → colour = 0
  scaled : ∀ shift width, Contiguous mask shift width → (colour.toNat : ℤ) = nearest (component pixel shift width) width

def Shows (dib : Dib) (d : DibPixelDecode) (row x : Nat) (p : Rgba) : Prop :=
  if d.bitCount = 24 then p = opaqueAt dib (row + x * 3)
  else if d.bitCount = 32 ∨ d.bitCount = 16 then
    Masked (pixelValue dib d.bitCount row x) d.masks.redMask p.r ∧
    Masked (pixelValue dib d.bitCount row x) d.masks.greenMask p.g ∧
    Masked (pixelValue dib d.bitCount row x) d.masks.blueMask p.b ∧
    if d.preserveAlpha then Masked (pixelValue dib d.bitCount row x) d.masks.alphaMask p.a else p.a = 255
  else p = opaqueAt dib (d.palette + pixelIndex dib d.bitCount row x * 4)

/-- The scaling of the component stays within 32 bits. -/
def MaskFits (pixel mask : UInt32) : Prop :=
  ∀ shift width, Contiguous mask shift width → ScalesWithin (component pixel shift width) width

def PixelFits (dib : Dib) (d : DibPixelDecode) (row x : Nat) : Prop :=
  d.bitCount = 32 ∨ d.bitCount = 16 →
    MaskFits (pixelValue dib d.bitCount row x) d.masks.redMask ∧
    MaskFits (pixelValue dib d.bitCount row x) d.masks.greenMask ∧
    MaskFits (pixelValue dib d.bitCount row x) d.masks.blueMask ∧
    (d.preserveAlpha = true → MaskFits (pixelValue dib d.bitCount row x) d.masks.alphaMask)

theorem masked_iff : Masked pixel mask (scaleMaskComponent pixel mask) ↔ MaskFits pixel mask := by
  constructor
  · intro masked shift width run
    exact (scaleMaskComponent_nearest_iff run).mp (masked.scaled shift width run)
  · intro fits
    refine ⟨fun empty => ?_, fun shift width run => (scaleMaskComponent_nearest_iff run).mpr (fits shift width run)⟩
    rw [empty]
    exact scaleMaskComponent_zero

theorem shows_decoded_iff : Shows dib d row x (decoded dib d row x) ↔ PixelFits dib d row x := by
  unfold Shows decoded PixelFits
  by_cases triple : d.bitCount = 24
  · rw [if_pos triple, if_pos triple]
    exact iff_of_true rfl (fun depth => by omega)
  · rw [if_neg triple, if_neg triple]
    by_cases depth : d.bitCount = 32 ∨ d.bitCount = 16
    · rw [if_pos depth, if_pos depth]
      simp only [masked_iff, depth, true_imp_iff]
      cases d.preserveAlpha with
      | false => simp
      | true => simp [masked_iff]
    · rw [if_neg depth, if_neg depth]
      exact iff_of_true rfl (fun masks => absurd masks depth)

theorem scalesWithin_of_narrow {shift width : Nat} (narrow : width ≤ 24) :
    ScalesWithin (component pixel shift width) width := by
  have bounded := component_le pixel shift width
  have top : 2 ^ width ≤ 2 ^ 24 := Nat.pow_le_pow_right (by omega) narrow
  unfold ScalesWithin
  omega

theorem maskFits_of_lt (below : mask.toNat < 2 ^ 24) : MaskFits pixel mask := by
  intro shift width run
  have least : (2 ^ width - 1) * 1 ≤ mask.toNat :=
    (Nat.mul_le_mul_left _ (Nat.one_le_two_pow)).trans run.value.ge
  have narrow : 2 ^ width ≤ 2 ^ 24 := by omega
  exact scalesWithin_of_narrow ((Nat.pow_le_pow_iff_right (by omega)).mp narrow)

theorem Drawn.unique (left : Drawn dib d (d.height * d.width) a) (right : Drawn dib d (d.height * d.width) b) :
    a = b := by
  apply List.ext_getElem (left.length.trans right.length.symm)
  intro i inLeft inRight
  have cell : i / 4 < d.height * d.width := by
    have size := left.length
    rw [Nat.mul_comm d.height]
    omega
  have same : pixelAt a (i / 4) = pixelAt b (i / 4) := (left.drawn _ cell).1.trans (right.drawn _ cell).1.symm
  have bytes : ∀ c < 4, a.getD (i / 4 * 4 + c) 0 = b.getD (i / 4 * 4 + c) 0 := by
    intro c below
    match c, below with
    | 0, _ => exact congrArg Rgba.r same
    | 1, _ => exact congrArg Rgba.g same
    | 2, _ => exact congrArg Rgba.b same
    | 3, _ => exact congrArg Rgba.a same
  have here := bytes (i % 4) (Nat.mod_lt _ (by omega))
  rwa [Nat.div_add_mod', List.getD_eq_getElem _ _ inLeft, List.getD_eq_getElem _ _ inRight] at here

theorem masked_path_eq (bounds : InBounds dib d) (standard : d.standard32BppBgra = true)
    (decode : safeDecodeDibPixels dib d = .ok rgba) :
    safeDecodeDibPixels dib { d with standard32BppBgra := false } = .ok rgba := by
  have general : InBounds dib { d with standard32BppBgra := false } :=
    ⟨bounds.depth, bounds.rowStride, bounds.pixels, bounds.palette, bounds.rgba, bounds.area, nofun, bounds.alpha⟩
  have ends := ends_safeDecodeDibPixels general
  have fast := (ends_safeDecodeDibPixels bounds).of_ok decode
  cases slow : safeDecodeDibPixels dib { d with standard32BppBgra := false } with
  | error stop =>
    obtain ⟨_, y, _, x, _, outside⟩ := ends.of_error slow
    have depth : d.bitCount = 32 := (bounds.standard standard).1
    exact absurd (fun indexed : d.bitCount ≤ 8 => by omega) outside
  | ok image =>
    have drawn := ends.of_ok slow
    have same : Drawn dib d (d.height * d.width) image := ⟨drawn.length, drawn.drawn⟩
    rw [same.unique fast]

/-- The picture is the one the bitmap shows exactly where no component wraps, and the row copy changes nothing. -/
theorem dib_pixels_exact_iff (spanIsReadable : Nat → Nat → Bool) (dib : Dib) (d : DibPixelDecode) (rgba : Bytes)
    (parsed : parseDib spanIsReadable dib = .ok d) (decode : safeDecodeDibPixels dib d = .ok rgba) :
    ((∀ y < d.height, ∀ x < d.width, Shows dib (layout dib) (rowAt (layout dib) y) x (pixelAt rgba (y * d.width + x))) ↔
      ∀ y < d.height, ∀ x < d.width, PixelFits dib (layout dib) (rowAt (layout dib) y) x) ∧
    (d.standard32BppBgra = true → safeDecodeDibPixels dib { d with standard32BppBgra := false } = .ok rgba) := by
  obtain ⟨same, bounds⟩ := (ends_parseDib spanIsReadable dib).of_ok parsed
  have drawn := (ends_safeDecodeDibPixels bounds).of_ok decode
  refine ⟨?_, fun standard => masked_path_eq bounds standard decode⟩
  rw [← same]
  have pixel : ∀ y < d.height, ∀ x < d.width, pixelAt rgba (y * d.width + x) = decoded dib d (rowAt d y) x := by
    intro y line x column
    have cell := cell_lt column line
    have here := (drawn.drawn (y * d.width + x) (by rwa [Nat.mul_comm d.height])).1
    rwa [cell_row column, cell_column column] at here
  refine forall₂_congr (fun y line => forall₂_congr (fun x column => ?_))
  rw [pixel y line x column]
  exact shows_decoded_iff

namespace SmallBitmaps

def header32 (height compression : UInt8) : Bytes :=
  [40, 0, 0, 0, 1, 0, 0, 0, height, 0, 0, 0, 1, 0, 32, 0, compression, 0, 0, 0, 0, 0, 0, 0, 0, 0, 0, 0, 0, 0, 0, 0, 0, 0, 0, 0,
    0, 0, 0, 0]

def twoRows : Dib where
  dibData := header32 2 0 ++ [1, 2, 3, 0, 4, 5, 6, 0]
  dibSize := 48
  held := by decide

def wideRed : Dib where
  dibData := header32 1 3 ++ [255, 255, 255, 255, 0, 255, 0, 0, 255, 0, 0, 0] ++ [255, 255, 255, 255]
  dibSize := 56
  held := by decide

end SmallBitmaps

open SmallBitmaps in
theorem two_rows_decoded :
    (∀ y < 2, ∀ x < 1, Shows twoRows (layout twoRows) (rowAt (layout twoRows) y) x
      (pixelAt [6, 5, 4, 255, 3, 2, 1, 255] (y * 1 + x))) ∧
    safeDecodeDibPixels twoRows { layout twoRows with standard32BppBgra := false } = .ok [6, 5, 4, 255, 3, 2, 1, 255] := by
  have parsed : parseDib (fun _ _ => true) twoRows = .ok (layout twoRows) := by rfl
  have decode : safeDecodeDibPixels twoRows (layout twoRows) = .ok [6, 5, 4, 255, 3, 2, 1, 255] := by rfl
  have exact := dib_pixels_exact_iff (fun _ _ => true) twoRows (layout twoRows) _ parsed decode
  refine ⟨exact.1.mpr (fun y _ x _ _ => ⟨?_, ?_, ?_, nofun⟩), exact.2 (by rfl)⟩
  · exact maskFits_of_lt (show (0x00ff0000 : UInt32).toNat < 2 ^ 24 by decide)
  · exact maskFits_of_lt (show (0x0000ff00 : UInt32).toNat < 2 ^ 24 by decide)
  · exact maskFits_of_lt (show (0x000000ff : UInt32).toNat < 2 ^ 24 by decide)

open SmallBitmaps in
theorem wide_mask_wraps :
    ¬ ∀ spanIsReadable dib d rgba, parseDib spanIsReadable dib = .ok d → safeDecodeDibPixels dib d = .ok rgba →
      ∀ y < d.height, ∀ x < d.width,
        Shows dib (layout dib) (rowAt (layout dib) y) x (pixelAt rgba (y * d.width + x)) := by
  intro always
  have parsed : parseDib (fun _ _ => true) wideRed = .ok (layout wideRed) := by rfl
  have decode : safeDecodeDibPixels wideRed (layout wideRed) = .ok [0, 255, 255, 255] := by rfl
  have shows := always (fun _ _ => true) wideRed (layout wideRed) _ parsed decode 0 (by decide) 0 (by decide)
  have red : Masked 0xffffffff 0xffffffff (scaleMaskComponent 0xffffffff 0xffffffff) := shows.1
  have run : Contiguous 0xffffffff 0 32 := ⟨rfl, by decide, by decide⟩
  exact absurd ((scaleMaskComponent_nearest_iff run).mp (red.scaled 0 32 run)) (by decide)

end ClippProof.Platform
