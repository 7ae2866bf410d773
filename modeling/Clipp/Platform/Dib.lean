import Clipp.Foundation.ByteOrder
import Clipp.Foundation.Outcome

open Foundation

namespace ClippModel.Platform

/-- The bytes of a device-independent bitmap and the size it is declared to have, which the copy has. -/
structure Dib where
  dibData : Bytes
  dibSize : UInt64
  held : dibSize.toNat ≤ dibData.length

inductive Fault where
  | readOutside
  | writeOutside
  | wrapped
deriving DecidableEq

inductive Refusal where
  | tooSmall
  | headerSize
  | geometry
  | bitDepth
  | compression
  | rowBitsOverflow
  | pixelBytesOverflow
  | missingMasks
  | paletteOverflow
  | paletteTruncated
  | pixelsTruncated
  | rgbaOverflow
  | notCommitted
  | paletteIndex
  | encoder
deriving DecidableEq

inductive Stop where
  | fault (fault : Fault)
  | refused (reason : Refusal)
deriving DecidableEq

def require (condition : Prop) [Decidable condition] (reason : Refusal) : Except Stop Unit :=
  if condition then .ok () else .error (.refused reason)

def size (n : Nat) : Except Stop Nat := if n < 2 ^ 64 then .ok n else .error (.fault .wrapped)

def checkedMulSize (a b : Nat) (reason : Refusal) : Except Stop Nat :=
  if a ≠ 0 ∧ (2 ^ 64 - 1) / a < b then .error (.refused reason) else size (a * b)

namespace Dib

def byte (dib : Dib) (offset : Nat) : UInt8 := dib.dibData.getD offset 0

def readByte (dib : Dib) (offset : Nat) : Except Stop UInt8 :=
  if offset < dib.dibSize.toNat then .ok (dib.byte offset) else .error (.fault .readOutside)

def readLe16 (dib : Dib) (offset : Nat) : Except Stop UInt32 := do
  let data0 ← dib.readByte offset
  let data1 ← dib.readByte (offset + 1)
  return data0.toUInt32 ||| data1.toUInt32 <<< 8

def readLe32 (dib : Dib) (offset : Nat) : Except Stop UInt32 := do
  let data0 ← dib.readByte offset
  let data1 ← dib.readByte (offset + 1)
  let data2 ← dib.readByte (offset + 2)
  let data3 ← dib.readByte (offset + 3)
  return data0.toUInt32 ||| data1.toUInt32 <<< 8 ||| data2.toUInt32 <<< 16 ||| data3.toUInt32 <<< 24

end Dib

def writeByte (buffer : Bytes) (offset : Nat) (b : UInt8) : Except Stop Bytes :=
  if offset < buffer.length then .ok (buffer.set offset b) else .error (.fault .writeOutside)

structure BitmapInfoHeader where
  biSize : UInt32
  biWidth : Int32
  biHeight : Int32
  biPlanes : UInt16
  biBitCount : UInt16
  biCompression : UInt32
  biClrUsed : UInt32

def sizeofBitmapInfoHeader : Nat := 40

def sizeofBitmapV4Header : Nat := 108

def sizeofRgbQuad : Nat := 4

def biRgb : UInt32 := 0

def biBitfields : UInt32 := 3

def biAlphaBitfields : UInt32 := 6

def readHeader (dib : Dib) : Except Stop BitmapInfoHeader := do
  let biSize ← dib.readLe32 0
  let biWidth ← dib.readLe32 4
  let biHeight ← dib.readLe32 8
  let biPlanes ← dib.readLe16 12
  let biBitCount ← dib.readLe16 14
  let biCompression ← dib.readLe32 16
  let biClrUsed ← dib.readLe32 32
  return { biSize := biSize, biWidth := biWidth.toInt32, biHeight := biHeight.toInt32, biPlanes := biPlanes.toUInt16,
           biBitCount := biBitCount.toUInt16, biCompression := biCompression, biClrUsed := biClrUsed }

structure Masks where
  redMask : UInt32 := 0
  greenMask : UInt32 := 0
  blueMask : UInt32 := 0
  alphaMask : UInt32 := 0

namespace BitmapInfoHeader

def bitfields (header : BitmapInfoHeader) : Bool :=
  header.biCompression = biBitfields || header.biCompression = biAlphaBitfields

def width (header : BitmapInfoHeader) : Nat := header.biWidth.toInt.toNat

/-- A negative height stands for rows from the top down. -/
def height (header : BitmapInfoHeader) : Nat :=
  if header.biHeight.toInt < 0 then (-header.biHeight.toInt).toNat else header.biHeight.toInt.toNat

def dibColorTableEntries (header : BitmapInfoHeader) : Nat :=
  if header.biClrUsed ≠ 0 then header.biClrUsed.toNat
  else if header.biBitCount.toNat ≤ 8 then 1 <<< header.biBitCount.toNat
  else 0

def maskBytes (header : BitmapInfoHeader) : Nat := if header.biCompression = biAlphaBitfields then 16 else 12

end BitmapInfoHeader

def readAlphaMask (dib : Dib) (header : BitmapInfoHeader) : Except Stop UInt32 :=
  if header.maskBytes = 16 then dib.readLe32 (header.biSize.toNat + 12) else .ok 0

def readMasks (dib : Dib) (header : BitmapInfoHeader) : Except Stop (Masks × Nat) :=
  let masksOffset := header.biSize.toNat
  if header.bitfields then
    if sizeofBitmapV4Header ≤ header.biSize.toNat then do
      let redMask ← dib.readLe32 40
      let greenMask ← dib.readLe32 44
      let blueMask ← dib.readLe32 48
      let alphaMask ← dib.readLe32 52
      return ({ redMask := redMask, greenMask := greenMask, blueMask := blueMask, alphaMask := alphaMask }, masksOffset)
    else do
      require (¬ (dib.dibSize.toNat < masksOffset ∨ dib.dibSize.toNat - masksOffset < header.maskBytes)) .missingMasks
      let redMask ← dib.readLe32 masksOffset
      let greenMask ← dib.readLe32 (masksOffset + 4)
      let blueMask ← dib.readLe32 (masksOffset + 8)
      let alphaMask ← readAlphaMask dib header
      let paletteOffset ← size (masksOffset + header.maskBytes)
      return ({ redMask := redMask, greenMask := greenMask, blueMask := blueMask, alphaMask := alphaMask }, paletteOffset)
  else if header.biBitCount = 16 then
    .ok ({ redMask := 0x7c00, greenMask := 0x03e0, blueMask := 0x001f }, masksOffset)
  else if header.biBitCount = 32 then
    .ok ({ redMask := 0x00ff0000, greenMask := 0x0000ff00, blueMask := 0x000000ff, alphaMask := 0xff000000 }, masksOffset)
  else .ok ({}, masksOffset)

def isStandard32BppBgra (masks : Masks) : Bool :=
  masks.redMask = 0x00ff0000 && masks.greenMask = 0x0000ff00 && masks.blueMask = 0x000000ff &&
    (masks.alphaMask = 0 || masks.alphaMask = 0xff000000)

/-- Offsets stand for the pointers into the bitmap, and `dst` for the buffer as it is allocated. -/
structure DibPixelDecode where
  dst : Bytes
  pixels : Nat
  palette : Nat
  width : Nat
  height : Nat
  rowStride : Nat
  paletteEntries : Nat
  masks : Masks
  bitCount : Nat
  bottomUp : Bool
  standard32BppBgra : Bool
  preserveAlpha : Bool

/-- Everything before the pixels are read. `spanIsReadable` is what the system says about its pages. -/
def parseDib (spanIsReadable : Nat → Nat → Bool) (dib : Dib) : Except Stop DibPixelDecode := do
  require (sizeofBitmapInfoHeader ≤ dib.dibSize.toNat) .tooSmall
  let header ← readHeader dib
  require (sizeofBitmapInfoHeader ≤ header.biSize.toNat ∧ header.biSize.toNat ≤ dib.dibSize.toNat) .headerSize
  require (header.biPlanes = 1 ∧ 0 < header.biWidth.toInt ∧ header.biHeight.toInt ≠ 0) .geometry
  let bitCount := header.biBitCount.toNat
  require (bitCount ∈ [1, 4, 8, 16, 24, 32]) .bitDepth
  require (header.biCompression = biRgb ∨ header.bitfields = true) .compression
  let rowBits ← checkedMulSize header.width bitCount .rowBitsOverflow
  let rounded ← size (rowBits + 31)
  let rowStride ← size (rounded / 32 * 4)
  let pixelBytes ← checkedMulSize rowStride header.height .pixelBytesOverflow
  let (masks, paletteOffset) ← readMasks dib header
  let paletteEntries := header.dibColorTableEntries
  let paletteBytes ← checkedMulSize paletteEntries sizeofRgbQuad .paletteOverflow
  require (¬ (dib.dibSize.toNat < paletteOffset ∨ dib.dibSize.toNat - paletteOffset < paletteBytes)) .paletteTruncated
  let pixelOffset ← size (paletteOffset + paletteBytes)
  require (¬ (dib.dibSize.toNat < pixelOffset ∨ dib.dibSize.toNat - pixelOffset < pixelBytes)) .pixelsTruncated
  let area ← checkedMulSize header.width header.height .rgbaOverflow
  let rgbaBytes ← checkedMulSize area 4 .rgbaOverflow
  require (spanIsReadable pixelOffset pixelBytes = true) .notCommitted
  return {
    dst := List.replicate rgbaBytes 0
    pixels := pixelOffset
    palette := paletteOffset
    width := header.width
    height := header.height
    rowStride := rowStride
    paletteEntries := paletteEntries
    masks := masks
    bitCount := bitCount
    bottomUp := 0 < header.biHeight.toInt
    standard32BppBgra := bitCount = 32 && isStandard32BppBgra masks
    preserveAlpha := header.biCompression = biAlphaBitfields && masks.alphaMask ≠ 0 }

/-- `while (i < 32 && !stop(i)) ++i`, with as many rounds as are left. -/
def scan (stop : Nat → Bool) : Nat → Nat → Nat
  | 0, i => i
  | left + 1, i => if stop i then i else scan stop left (i + 1)

def scaleMaskComponent (pixel mask : UInt32) : UInt8 :=
  if mask = 0 then 0
  else
    let shift := scan (fun i => (mask >>> UInt32.ofNat i) &&& 1 ≠ 0) 32 0
    let shiftedMask := mask >>> UInt32.ofNat shift
    let bits := scan (fun i => shiftedMask &&& (1 <<< UInt32.ofNat i) = 0) 32 0
    let value := (pixel &&& mask) >>> UInt32.ofNat shift
    let maxValue : UInt32 := if 32 ≤ bits then 0xffffffff else (1 <<< UInt32.ofNat bits) - 1
    if maxValue = 0 then 0 else ((value * 255 + maxValue / 2) / maxValue).toUInt8

structure Rgba where
  r : UInt8
  g : UInt8
  b : UInt8
  a : UInt8
deriving DecidableEq

def writePixel (rgba : Bytes) (dst : Nat) (pixel : Rgba) : Except Stop Bytes := do
  let rgba ← writeByte rgba (dst + 0) pixel.r
  let rgba ← writeByte rgba (dst + 1) pixel.g
  let rgba ← writeByte rgba (dst + 2) pixel.b
  writeByte rgba (dst + 3) pixel.a

def readAlpha (dib : Dib) (src : Nat) (preserveAlpha : Bool) : Except Stop UInt8 :=
  if preserveAlpha then dib.readByte (src + 3) else .ok 255

def convertBgraToRgbaRow (dib : Dib) (src dst width : Nat) (preserveAlpha : Bool) (rgba : Bytes) : Except Stop Bytes :=
  forRange width (fun x rgba => do
    let r ← dib.readByte (src + x * 4 + 2)
    let g ← dib.readByte (src + x * 4 + 1)
    let b ← dib.readByte (src + x * 4 + 0)
    let a ← readAlpha dib (src + x * 4) preserveAlpha
    writePixel rgba (dst + x * 4) { r := r, g := g, b := b, a := a }) rgba

def readPixel (dib : Dib) (bitCount srcRow x : Nat) : Except Stop UInt32 :=
  if bitCount = 32 then do
    let px ← size (x * 4)
    dib.readLe32 (srcRow + px)
  else do
    let px ← size (x * 2)
    dib.readLe16 (srcRow + px)

def paletteIndex (dib : Dib) (bitCount srcRow x : Nat) : Except Stop Nat :=
  if bitCount = 8 then do
    let index ← dib.readByte (srcRow + x)
    return index.toNat
  else if bitCount = 4 then do
    let packed ← dib.readByte (srcRow + x / 2)
    return (if x % 2 = 0 then packed >>> 4 else packed &&& 0x0f).toNat
  else do
    let packed ← dib.readByte (srcRow + x / 8)
    return ((packed >>> UInt8.ofNat (7 - x % 8)) &&& 0x01).toNat

def decodePixel (dib : Dib) (d : DibPixelDecode) (srcRow x : Nat) : Except Stop Rgba :=
  if d.bitCount = 24 then do
    let px ← size (x * 3)
    let b ← dib.readByte (srcRow + px + 0)
    let g ← dib.readByte (srcRow + px + 1)
    let r ← dib.readByte (srcRow + px + 2)
    return { r := r, g := g, b := b, a := 255 }
  else if d.bitCount = 32 ∨ d.bitCount = 16 then do
    let pixel ← readPixel dib d.bitCount srcRow x
    return { r := scaleMaskComponent pixel d.masks.redMask
             g := scaleMaskComponent pixel d.masks.greenMask
             b := scaleMaskComponent pixel d.masks.blueMask
             a := if d.preserveAlpha then scaleMaskComponent pixel d.masks.alphaMask else 255 }
  else do
    let index ← paletteIndex dib d.bitCount srcRow x
    require (index < d.paletteEntries) .paletteIndex
    let entry ← size (index * sizeofRgbQuad)
    let b ← dib.readByte (d.palette + entry + 0)
    let g ← dib.readByte (d.palette + entry + 1)
    let r ← dib.readByte (d.palette + entry + 2)
    return { r := r, g := g, b := b, a := 255 }

def decodeRow (dib : Dib) (d : DibPixelDecode) (srcRow dst : Nat) (rgba : Bytes) : Except Stop Bytes :=
  forRange d.width (fun x rgba => do
    let pixel ← decodePixel dib d srcRow x
    let px ← size (x * 4)
    writePixel rgba (dst + px) pixel) rgba

/-- The row is drawn from its place in the bitmap into its place in the buffer. -/
def drawRow (d : DibPixelDecode) (row : Nat → Nat → Bytes → Except Stop Bytes) (y : Nat) (rgba : Bytes) :
    Except Stop Bytes := do
  let srcY := if d.bottomUp then d.height - 1 - y else y
  let srcRow ← size (srcY * d.rowStride)
  let dst ← size (y * d.width * 4)
  row (d.pixels + srcRow) dst rgba

def safeDecodeDibPixels (dib : Dib) (d : DibPixelDecode) : Except Stop Bytes :=
  if d.standard32BppBgra then
    forRange d.height (drawRow d (fun srcRow dst => convertBgraToRgbaRow dib srcRow dst d.width d.preserveAlpha)) d.dst
  else forRange d.height (drawRow d (decodeRow dib d)) d.dst

/-- `wicEncode` is the encoder of the system. -/
def wicEncodePngFromRgba (wicEncode : Bytes → Nat → Nat → Option Bytes) (rgba : Bytes) (width height : Nat) :
    Except Stop Bytes :=
  match wicEncode rgba width height with
  | some pngData => .ok pngData
  | none => .error (.refused .encoder)

def dibToPNG (spanIsReadable : Nat → Nat → Bool) (wicEncode : Bytes → Nat → Nat → Option Bytes) (dib : Dib) :
    Except Stop Bytes := do
  let d ← parseDib spanIsReadable dib
  let rgba ← safeDecodeDibPixels dib d
  wicEncodePngFromRgba wicEncode rgba d.width d.height

end ClippModel.Platform
