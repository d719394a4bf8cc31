import PngDecode.Libpng.State
import Mathlib.Data.List.GetD
import Mathlib.Algebra.Group.Nat.Defs

/-! # The chunk handlers of `pngrutil.c`

A handler runs when its whole chunk is in the buffer, so it is given the chunk's data and whether
the stored CRC differs from the computed one. Benign errors are warnings in this build. -/

namespace PngDecode.Libpng

/-! ## Names and numbers -/

def pngU32 (b1 b2 b3 b4 : UInt8) : UInt32 :=
  (b1.toUInt32 <<< 24) ||| (b2.toUInt32 <<< 16) ||| (b3.toUInt32 <<< 8) ||| b4.toUInt32

def chunkIDAT : UInt32 := pngU32 73 68 65 84
def chunkIEND : UInt32 := pngU32 73 69 78 68
def chunkIHDR : UInt32 := pngU32 73 72 68 82
def chunkPLTE : UInt32 := pngU32 80 76 84 69
def chunkGAMA : UInt32 := pngU32 103 65 77 65
def chunkCHRM : UInt32 := pngU32 99 72 82 77
def chunkSRGB : UInt32 := pngU32 115 82 71 66
def chunkICCP : UInt32 := pngU32 105 67 67 80
def chunkTRNS : UInt32 := pngU32 116 82 78 83
def chunkTEXT : UInt32 := pngU32 116 69 88 116
def chunkZTXT : UInt32 := pngU32 122 84 88 116

def pngGetUint32 (buf : List UInt8) : UInt32 :=
  pngU32 (buf.getD 0 0) (buf.getD 1 0) (buf.getD 2 0) (buf.getD 3 0)

theorem pngGetUint32_take {n : Nat} (enough : 4 ≤ n) (b : List UInt8) :
    pngGetUint32 (b.take n) = pngGetUint32 b := by
  have same (i : Nat) (hi : i < 4) : (b.take n).getD i 0 = b.getD i 0 := by
    rw [List.getD_eq_getElem?_getD, List.getElem?_take, if_pos (by omega),
      ← List.getD_eq_getElem?_getD]
  rw [pngGetUint32, same 0 (by decide), same 1 (by decide), same 2 (by decide), same 3 (by decide)]
  rfl

def pngGetUint16 (buf : List UInt8) : UInt16 :=
  (buf.getD 0 0).toUInt16 <<< 8 ||| (buf.getD 1 0).toUInt16

def pngGetUint31 (buf : List UInt8) : Except Jump Nat :=
  if (pngGetUint32 buf).toNat > 0x7fffffff then
    .error (.pngError none "PNG unsigned integer out of range")
  else .ok (pngGetUint32 buf).toNat

structure Chunk where
  name : UInt32
  data : List UInt8
  crcError : Bool
deriving DecidableEq, Repr

def chunkError {α : Type} (c : Chunk) (message : String) : Except Jump α :=
  .error (.pngError (some c.name) message)

def ancillary (name : UInt32) : Bool := (name >>> (29 : UInt32)) &&& (1 : UInt32) = 1

/-- Whether the CRC was wrong, which is an error in a critical chunk. -/
def pngCrcFinish (c : Chunk) : Except Jump Bool :=
  if c.crcError then
    if ancillary c.name then .ok true else chunkError c "CRC error"
  else .ok false

def invalidNameByte (b : UInt32) : Bool := b < 65 || b > 122 || (b > 90 && b < 97)

def pngCheckChunkName (name : UInt32) : Except Jump Unit :=
  if invalidNameByte (name &&& 0xff) || invalidNameByte (name >>> 8 &&& 0xff) ||
      invalidNameByte (name >>> 16 &&& 0xff) || invalidNameByte (name >>> 24 &&& 0xff) then
    .error (.pngError (some name) "invalid chunk type")
  else .ok ()

/-! ## IHDR -/

def pngUserWidthMax : Nat := 1000000
def pngUserHeightMax : Nat := 1000000
def pngSizeMax : Nat := 2 ^ 32 - 1

/-- `png_check_IHDR` without its warnings: no error was found. -/
def pngCheckIHDR (width height bitDepth colorType interlaceType compressionType
    filterType : Nat) : Bool :=
  width ≠ 0 && width ≤ 0x7fffffff && (width + 7) / 8 * 8 ≤ (pngSizeMax - 48 - 1) / 8 - 1 &&
  width ≤ pngUserWidthMax && height ≠ 0 && height ≤ 0x7fffffff && height ≤ pngUserHeightMax &&
  (bitDepth = 1 || bitDepth = 2 || bitDepth = 4 || bitDepth = 8 || bitDepth = 16) &&
  !(colorType = 1 || colorType = 5 || colorType > 6) &&
  !((colorType = colorTypePalette && bitDepth > 8) ||
    ((colorType = colorTypeRGB || colorType = colorTypeGrayAlpha ||
      colorType = colorTypeRGBAlpha) && bitDepth < 8)) &&
  interlaceType < 2 && compressionType = 0 && filterType = 0

def channelsOf (colorType : Nat) : Nat :=
  if colorType = colorTypeRGB then 3
  else if colorType = colorTypeGrayAlpha then 2
  else if colorType = colorTypeRGBAlpha then 4
  else 1

def pngHandleIHDR (h : Header) (c : Chunk) : Except Jump Header :=
  if h.mode.haveIHDR then chunkError c "out of place"
  else if c.data.length ≠ 13 then chunkError c "invalid"
  else do
    let _ ← pngCrcFinish c
    let width ← pngGetUint31 c.data
    let height ← pngGetUint31 (c.data.drop 4)
    let bitDepth := (c.data.getD 8 0).toNat
    let colorType := (c.data.getD 9 0).toNat
    let compressionType := (c.data.getD 10 0).toNat
    let filterType := (c.data.getD 11 0).toNat
    let interlaceType := (c.data.getD 12 0).toNat
    let channels := channelsOf colorType
    let pixelDepth := bitDepth * channels % 256
    if pngCheckIHDR width height bitDepth colorType interlaceType compressionType filterType then
      .ok { h with
        mode := { h.mode with haveIHDR := true }
        width, height, bitDepth, colorType, channels, pixelDepth
        interlaced := interlaceType
        rowbytes := rowbytes pixelDepth width }
    else .error (.pngError none "Invalid IHDR data")

/-! ## PLTE, tRNS and IEND -/

def paletteEntry (data : List UInt8) (i : Nat) : PngColor :=
  ⟨data.getD (3 * i) 0, data.getD (3 * i + 1) 0, data.getD (3 * i + 2) 0⟩

def pngHandlePLTE (h : Header) (c : Chunk) : Except Jump Header :=
  if !h.mode.haveIHDR then chunkError c "missing IHDR"
  else if h.mode.havePLTE then chunkError c "duplicate"
  else if h.mode.haveIDAT then do
    -- benign error "out of place"
    let _ ← pngCrcFinish c
    .ok h
  else if h.colorType &&& colorMaskColor = 0 then do
    -- benign error "ignored in grayscale PNG"
    let _ ← pngCrcFinish c
    .ok { h with mode := { h.mode with havePLTE := true } }
  else if h.colorType ≠ colorTypePalette then do
    let _ ← pngCrcFinish c
    .ok { h with mode := { h.mode with havePLTE := true } }
  else if c.data.length > 3 * 256 ∨ c.data.length % 3 ≠ 0 then do
    let _ ← pngCrcFinish c
    chunkError c "invalid"
  else do
    let num := min (c.data.length / 3) (2 ^ h.bitDepth)
    let _ ← pngCrcFinish c
    if num = 0 then .error (.pngError none "Invalid palette")
    else
      let h := { h with
        mode := { h.mode with havePLTE := true }
        palette := some ((List.range num).map (paletteEntry c.data)) }
      if h.numTrans > 0 ∨ h.infoValidTRNS then
        -- benign error "tRNS must be after"
        .ok { h with numTrans := 0 }
      else .ok h

def pngHandleIEND (h : Header) (c : Chunk) : Except Jump Header :=
  if !h.mode.haveIHDR || !h.mode.haveIDAT then chunkError c "out of place"
  else do
    let _ ← pngCrcFinish c
    .ok { h with mode := { h.mode with afterIDAT := true, haveIEND := true } }

/-- The end of `png_handle_tRNS`: a chunk with a wrong CRC leaves no transparency. -/
def pngSetTRNS (h : Header) (c : Chunk) (transAlpha : List UInt8) : Except Jump Header := do
  let crcError ← pngCrcFinish c
  if crcError then .ok { h with numTrans := 0 }
  else .ok { h with infoValidTRNS := true, transAlpha }

def pngHandleTRNS (h : Header) (c : Chunk) : Except Jump Header :=
  let ignore : Except Jump Header := do
    -- a benign error
    let _ ← pngCrcFinish c
    .ok h
  if !h.mode.haveIHDR then chunkError c "missing IHDR"
  else if h.mode.haveIDAT then ignore
  else if h.infoValidTRNS then ignore
  else if h.colorType = colorTypeGray then
    if c.data.length ≠ 2 then ignore
    else pngSetTRNS { h with
      numTrans := 1
      transColor := { h.transColor with gray := pngGetUint16 c.data } } c h.transAlpha
  else if h.colorType = colorTypeRGB then
    if c.data.length ≠ 6 then ignore
    else pngSetTRNS { h with
      numTrans := 1
      transColor := { h.transColor with
        red := pngGetUint16 c.data
        green := pngGetUint16 (c.data.drop 2)
        blue := pngGetUint16 (c.data.drop 4) } } c h.transAlpha
  else if h.colorType = colorTypePalette then
    if !h.mode.havePLTE then ignore
    else if c.data.length > (h.palette.getD []).length ∨ c.data.length > 256 ∨
        c.data.length = 0 then ignore
    else pngSetTRNS { h with numTrans := c.data.length } c c.data
  else ignore

/-! ## Chunks that only feed the colour space or the text -/

/-- A colour space chunk of a fixed length: kept for the colour space code if its CRC is right. -/
def pngHandleColor (length : Nat) (h : Header) (c : Chunk) : Except Jump Header :=
  if !h.mode.haveIHDR then chunkError c "missing IHDR"
  else if h.mode.haveIDAT || h.mode.havePLTE then do
    let _ ← pngCrcFinish c
    .ok h
  else if c.data.length ≠ length then do
    let _ ← pngCrcFinish c
    .ok h
  else do
    let crcError ← pngCrcFinish c
    if crcError then .ok h
    else .ok { h with colorspace := h.colorspace ++ [⟨c.name, c.data⟩] }

def pngHandleGAMA : Header → Chunk → Except Jump Header := pngHandleColor 4
def pngHandleCHRM : Header → Chunk → Except Jump Header := pngHandleColor 32
def pngHandleSRGB : Header → Chunk → Except Jump Header := pngHandleColor 1

/-- `png_handle_iCCP` uses the profile whatever its CRC. -/
def pngHandleICCP (h : Header) (c : Chunk) : Except Jump Header :=
  if !h.mode.haveIHDR then chunkError c "missing IHDR"
  else if h.mode.haveIDAT || h.mode.havePLTE then do
    let _ ← pngCrcFinish c
    .ok h
  else if c.data.length < 9 then do
    let _ ← pngCrcFinish c
    .ok h
  else do
    let _ ← pngCrcFinish c
    .ok { h with colorspace := h.colorspace ++ [⟨c.name, c.data⟩] }

/-- `png_handle_tEXt` and `png_handle_zTXt`, whose text the decoder never asks for. -/
def pngHandleText (h : Header) (c : Chunk) : Except Jump Header :=
  if h.userChunkCacheMax = 1 then do
    let _ ← pngCrcFinish c
    .ok h
  else if h.userChunkCacheMax = 2 then do
    let _ ← pngCrcFinish c
    .ok { h with userChunkCacheMax := 1 }
  else if !h.mode.haveIHDR then chunkError c "missing IHDR"
  else do
    let _ ← pngCrcFinish c
    .ok { h with
      userChunkCacheMax := h.userChunkCacheMax - 1
      mode := { h.mode with afterIDAT := h.mode.afterIDAT || h.mode.haveIDAT } }

def pngHandleTEXT : Header → Chunk → Except Jump Header := pngHandleText
def pngHandleZTXT : Header → Chunk → Except Jump Header := pngHandleText

def pngHandleUnknown (h : Header) (c : Chunk) : Except Jump Header := do
  let _ ← pngCrcFinish c
  if ancillary c.name then .ok h else chunkError c "unhandled critical chunk"

/-! ## Dispatch -/

def pngHandleChunk (h : Header) (c : Chunk) : Except Jump Header :=
  if c.name = chunkIHDR then pngHandleIHDR h c
  else if c.name = chunkIEND then pngHandleIEND h c
  else if c.name = chunkPLTE then pngHandlePLTE h c
  else if c.name = chunkGAMA then pngHandleGAMA h c
  else if c.name = chunkCHRM then pngHandleCHRM h c
  else if c.name = chunkSRGB then pngHandleSRGB h c
  else if c.name = chunkICCP then pngHandleICCP h c
  else if c.name = chunkTRNS then pngHandleTRNS h c
  else if c.name = chunkTEXT then pngHandleTEXT h c
  else if c.name = chunkZTXT then pngHandleZTXT h c
  else pngHandleUnknown h c

end PngDecode.Libpng
