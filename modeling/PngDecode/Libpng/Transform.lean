import PngDecode.Libpng.State
import PngDecode.Decoder.Skia

/-! # Row transformations

The `png_set_*` calls of the decoder, what `png_read_update_info` makes of them, and the
transformations of `pngrtran.c` they select. libpng rewrites a row in place and from its end;
every pixel of the result depends on the same pixel of the row alone, so a transformation is
written as a map over the pixels. -/

namespace PngDecode.Libpng
open PngDecode.Lib PngDecode.Decoder

/-! ## Asking for transformations -/

/-- `png_rtran_ok(png_ptr, 0)`, where an application error is an error. -/
def pngRtranOk (r : Rows) : Fallible Rows Rows :=
  if r.rowInit then
    pngError r "invalid after png_start_read_image or png_read_update_info"
  else .ok { r with detectUninitialized := true }

def pngSetExpand (r : Rows) : Fallible Rows Rows := do
  let r ← pngRtranOk r
  .ok { r with transformations := { r.transformations with expand := true, expandTRNS := true } }

def pngSetExpandGray124To8 (r : Rows) : Fallible Rows Rows := do
  let r ← pngRtranOk r
  .ok { r with transformations := { r.transformations with expand := true } }

def pngSetStrip16 (r : Rows) : Fallible Rows Rows := do
  let r ← pngRtranOk r
  .ok { r with transformations := { r.transformations with chop16 := true } }

def pngSetGrayToRGB (r : Rows) : Fallible Rows Rows := do
  let r ← pngRtranOk r
  let r ← pngSetExpandGray124To8 r
  .ok { r with transformations := { r.transformations with grayToRGB := true } }

def pngSetBgr (r : Rows) : Rows :=
  { r with transformations := { r.transformations with bgr := true } }

def pngSetFiller (r : Rows) (filler : Nat) (fillerAfter : Bool) : Rows :=
  { r with filler, fillerAfter, transformations := { r.transformations with filler := true } }

def pngSetAddAlpha (r : Rows) (filler : Nat) (fillerAfter : Bool) : Rows :=
  let r := pngSetFiller r filler fillerAfter
  { r with transformations := { r.transformations with addAlpha := true } }

/-- `convert_gamma_value` of a gamma in units of 1/100000. A number from 128.0 on is taken to be in
such units already. -/
def convertGammaValue (outputGamma : Int) : Int :=
  if outputGamma > 0 ∧ outputGamma < 12800000 then outputGamma
  else (outputGamma + 50000) / 100000

def pngSetGammaFixed (r : Rows) (scrnGamma fileGamma : Int) : Fallible Rows Rows := do
  let r ← pngRtranOk r
  if fileGamma ≤ 0 then pngError r "invalid file gamma in png_set_gamma"
  else if scrnGamma ≤ 0 then pngError r "invalid screen gamma in png_set_gamma"
  else .ok { r with fileGamma, screenGamma := scrnGamma }

def pngSetGamma (r : Rows) (scrnGamma fileGamma : Int) : Fallible Rows Rows :=
  pngSetGammaFixed r (convertGammaValue scrnGamma) (convertGammaValue fileGamma)

def pngSetReadUserTransformFn (r : Rows) : Rows :=
  { r with transformations := { r.transformations with userTransform := true } }

def pngSetUserTransformInfo (r : Rows) : Fallible Rows Rows :=
  if r.rowInit then
    pngError r "info change after png_start_read_image or png_read_update_info"
  else .ok r

def pngSetInterlaceHandling (h : Header) (r : Rows) : Rows :=
  if h.interlaced ≠ 0 then
    { r with transformations := { r.transformations with interlace := true } }
  else r

/-! ## `png_read_update_info` -/

def pngPassStart (pass : Nat) : Nat := [0, 4, 0, 2, 0, 1, 0].getD pass 0
def pngPassInc (pass : Nat) : Nat := [8, 8, 4, 4, 2, 2, 1].getD pass 1
def pngPassYstart (pass : Nat) : Nat := [0, 0, 4, 0, 2, 0, 1].getD pass 0
def pngPassYinc (pass : Nat) : Nat := [8, 8, 8, 4, 4, 2, 2].getD pass 1

def pngGammaThreshold (screenGamma fileGamma : Int) : Bool :=
  let gtest := (2 * (screenGamma * fileGamma) + 100000) / 200000
  gtest > 2147483647 || gtest < -2147483648 || gtest < 100000 - 5000 || gtest > 100000 + 5000

def pngBuildGammaTable (env : Env) (r : Rows) (bitDepth : Nat) : GammaTable :=
  if bitDepth ≤ 8 then .bits8 (env.gammaTable r.fileGamma r.screenGamma)
  else .bits16 (env.gamma16Table r.fileGamma r.screenGamma)

def GammaTable.correct : GammaTable → PngColor → PngColor
  | .bits8 table, c => ⟨table c.red, table c.green, table c.blue⟩
  | .bits16 _, c => c

/-- `png_init_read_transformations`; `png_set_gamma` has set both gammas. -/
def pngInitReadTransformations (env : Env) (h : Header) (r : Rows) : Header × Rows :=
  let gammaCorrection :=
    r.fileGamma ≠ 0 && r.screenGamma ≠ 0 && pngGammaThreshold r.fileGamma r.screenGamma
  let r := { r with transformations := { r.transformations with gamma := gammaCorrection } }
  if gammaCorrection then
    let table := pngBuildGammaTable env r h.bitDepth
    let r := { r with gammaTable := some table }
    if h.colorType = colorTypePalette then
      ({ h with palette := h.palette.map (·.map table.correct) },
        { r with transformations := { r.transformations with gamma := false } })
    else (h, r)
  else (h, r)

def maxPixelDepth (h : Header) (t : Transformations) : Nat :=
  let d := h.pixelDepth
  let d :=
    if t.expand then
      if h.colorType = colorTypePalette then if h.numTrans ≠ 0 then 32 else 24
      else if h.colorType = colorTypeGray then
        let d := if d < 8 then 8 else d
        if h.numTrans ≠ 0 then d * 2 else d
      else if h.colorType = colorTypeRGB then if h.numTrans ≠ 0 then d * 4 / 3 else d
      else d
    else d
  let d :=
    if t.filler then
      if h.colorType = colorTypeGray then if d ≤ 8 then 16 else 32
      else if h.colorType = colorTypeRGB ∨ h.colorType = colorTypePalette then
        if d ≤ 32 then 32 else 64
      else d
    else d
  if t.grayToRGB then
    if (h.numTrans ≠ 0 ∧ t.expand) ∨ t.filler ∨ h.colorType = colorTypeGrayAlpha then
      if d ≤ 16 then 32 else 64
    else if d ≤ 8 then if h.colorType = colorTypeRGBAlpha then 32 else 24
    else if h.colorType = colorTypeRGBAlpha then 64
    else 48
  else d

/-- `png_read_start_row`, but for claiming the zlib stream. -/
def pngReadStartRow (env : Env) (h : Header) (r : Rows) : Header × Rows :=
  let (h, r) := pngInitReadTransformations env h r
  let r :=
    if h.interlaced ≠ 0 then
      { r with
        numRows :=
          if r.transformations.interlace then h.height
          else (h.height + pngPassYinc 0 - 1 - pngPassYstart 0) / pngPassYinc 0
        iwidth := (h.width + pngPassInc r.pass - 1 - pngPassStart r.pass) / pngPassInc r.pass }
    else { r with numRows := h.height, iwidth := h.width }
  (h, { r with
    maximumPixelDepth := maxPixelDepth h r.transformations % 256
    transformedPixelDepth := 0
    prevRow := List.replicate (h.rowbytes + 1) 0
    rowInit := true })

def transformedRowbytes (h : Header) (t : Transformations) : Nat :=
  let colorType :=
    if t.expand then
      if h.colorType = colorTypePalette then
        if h.numTrans > 0 then colorTypeRGBAlpha else colorTypeRGB
      else if h.numTrans ≠ 0 ∧ t.expandTRNS then h.colorType ||| colorMaskAlpha
      else h.colorType
    else h.colorType
  let bitDepth :=
    if t.expand then
      if h.colorType = colorTypePalette then 8 else if h.bitDepth < 8 then 8 else h.bitDepth
    else h.bitDepth
  let bitDepth := if bitDepth = 16 ∧ t.chop16 then 8 else bitDepth
  let colorType := if t.grayToRGB then colorType ||| colorMaskColor else colorType
  let channels :=
    if colorType = colorTypePalette then 1
    else if colorType &&& colorMaskColor ≠ 0 then 3
    else 1
  let channels := if colorType &&& colorMaskAlpha ≠ 0 then channels + 1 else channels
  let channels :=
    if t.filler ∧ (colorType = colorTypeRGB ∨ colorType = colorTypeGray) then channels + 1
    else channels
  rowbytes (channels * bitDepth % 256) h.width

def pngReadTransformInfo (h : Header) (r : Rows) : Fallible Rows Rows :=
  if r.transformations.expand && h.colorType = colorTypePalette && h.palette.isNone then
    pngError r "Palette is NULL in indexed image"
  else .ok { r with infoRowbytes := transformedRowbytes h r.transformations }

def rowInfo (h : Header) (width : Nat) : PngRowInfo where
  width := width
  rowbytes := rowbytes h.pixelDepth width
  colorType := h.colorType
  bitDepth := h.bitDepth
  channels := h.channels
  pixelDepth := h.pixelDepth

/-! ## Expansion -/

def packedPixel (depth : Nat) (row : List UInt8) (i : Nat) : UInt8 :=
  (row.getD (i * depth / 8) 0 >>> UInt8.ofNat (8 - depth - i * depth % 8)) &&&
    UInt8.ofNat (2 ^ depth - 1)

def unpackRow (depth width : Nat) (row : List UInt8) : List UInt8 :=
  (List.range width).map (packedPixel depth row)

def palettePixel (palette : List PngColor) (transAlpha : List UInt8) (numTrans : Nat)
    (px : List UInt8) : List UInt8 :=
  let index := (px.getD 0 0).toNat
  let color := palette.getD index ⟨0, 0, 0⟩
  if numTrans > 0 then
    let alpha := if index ≥ numTrans then 0xff else transAlpha.getD index 0
    [color.red, color.green, color.blue, alpha]
  else [color.red, color.green, color.blue]

def pngDoExpandPalette (ri : PngRowInfo) (row : List UInt8) (palette : List PngColor)
    (transAlpha : List UInt8) (numTrans : Nat) : PngRowInfo × List UInt8 :=
  if ri.colorType = colorTypePalette then
    let (ri, row) :=
      if ri.bitDepth < 8 then
        ({ ri with bitDepth := 8, pixelDepth := 8, rowbytes := ri.width },
          unpackRow ri.bitDepth ri.width row)
      else (ri, row)
    if ri.bitDepth = 8 then
      let row := mapPixels 1 (palettePixel palette transAlpha numTrans) ri.width row
      if numTrans > 0 then
        ({ ri with
            bitDepth := 8, pixelDepth := 32, rowbytes := ri.width * 4
            colorType := 6, channels := 4 }, row)
      else
        ({ ri with
            bitDepth := 8, pixelDepth := 24, rowbytes := ri.width * 3
            colorType := 2, channels := 3 }, row)
    else (ri, row)
  else (ri, row)

def grayScale (depth : Nat) : Nat :=
  if depth = 1 then 0xff else if depth = 2 then 0x55 else if depth = 4 then 0x11 else 1

def transparent (isKey : Bool) : UInt8 := if isKey then 0 else 0xff

def highByte (v : UInt16) : UInt8 := (v >>> 8).toUInt8

def grayAlphaPixel (bitDepth gray : Nat) (px : List UInt8) : List UInt8 :=
  if bitDepth = 8 then px ++ [transparent ((px.getD 0 0).toNat = gray % 256)]
  else
    let alpha := transparent
      ((px.getD 0 0).toNat = gray / 256 % 256 && (px.getD 1 0).toNat = gray % 256)
    px ++ [alpha, alpha]

def rgbAlphaPixel (bitDepth : Nat) (c : PngColor16) (px : List UInt8) : List UInt8 :=
  if bitDepth = 8 then
    px ++ [transparent (px = [c.red.toUInt8, c.green.toUInt8, c.blue.toUInt8])]
  else
    let alpha := transparent (px = [highByte c.red, c.red.toUInt8,
      highByte c.green, c.green.toUInt8, highByte c.blue, c.blue.toUInt8])
    px ++ [alpha, alpha]

def pngDoExpand (ri : PngRowInfo) (row : List UInt8) (transColor : Option PngColor16) :
    PngRowInfo × List UInt8 :=
  if ri.colorType = colorTypeGray then
    let gray := (transColor.map fun c => c.gray.toNat).getD 0
    let (ri, row, gray) :=
      if ri.bitDepth < 8 then
        ({ ri with bitDepth := 8, pixelDepth := 8, rowbytes := ri.width },
          (unpackRow ri.bitDepth ri.width row).map
            (· * UInt8.ofNat (grayScale ri.bitDepth)),
          gray % 2 ^ ri.bitDepth * grayScale ri.bitDepth)
      else (ri, row, gray)
    if transColor.isSome then
      let pixelDepth := ri.bitDepth * 2
      ({ ri with
          colorType := colorTypeGrayAlpha, channels := 2, pixelDepth
          rowbytes := rowbytes pixelDepth ri.width },
        mapPixels (ri.bitDepth / 8) (grayAlphaPixel ri.bitDepth gray) ri.width row)
    else (ri, row)
  else
    match transColor with
    | some c =>
      if ri.colorType = colorTypeRGB then
        let pixelDepth := ri.bitDepth * 4
        ({ ri with
            colorType := colorTypeRGBAlpha, channels := 4, pixelDepth
            rowbytes := rowbytes pixelDepth ri.width },
          mapPixels (3 * (ri.bitDepth / 8)) (rgbAlphaPixel ri.bitDepth c) ri.width row)
      else (ri, row)
    | none => (ri, row)

/-! ## Colour -/

def grayPixelToRGB (sampleBytes : Nat) (px : List UInt8) : List UInt8 :=
  px.take sampleBytes ++ px.take sampleBytes ++ px

def pngDoGrayToRGB (ri : PngRowInfo) (row : List UInt8) : PngRowInfo × List UInt8 :=
  if ri.bitDepth ≥ 8 ∧ ri.colorType &&& colorMaskColor = 0 then
    let sampleBytes := if ri.bitDepth = 8 then 1 else 2
    let row :=
      if ri.colorType = colorTypeGray then
        mapPixels sampleBytes (grayPixelToRGB sampleBytes) ri.width row
      else if ri.colorType = colorTypeGrayAlpha then
        mapPixels (2 * sampleBytes) (grayPixelToRGB sampleBytes) ri.width row
      else row
    let channels := ri.channels + 2
    let pixelDepth := channels * ri.bitDepth % 256
    ({ ri with
        channels, pixelDepth
        colorType := ri.colorType ||| colorMaskColor
        rowbytes := rowbytes pixelDepth ri.width }, row)
  else (ri, row)

/-- A row of `depth` < 8 bits a sample corrected byte by byte, each sample at its full scale. -/
def gammaPacked (depth : Nat) (table : UInt8 → UInt8) (b : UInt8) : UInt8 :=
  (List.range (8 / depth)).foldl (fun out i =>
    let sample := packedPixel depth [b] i
    let corrected := table (sample * UInt8.ofNat (grayScale depth)) >>> UInt8.ofNat (8 - depth)
    out <<< UInt8.ofNat depth ||| corrected) 0

def gammaPixel (table : GammaTable) (colors : Nat) (px : List UInt8) : List UInt8 :=
  match table with
  | .bits8 table => (px.take colors).map table ++ px.drop colors
  | .bits16 table =>
    mapPixels 2 (fun s =>
      let v := table (s.getD 1 0) (s.getD 0 0)
      [highByte v, v.toUInt8]) colors (px.take (2 * colors)) ++ px.drop (2 * colors)

def pngDoGamma (ri : PngRowInfo) (row : List UInt8) (table : Option GammaTable) : List UInt8 :=
  match table with
  | none => row
  | some (.bits8 table) =>
    if ri.bitDepth > 8 then row
    else if ri.colorType = colorTypeRGB ∨ ri.colorType = colorTypeRGBAlpha then
      mapPixels ri.channels (gammaPixel (.bits8 table) 3) ri.width row
    else if ri.colorType = colorTypeGrayAlpha then
      mapPixels ri.channels (gammaPixel (.bits8 table) 1) ri.width row
    else if ri.colorType = colorTypeGray then
      if ri.bitDepth = 2 ∨ ri.bitDepth = 4 then row.map (gammaPacked ri.bitDepth table)
      else if ri.bitDepth = 8 then mapPixels 1 (gammaPixel (.bits8 table) 1) ri.width row
      else row
    else row
  | some (.bits16 table) =>
    if ri.bitDepth ≠ 16 then row
    else if ri.colorType = colorTypeRGB ∨ ri.colorType = colorTypeRGBAlpha then
      mapPixels (2 * ri.channels) (gammaPixel (.bits16 table) 3) ri.width row
    else if ri.colorType = colorTypeGrayAlpha ∨ ri.colorType = colorTypeGray then
      mapPixels (2 * ri.channels) (gammaPixel (.bits16 table) 1) ri.width row
    else row

def pngDoChop (ri : PngRowInfo) (row : List UInt8) : PngRowInfo × List UInt8 :=
  if ri.bitDepth = 16 then
    ({ ri with
        bitDepth := 8, pixelDepth := 8 * ri.channels % 256, rowbytes := ri.width * ri.channels },
      mapPixels (2 * ri.channels) (mapPixels 2 (·.take 1) ri.channels) ri.width row)
  else (ri, row)

def bgrPixel (sampleBytes : Nat) (px : List UInt8) : List UInt8 :=
  (px.drop (2 * sampleBytes)).take sampleBytes ++ (px.drop sampleBytes).take sampleBytes ++
    px.take sampleBytes ++ px.drop (3 * sampleBytes)

def pngDoBgr (ri : PngRowInfo) (row : List UInt8) : List UInt8 :=
  if ri.colorType &&& colorMaskColor ≠ 0 then
    if ri.bitDepth = 8 ∨ ri.bitDepth = 16 then
      let sampleBytes := ri.bitDepth / 8
      if ri.colorType = colorTypeRGB then
        mapPixels (3 * sampleBytes) (bgrPixel sampleBytes) ri.width row
      else if ri.colorType = colorTypeRGBAlpha then
        mapPixels (4 * sampleBytes) (bgrPixel sampleBytes) ri.width row
      else row
    else row
  else row

def pngDoReadFiller (ri : PngRowInfo) (row : List UInt8) (filler : Nat) (fillerAfter : Bool) :
    PngRowInfo × List UInt8 :=
  let sample := if ri.bitDepth = 8 then [UInt8.ofNat filler]
    else [UInt8.ofNat (filler >>> 8), UInt8.ofNat filler]
  let pixel (px : List UInt8) := if fillerAfter then px ++ sample else sample ++ px
  if ri.bitDepth = 8 ∨ ri.bitDepth = 16 then
    let sampleBytes := ri.bitDepth / 8
    if ri.colorType = colorTypeGray then
      ({ ri with
          channels := 2, pixelDepth := 2 * ri.bitDepth, rowbytes := ri.width * (2 * sampleBytes) },
        mapPixels sampleBytes pixel ri.width row)
    else if ri.colorType = colorTypeRGB then
      ({ ri with
          channels := 4, pixelDepth := 4 * ri.bitDepth, rowbytes := ri.width * (4 * sampleBytes) },
        mapPixels (3 * sampleBytes) pixel ri.width row)
    else (ri, row)
  else (ri, row)

/-! ## All of them, in their order -/

def expandSamples (h : Header) (r : Rows) (ri : PngRowInfo) (row : List UInt8) :
    PngRowInfo × List UInt8 :=
  if r.transformations.expand then
    if ri.colorType = colorTypePalette then
      pngDoExpandPalette ri row (h.palette.getD []) h.transAlpha h.numTrans
    else if h.numTrans ≠ 0 ∧ r.transformations.expandTRNS then
      pngDoExpand ri row (some h.transColor)
    else pngDoExpand ri row none
  else (ri, row)

def transformSamples (h : Header) (r : Rows) (ri : PngRowInfo) (row : List UInt8) :
    PngRowInfo × List UInt8 :=
  let t := r.transformations
  let (ri, row) := expandSamples h r ri row
  let (ri, row) := if t.grayToRGB then pngDoGrayToRGB ri row else (ri, row)
  let row := if t.gamma ∧ h.colorType ≠ colorTypePalette then pngDoGamma ri row r.gammaTable else row
  if t.chop16 then pngDoChop ri row else (ri, row)

def transformChannels (r : Rows) (ri : PngRowInfo) (row : List UInt8) : PngRowInfo × List UInt8 :=
  let row := if r.transformations.bgr then pngDoBgr ri row else row
  if r.transformations.filler then pngDoReadFiller ri row r.filler r.fillerAfter else (ri, row)

/-- `png_do_read_transformations`, on the row that stands behind the filter byte of `row_buf`. -/
def pngDoReadTransformations (h : Header) (r : Rows) (ri : PngRowInfo) :
    Fallible Rows (PngRowInfo × Rows) :=
  if r.detectUninitialized && !r.rowInit then pngError r "Uninitialized row"
  else
    let (ri, row) := transformSamples h r ri (r.rowBuf.drop 1)
    let (ri, row) := transformChannels r ri row
    if r.transformations.userTransform then
      let (row, isOpaque) := convertRGBARowToSkia ri row 0 r.app.isOpaque
      let pixelDepth := ri.bitDepth * ri.channels % 256
      .ok ({ ri with pixelDepth, rowbytes := rowbytes pixelDepth ri.width },
        { r with
          rowBuf := r.rowBuf.take 1 ++ row
          app := { r.app with isOpaque }
          trace := r.trace ++ [.userTransform ri row.length] })
    else .ok (ri, { r with rowBuf := r.rowBuf.take 1 ++ row })

end PngDecode.Libpng
