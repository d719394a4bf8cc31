import PngDecode.Libpng.Rows

/-! # The callbacks of `png_decoder.cpp`

What libpng calls when it has read the header, a row, and the end of an image. -/

namespace PngDecode.Decoder
open PngDecode.Lib PngDecode.Libpng

/-! ## The end and the header -/

def decodeEndCallback (r : Rows) : Rows := { r with app := { r.app with done := true } }

/-- `kMaxGamma`, `kDefaultGamma` and `kInverseGamma` in units of 1/100000. -/
def kMaxGamma : Int := 2147483000
def kDefaultGamma : Int := 220000
def kInverseGamma : Int := 45455

/-- The row format converters of `DecodeInfoCallback`. -/
def pickRowFormat (inputHasAlpha : Bool) (r : Rows) : Rows :=
  if !inputHasAlpha then
    match r.app.outputFormat with
    | .rgba =>
      let r := { r with app := { r.app with outputChannels := 4 } }
      pngSetAddAlpha r 0xff true
    | .bgra =>
      let r := { r with app := { r.app with outputChannels := 4 } }
      let r := pngSetBgr r
      pngSetAddAlpha r 0xff true
    | .skBitmap =>
      let r := { r with app := { r.app with outputChannels := 4 } }
      pngSetAddAlpha r 0xff true
  else
    match r.app.outputFormat with
    | .rgba => { r with app := { r.app with outputChannels := 4 } }
    | .bgra =>
      let r := { r with app := { r.app with outputChannels := 4 } }
      pngSetBgr r
    | .skBitmap => { r with app := { r.app with outputChannels := 4 } }

def setGamma (env : Env) (h : Header) (r : Rows) : Fallible Rows Rows :=
  match env.colorspaceGamma h.colorspace with
  | some gamma =>
    let gamma := if gamma ≤ 0 ∨ gamma > kMaxGamma then kInverseGamma else gamma
    pngSetGamma r kDefaultGamma gamma
  | none => pngSetGamma r kDefaultGamma kInverseGamma

def pngReadUpdateInfo (env : Env) (h : Header) (r : Rows) : Fallible Rows (Header × Rows) :=
  if r.rowInit then pngError r "png_read_update_info/png_start_read_image: duplicate call"
  else do
    let (h, r) := pngReadStartRow env h r
    let r ← pngReadTransformInfo h r
    .ok (h, r)

def resize (output : List UInt8) (size : Nat) : List UInt8 :=
  output.take size ++ List.replicate (size - output.length) 0

/-- The last statement of `DecodeInfoCallback`, with the products it forms. -/
def resizeOutput (r : Rows) : Rows :=
  let size := r.app.width * r.app.outputChannels * r.app.height
  { r with
    app := { r.app with output := resize r.app.output size.toNat }
    trace := r.trace ++
      [.product (r.app.width * r.app.outputChannels), .product size, .resize size] }

def decodeInfoCallback (env : Env) (h : Header) (r : Rows) : Fallible Rows (Header × Rows) :=
  if h.width * h.height > 2 ^ 29 - 1 then .error (.longjmp, r)
  else do
    let r := { r with app := { r.app with width := h.width, height := h.height } }
    let r ← onlyIf
      (h.colorType = colorTypePalette ∨ (h.colorType = colorTypeGray ∧ h.bitDepth < 8))
      pngSetExpand r
    let inputHasAlpha := h.colorType &&& colorMaskAlpha ≠ 0
    let r ← onlyIf (h.infoValidTRNS = true) pngSetExpand r
    let inputHasAlpha := inputHasAlpha || h.infoValidTRNS
    let r ← onlyIf (h.bitDepth = 16) pngSetStrip16 r
    let r := pickRowFormat inputHasAlpha r
    let r ← onlyIf (h.colorType = colorTypeGray ∨ h.colorType = colorTypeGrayAlpha)
      pngSetGrayToRGB r
    let r ← setGamma env h r
    let r ← onlyIf (r.app.outputFormat = .skBitmap)
      (fun r => pngSetUserTransformInfo (pngSetReadUserTransformFn r)) r
    let r := if h.interlaced = 1 then pngSetInterlaceHandling h r else r
    let (h, r) ← pngReadUpdateInfo env h r
    .ok (h, resizeOutput r)

/-! ## Rows -/

/-- `png_progressive_combine_row` on the bytes of `output` from `dest` on. -/
def pngProgressiveCombineRow (h : Header) (r : Rows) (rowNum : UInt32) (dest : Nat) :
    Fallible Rows Rows :=
  let bytes := rowbytes r.transformedPixelDepth h.width
  match pngCombineRow h r ((r.app.output.drop dest).take bytes) with
  | .error jump => .error (jump, r)
  | .ok combined =>
    .ok { r with
      app := { r.app with output := overwrite r.app.output dest combined }
      trace := r.trace ++ [.write rowNum.toNat dest bytes] }

def decodeRowCallback (h : Header) (r : Rows) (newRow : Option (List UInt8)) (rowNum : UInt32) :
    Fallible Rows Rows :=
  match newRow with
  | none => .ok r
  | some _ =>
    if rowNum.toInt32.toInt > r.app.height then .ok r
    else
      let product := r.app.width * r.app.outputChannels
      let dest := (UInt32.ofInt product * rowNum).toNat
      pngProgressiveCombineRow h { r with trace := r.trace ++ [.product product] } rowNum dest

end PngDecode.Decoder
