import PngDecode.Libpng.Transform

/-! # Rows

The row filters, the expansion of the rows of an interlace pass, the merging of a row into the
image, and the counters of the row and the pass. -/

namespace PngDecode.Libpng
open PngDecode.Lib

/-! ## Filters -/

/-- A row unfiltered from the left: `first` predicts a byte of the first pixel from the byte
above, `next` any other byte from the bytes to the left, above, and above to the left. -/
def unfilterRow (bpp : Nat) (first : UInt8 → UInt8) (next : UInt8 → UInt8 → UInt8 → UInt8)
    (row prev : List UInt8) : List UInt8 :=
  (List.range row.length).foldl (fun out i =>
    let predicted :=
      if i < bpp then first (prev.getD i 0)
      else next (out.getD (i - bpp) 0) (prev.getD i 0) (prev.getD (i - bpp) 0)
    out ++ [row.getD i 0 + predicted]) []

def halfSum (a b : UInt8) : UInt8 := UInt8.ofNat ((a.toNat + b.toNat) / 2)

def paethPredictor (left above aboveLeft : UInt8) : UInt8 :=
  let a : Int := left.toNat
  let b : Int := above.toNat
  let c : Int := aboveLeft.toNat
  let p := b - c
  let pc := a - c
  let pa := p.natAbs
  let pb := pc.natAbs
  let pc := (p + pc).natAbs
  let (pa, a) := if pb < pa then (pb, above) else (pa, left)
  if pc < pa then aboveLeft else a

def pngReadFilterRowSub (bpp : Nat) : List UInt8 → List UInt8 → List UInt8 :=
  unfilterRow bpp (fun _ => 0) (fun left _ _ => left)

def pngReadFilterRowUp (bpp : Nat) : List UInt8 → List UInt8 → List UInt8 :=
  unfilterRow bpp id (fun _ above _ => above)

def pngReadFilterRowAvg (bpp : Nat) : List UInt8 → List UInt8 → List UInt8 :=
  unfilterRow bpp (· / 2) (fun left above _ => halfSum above left)

def pngReadFilterRowPaeth (bpp : Nat) : List UInt8 → List UInt8 → List UInt8 :=
  unfilterRow bpp id paethPredictor

/-- `png_read_filter_row`, for a filter byte that is neither 0 nor too large. -/
def pngReadFilterRow (ri : PngRowInfo) (row prev : List UInt8) (filter : UInt8) : List UInt8 :=
  let bpp := (ri.pixelDepth + 7) >>> 3
  if filter = 1 then pngReadFilterRowSub bpp row prev
  else if filter = 2 then pngReadFilterRowUp bpp row prev
  else if filter = 3 then pngReadFilterRowAvg bpp row prev
  else if filter = 4 then pngReadFilterRowPaeth bpp row prev
  else row

/-! ## Interlace passes -/

def packByte (depth : Nat) (samples : List UInt8) : UInt8 :=
  (List.range (8 / depth)).foldl (fun b i => b <<< UInt8.ofNat depth ||| samples.getD i 0) 0

def packRow (depth : Nat) (samples : List UInt8) : List UInt8 :=
  (List.range ((samples.length * depth + 7) / 8)).map fun i =>
    packByte depth (samples.drop (i * (8 / depth)))

def pngDoReadInterlace (ri : PngRowInfo) (row : List UInt8) (pass : Nat) :
    PngRowInfo × List UInt8 :=
  let finalWidth := ri.width * pngPassInc pass
  let jstop := pngPassInc pass
  let row :=
    if ri.pixelDepth = 1 ∨ ri.pixelDepth = 2 ∨ ri.pixelDepth = 4 then
      packRow ri.pixelDepth ((unpackRow ri.pixelDepth ri.width row).flatMap (List.replicate jstop))
    else
      mapPixels (ri.pixelDepth >>> 3) (fun px => (List.replicate jstop px).flatten) ri.width row
  ({ ri with width := finalWidth, rowbytes := rowbytes ri.pixelDepth finalWidth }, row)

def pngPassStartCol (pass : Nat) : Nat := ((1 &&& pass) <<< (3 - ((pass + 1) >>> 1))) &&& 7
def pngPassColOffset (pass : Nat) : Nat := 1 <<< ((7 - pass) >>> 1)

def pngPassBlock (pass : Nat) : Nat := 1 <<< ((6 - pass) >>> 1)

/-- `B_COPY`: pixel `x` of a row is copied in an odd pass. -/
def blockCopy (pass x : Nat) : Bool :=
  (if pass < 4 then 0xff0fff33 >>> ((3 - pass) * 8 + (7 - x % 8))
    else 0xff55ff00 >>> ((7 - pass) * 8 + (7 - x % 8))) % 2 = 1

/-- The bits of byte `i` of a row of pixels of `depth` < 8 bits that an odd pass copies. -/
def blockMask (pass depth i : Nat) : UInt8 :=
  packByte depth ((List.range (8 / depth)).map fun k =>
    if blockCopy pass (i * (8 / depth) + k) then UInt8.ofNat (2 ^ depth - 1) else 0)

/-- Blocks of `copy` bytes from `sp`, one every `jump` bytes, up to the end of `dp`. -/
def copyBlocks (copy jump : Nat) : Nat → List UInt8 → List UInt8 → List UInt8
  | 0, dp, _ => dp
  | rounds + 1, dp, sp =>
    let copied := overwrite dp 0 (sp.take (min copy dp.length))
    if dp.length ≤ jump then copied
    else copied.take jump ++ copyBlocks copy jump rounds (dp.drop jump) (sp.drop jump)

def restoreEnd (bits : Nat) (old new : List UInt8) : List UInt8 :=
  if bits % 8 = 0 then new
  else
    let mask : UInt8 := 0xff >>> UInt8.ofNat (bits % 8)
    let last := new.length - 1
    new.set last ((old.getD last 0 &&& mask) ||| (new.getD last 0 &&& ~~~mask))

/-- `png_combine_row` with `display` 1, the one way the progressive reader calls it. `dp` are the
bytes of the image row, and the result is what they become. -/
def pngCombineRow (h : Header) (r : Rows) (dp : List UInt8) : Except Jump (List UInt8) :=
  let pixelDepth := r.transformedPixelDepth
  let sp := r.rowBuf.drop 1
  if pixelDepth = 0 then .error (.pngError none "internal row logic error")
  else if r.infoRowbytes ≠ 0 ∧ r.infoRowbytes ≠ rowbytes pixelDepth h.width then
    .error (.pngError none "internal row size calculation error")
  else if h.width = 0 then .error (.pngError none "internal row width error")
  else if h.interlaced ≠ 0 ∧ r.transformations.interlace ∧ r.pass < 6 ∧ r.pass &&& 1 ≠ 0 then
    if h.width ≤ pngPassStartCol r.pass then .ok dp
    else if pixelDepth < 8 then
      let combined := (List.range (rowbytes pixelDepth h.width)).map fun i =>
        let mask := blockMask r.pass pixelDepth i
        (dp.getD i 0 &&& ~~~mask) ||| (sp.getD i 0 &&& mask)
      .ok (restoreEnd (pixelDepth * h.width) dp combined)
    else if pixelDepth &&& 7 ≠ 0 then
      .error (.pngError none "invalid user transform pixel depth")
    else
      let pixelDepth := pixelDepth >>> 3
      let offset := pngPassStartCol r.pass * pixelDepth
      .ok (dp.take offset ++
        copyBlocks (pngPassBlock r.pass * pixelDepth) (pngPassColOffset r.pass * pixelDepth)
          dp.length (dp.drop offset) (sp.drop offset))
  else
    .ok (restoreEnd (pixelDepth * h.width) dp (sp.take (rowbytes pixelDepth h.width)))

/-! ## Counting rows and passes -/

def nextPass (width pass : Nat) : Nat :=
  let pass := pass + 1
  let pass :=
    if (pass = 1 ∧ width < 5) ∨ (pass = 3 ∧ width < 3) ∨ (pass = 5 ∧ width < 2) then pass + 1
    else pass
  if pass > 7 then pass - 1 else pass

/-- The `do` loop of `png_read_push_finish_row`, for at most `rounds` passes. -/
def startPass (h : Header) : Nat → Rows → Rows
  | 0, r => r
  | rounds + 1, r =>
    let r := { r with pass := nextPass h.width r.pass }
    if r.pass ≥ 7 then r
    else
      let r := { r with
        iwidth := (h.width + pngPassInc r.pass - 1 - pngPassStart r.pass) / pngPassInc r.pass }
      if r.transformations.interlace then r
      else
        let r := { r with
          numRows :=
            (h.height + pngPassYinc r.pass - 1 - pngPassYstart r.pass) / pngPassYinc r.pass }
        if r.iwidth = 0 ∨ r.numRows = 0 then startPass h rounds r else r

def pngReadPushFinishRow (h : Header) (r : Rows) : Rows :=
  let r := { r with rowNumber := r.rowNumber + 1 }
  if r.rowNumber < r.numRows then r
  else if h.interlaced ≠ 0 then
    startPass h 7 { r with rowNumber := 0, prevRow := List.replicate (h.rowbytes + 1) 0 }
  else r

end PngDecode.Libpng
