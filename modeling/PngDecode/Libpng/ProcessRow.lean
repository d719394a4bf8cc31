import PngDecode.Decoder.Callbacks

/-! # Processing a row

`png_push_process_row`: a complete row in `row_buf` is unfiltered, transformed, expanded if it is
of an interlace pass, and handed to the row callback as often as the image shows it. -/

namespace PngDecode.Libpng
open PngDecode.Lib PngDecode.Decoder

/-! ## Handing rows over -/

/-- `png_push_have_row` with the row behind the filter byte of `row_buf`, or with `NULL`. -/
def pngPushHaveRow (h : Header) (width : Option Nat) (r : Rows) : Fallible Rows Rows :=
  let newRow := width.map fun _ => r.rowBuf.drop 1
  let row := width.map fun width => (width, (r.rowBuf.drop 1).length)
  decodeRowCallback h { r with trace := r.trace ++ [.row r.rowNumber r.pass row] } newRow
    (UInt32.ofNat r.rowNumber)

def haveRowAndFinish (h : Header) (width : Option Nat) (r : Rows) : Fallible Rows Rows := do
  let r ← pngPushHaveRow h width r
  .ok (pngReadPushFinishRow h r)

/-- `for (i = 0; i < n && png_ptr->pass == pass; i++)` -/
def haveRows (h : Header) (width : Option Nat) (pass : Nat) : Nat → Rows → Fallible Rows Rows
  | 0, r => .ok r
  | n + 1, r =>
    if r.pass = pass then do
      let r ← haveRowAndFinish h width r
      haveRows h width pass n r
    else .ok r

/-- The `switch` of `png_push_process_row`, on the pass the row belongs to. -/
def haveInterlacedRows (h : Header) (width : Nat) (r : Rows) : Fallible Rows Rows :=
  match r.pass with
  | 0 => do
    let r ← haveRows h (some width) 0 8 r
    -- pass 1 might be empty
    let r ← haveRows h none 2 4 r
    let r ← onlyIf (h.height ≤ 4) (haveRows h none 4 2) r
    onlyIf (r.pass = 6 ∧ h.height ≤ 4) (haveRowAndFinish h none) r
  | 1 => do
    let r ← haveRows h (some width) 1 8 r
    haveRows h none 2 4 r
  | 2 => do
    let r ← haveRows h (some width) 2 4 r
    let r ← haveRows h none 2 4 r
    -- pass 3 might be empty
    haveRows h none 4 2 r
  | 3 => do
    let r ← haveRows h (some width) 3 4 r
    haveRows h none 4 2 r
  | 4 => do
    let r ← haveRows h (some width) 4 2 r
    let r ← haveRows h none 4 2 r
    -- pass 5 might be empty
    onlyIf (r.pass = 6) (haveRowAndFinish h none) r
  | 5 => do
    let r ← haveRows h (some width) 5 2 r
    onlyIf (r.pass = 6) (haveRowAndFinish h none) r
  | _ => do
    let r ← haveRowAndFinish h (some width) r
    onlyIf (r.pass = 6) (haveRowAndFinish h none) r

/-! ## The row -/

def unfilterRowBuf (h : Header) (r : Rows) : Fallible Rows Rows :=
  let ri := rowInfo h r.iwidth
  let filter := r.rowBuf.getD 0 0
  if filter ≥ 5 then pngError r "bad adaptive filter value"
  else
    let row := pngReadFilterRow ri (r.rowBuf.drop 1) (r.prevRow.drop 1) filter
    let rowBuf := filter :: row
    .ok { r with rowBuf, prevRow := overwrite r.prevRow 0 (rowBuf.take (ri.rowbytes + 1)) }

def Transformations.any (t : Transformations) : Bool :=
  t.expand || t.expandTRNS || t.chop16 || t.grayToRGB || t.gamma || t.bgr || t.filler ||
    t.addAlpha || t.userTransform || t.interlace

/-- The depth of a transformed row is noted for the first row and checked for the others. -/
def checkPixelDepth (ri : PngRowInfo) (r : Rows) : Fallible Rows Rows :=
  if r.transformedPixelDepth = 0 then
    let r := { r with transformedPixelDepth := ri.pixelDepth }
    if ri.pixelDepth > r.maximumPixelDepth then pngError r "progressive row overflow"
    else .ok r
  else if r.transformedPixelDepth ≠ ri.pixelDepth then
    pngError r "internal progressive row size calculation error"
  else .ok r

def transformRowBuf (h : Header) (r : Rows) : Fallible Rows (PngRowInfo × Rows) :=
  if r.transformations.any then pngDoReadTransformations h r (rowInfo h r.iwidth)
  else .ok (rowInfo h r.iwidth, r)

/-- The end of `png_push_process_row`. -/
def handOverRow (h : Header) (ri : PngRowInfo) (r : Rows) : Fallible Rows Rows :=
  if h.interlaced ≠ 0 ∧ r.transformations.interlace then
    let (ri, row) :=
      if r.pass < 6 then pngDoReadInterlace ri (r.rowBuf.drop 1) r.pass
      else (ri, r.rowBuf.drop 1)
    haveInterlacedRows h ri.width { r with rowBuf := r.rowBuf.take 1 ++ row }
  else haveRowAndFinish h (some ri.width) r

def pngPushProcessScanline (h : Header) (r : Rows) : Fallible Rows Rows := do
  let (ri, r) ← transformRowBuf h r
  let r ← checkPixelDepth ri r
  handOverRow h ri r

def pngPushProcessRow (h : Header) (r : Rows) : Fallible Rows Rows := do
  let r ← unfilterRowBuf h r
  pngPushProcessScanline h r

end PngDecode.Libpng
