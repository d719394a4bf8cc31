import PngDecode.Libpng.Encode
import PngDecode.Libpng.Filters

/-! # The writer's rows

`png_write_image` hands every row of the image to `png_write_row` once for each pass. That one picks
the pixels of the pass, filters them, and goes to the next row. -/

namespace PngDecode.Libpng
open PngDecode.Lib

/-! ## One row -/

/-- Between two rows: `prev_row` behind its filter byte, and what `png_compress_IDAT` was given. -/
structure Writer where
  rowNumber : Nat
  pass : Nat
  prevRow : List UInt8
  out : List UInt8

def pngWriteFinishRow (h : Header) (w : Writer) : Writer :=
  let w := { w with rowNumber := w.rowNumber + 1 }
  if w.rowNumber < h.height then w
  else if h.interlaced ≠ 0 then
    let w := { w with rowNumber := 0, pass := w.pass + 1 }
    -- the row above the image for the next pass
    if w.pass < 7 then { w with prevRow := List.replicate h.rowbytes 0 } else w
  else w

def pngWriteFilteredRow (h : Header) (filtered row : List UInt8) (w : Writer) : Writer :=
  pngWriteFinishRow h { w with prevRow := row, out := w.out ++ filtered }

/-- The `switch` of `png_write_row`: the row is of no interest to the pass. -/
def skipsRow (width row pass : Nat) : Bool :=
  match pass with
  | 0 => row &&& 7 ≠ 0
  | 1 => row &&& 7 ≠ 0 ∨ width < 5
  | 2 => row &&& 7 ≠ 4
  | 3 => row &&& 3 ≠ 0 ∨ width < 3
  | 4 => row &&& 3 ≠ 2
  | 5 => row &&& 1 ≠ 0 ∨ width < 2
  | 6 => row &&& 1 = 0
  | _ => false

def pngDoWriteInterlace (ri : PngRowInfo) (row : List UInt8) (pass : Nat) :
    PngRowInfo × List UInt8 :=
  if pass < 6 then
    let width := (ri.width + pngPassInc pass - 1 - pngPassStart pass) / pngPassInc pass
    let place := fun i => pngPassStart pass + i * pngPassInc pass
    let row :=
      if ri.pixelDepth = 1 ∨ ri.pixelDepth = 2 ∨ ri.pixelDepth = 4 then
        packRow ri.pixelDepth
          ((List.range width).map fun i => packedPixel ri.pixelDepth row (place i))
      else (List.range width).flatMap fun i => pixelAt (ri.pixelDepth >>> 3) row (place i)
    ({ ri with width, rowbytes := rowbytes ri.pixelDepth width }, row)
  else (ri, row)

/-- `png_write_row` for a row that no transformation changes. -/
def pngWriteRow (doFilter : UInt8) (h : Header) (row : List UInt8) (w : Writer) : Writer :=
  let ri := rowInfo h h.width
  if h.interlaced ≠ 0 ∧ skipsRow h.width w.rowNumber w.pass then pngWriteFinishRow h w
  else if h.interlaced ≠ 0 ∧ w.pass < 6 then
    let (ri, row) := pngDoWriteInterlace ri row w.pass
    if ri.width = 0 then pngWriteFinishRow h w
    else pngWriteFilteredRow h (pngWriteFindFilter doFilter ri row w.prevRow) row w
  else pngWriteFilteredRow h (pngWriteFindFilter doFilter ri row w.prevRow) row w

/-! ## The image -/

def writePasses (doFilter : UInt8) (h : Header) (image : List (List UInt8)) :
    Nat → Writer → Writer
  | 0, w => w
  | n + 1, w =>
    writePasses doFilter h image n (image.foldl (fun w row => pngWriteRow doFilter h row w) w)

/-- What `png_write_start_row` leaves of `do_filter`: the filters that make sense for the image. -/
def pngWriteStartRow (doFilter : UInt8) (h : Header) : UInt8 :=
  -- without PNG_FILTER_UP, PNG_FILTER_AVG and PNG_FILTER_PAETH
  let filters := if h.height = 1 then doFilter &&& 0x1f else doFilter
  -- without PNG_FILTER_SUB, PNG_FILTER_AVG and PNG_FILTER_PAETH
  let filters := if h.width = 1 then filters &&& 0x2f else filters
  if filters = 0 then 0x08 else filters

/-- `png_write_image`, with the bytes that go to `png_compress_IDAT`. -/
def pngWriteImage (doFilter : UInt8) (h : Header) (image : List (List UInt8)) : List UInt8 :=
  (writePasses (pngWriteStartRow doFilter h) h image (if h.interlaced ≠ 0 then 7 else 1)
    ⟨0, 0, List.replicate h.rowbytes 0, []⟩).out

/-! ## Picking the pixels of a pass -/

theorem pickedPixel_inside {width pass i : Nat}
    (inside : i < (width + pngPassInc pass - 1 - pngPassStart pass) / pngPassInc pass)
    (early : pass < 6) : pngPassStart pass + i * pngPassInc pass < width := by
  interval_cases pass <;>
    simp only [pngPassInc, pngPassStart, List.getD_cons_zero, List.getD_cons_succ] at inside ⊢ <;>
    omega

theorem pngDoWriteInterlace_encodeRow {h : Header} (valid : h.Valid) {n pass : Nat}
    {pixel : Nat → List UInt8} (pixels : ∀ i, IsPixel h (pixel i)) (early : pass < 6) :
    pngDoWriteInterlace (rowInfo h n) (encodeRow h n pixel) pass =
      let width := (n + pngPassInc pass - 1 - pngPassStart pass) / pngPassInc pass
      (rowInfo h width,
        encodeRow h width fun i => pixel (pngPassStart pass + i * pngPassInc pass)) := by
  have raw (i : Nat) (inside : i < (n + pngPassInc pass - 1 - pngPassStart pass) /
      pngPassInc pass) : rawPixel h (encodeRow h n pixel) (pngPassStart pass + i * pngPassInc pass) =
        pixel (pngPassStart pass + i * pngPassInc pass) :=
    rawPixel_encodeRow valid pixels (pickedPixel_inside inside early)
  unfold pngDoWriteInterlace
  rw [if_pos early]
  refine congrArg (Prod.mk _) ?_
  change (if h.pixelDepth = 1 ∨ h.pixelDepth = 2 ∨ h.pixelDepth = 4 then _ else _) = _
  by_cases low : h.bitDepth < 8
  · obtain ⟨packed, one⟩ := valid.packed low
    have depth : h.pixelDepth = h.bitDepth := by rw [valid.pixelDepth, one, Nat.mul_one]
    have picked : ∀ i ∈ List.range ((n + pngPassInc pass - 1 - pngPassStart pass) /
        pngPassInc pass), packedPixel h.bitDepth (encodeRow h n pixel)
          (pngPassStart pass + i * pngPassInc pass) =
            (pixel (pngPassStart pass + i * pngPassInc pass)).getD 0 0 := fun i member => by
      rw [← raw i (List.mem_range.mp member), rawPixel, if_pos low]
      rfl
    rw [if_pos (by rw [depth]; exact packed)]
    dsimp only [rowInfo]
    rw [depth, List.map_congr_left picked, encodeRow, if_pos low]
  · obtain ⟨bytes, wide⟩ := valid.whole low
    have lengths : ∀ i, (pixel i).length = h.channels * (h.bitDepth / 8) := fun i => by
      have := pixels i
      rwa [IsPixel, if_neg low] at this
    have picked : ∀ i ∈ List.range ((n + pngPassInc pass - 1 - pngPassStart pass) /
        pngPassInc pass), pixelAt (h.pixelDepth >>> 3) (encodeRow h n pixel)
          (pngPassStart pass + i * pngPassInc pass) =
            pixel (pngPassStart pass + i * pngPassInc pass) := fun i member => by
      rw [encodeRow, if_neg low, Nat.shiftRight_eq_div_pow, show 2 ^ 3 = 8 from rfl, bytes]
      exact pixelAt_flatMap lengths (pickedPixel_inside (List.mem_range.mp member) early)
    rw [if_neg (by omega)]
    dsimp only [rowInfo]
    rw [List.flatMap_def, List.map_congr_left picked, encodeRow, if_neg low, rowOf,
      List.flatMap_def]

/-! ## The rows of a pass -/

theorem skipsRow_eq {width row pass : Nat} (wide : 0 < width) (inPass : pass ≤ 6) :
    skipsRow width row pass =
      !(decide (row % pngPassYinc pass = pngPassYstart pass) &&
        decide (pngPassStart pass < width)) := by
  have and7 : row &&& 7 = row % 8 := Nat.and_two_pow_sub_one_eq_mod row 3
  have and3 : row &&& 3 = row % 4 := Nat.and_two_pow_sub_one_eq_mod row 2
  have and1 : row &&& 1 = row % 2 := Nat.and_two_pow_sub_one_eq_mod row 1
  rw [Bool.eq_iff_iff]
  interval_cases pass <;>
    simp only [skipsRow, and7, and3, and1, pngPassYinc, pngPassYstart, pngPassStart,
      List.getD_cons_zero, List.getD_cons_succ, decide_eq_true_eq, Bool.not_eq_true',
      Bool.and_eq_false_iff, decide_eq_false_iff_not] <;> omega

end PngDecode.Libpng
