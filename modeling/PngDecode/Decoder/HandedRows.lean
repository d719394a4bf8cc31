import PngDecode.Decoder.Info
import PngDecode.Libpng.Combine
import PngDecode.Libpng.ProcessRow

/-! # Handing rows over

What one call of the row callback and the step to the next row do, once `DecodeInfoCallback` has
set the decoder up and the first row has been transformed. -/

namespace PngDecode.Decoder
open PngDecode.Lib PngDecode.Libpng

variable {h : Header} {r r' : Rows} {width : Option Nat}

/-! ## Positions -/

def passWidth (h : Header) (pass : Nat) : Nat :=
  if h.interlaced = 1 then (h.width + pngPassInc pass - 1 - pngPassStart pass) / pngPassInc pass
  else h.width

/-- The row and the pass that `png_read_push_finish_row` goes on with. -/
def nextPosition (h : Header) (row pass : Nat) : Nat × Nat :=
  if row + 1 < h.height then (row + 1, pass)
  else if h.interlaced = 1 then (0, nextPass h.width pass)
  else (row + 1, pass)

def nextWidth (h : Header) (row pass iwidth : Nat) : Nat :=
  if row + 1 < h.height then iwidth
  else if h.interlaced = 1 ∧ nextPass h.width pass ≤ 6 then passWidth h (nextPass h.width pass)
  else iwidth

def nextPrevRow (h : Header) (row : Nat) (prevRow : List UInt8) : List UInt8 :=
  if row + 1 < h.height then prevRow
  else if h.interlaced = 1 then List.replicate (h.rowbytes + 1) 0
  else prevRow

/-- What a row callback and the step to the next row change. -/
structure Handed (h : Header) (width : Option Nat) (r r' : Rows) : Prop where
  position : (r'.rowNumber, r'.pass) = nextPosition h r.rowNumber r.pass
  rowWidth : r'.iwidth = nextWidth h r.rowNumber r.pass r.iwidth
  prevRow : r'.prevRow = nextPrevRow h r.rowNumber r.prevRow
  rowBuf : r'.rowBuf = r.rowBuf
  transformations : r'.transformations = r.transformations
  gammaTable : r'.gammaTable = r.gammaTable
  app : r'.app = { r.app with output := r'.app.output }
  output : ∀ y < h.height, ∀ x < h.width, pixelAt 4 r'.app.output (h.width * y + x) =
    if width.isSome ∧ y = r.rowNumber ∧ copiedPixel h r.pass x = true then
      pixelAt 4 (r.rowBuf.drop 1) x
    else pixelAt 4 r.app.output (h.width * y + x)
  trace : r'.trace = r.trace ++
    .row r.rowNumber r.pass (width.map fun w => (w, (r.rowBuf.drop 1).length)) ::
      if width.isSome then
        [.product (h.width * 4), .write r.rowNumber (4 * h.width * r.rowNumber) (4 * h.width)]
      else []

theorem Handed.iwidth (handed : Handed h width r r') (same : r.iwidth = passWidth h r.pass)
    (inPass : r'.pass ≤ 6) : r'.iwidth = passWidth h r'.pass := by
  have position := handed.position
  rw [handed.rowWidth]
  unfold nextPosition at position
  unfold nextWidth
  by_cases more : r.rowNumber + 1 < h.height
  · rw [if_pos more, Prod.mk.injEq] at position
    rw [if_pos more, position.2, same]
  rw [if_neg more] at position ⊢
  by_cases adam7 : h.interlaced = 1
  · rw [if_pos adam7, Prod.mk.injEq] at position
    rw [if_pos ⟨adam7, position.2 ▸ inPass⟩, position.2]
  · rw [if_neg adam7, Prod.mk.injEq] at position
    rw [if_neg fun both => adam7 both.1, position.2, same]

/-! ## The row callback -/

theorem rowNum_toInt (rowNum : UInt32) : rowNum.toInt32.toInt =
    if rowNum.toNat < 2 ^ 31 then (rowNum.toNat : Int) else rowNum.toNat - 2 ^ 32 := by
  have small := rowNum.toNat_lt
  rw [UInt32.toInt32, Int32.toInt, BitVec.toInt_eq_toNat_cond]
  have bits : Int32.toBitVec ⟨rowNum⟩ = rowNum.toBitVec := rfl
  rw [bits, UInt32.toNat_toBitVec]
  split <;> split <;> omega

theorem dest_toNat (w : Nat) (rowNum : UInt32) :
    (UInt32.ofInt ((w : Int) * 4) * rowNum).toNat = 4 * w * rowNum.toNat % 2 ^ 32 := by
  have wrapped : (UInt32.ofInt ((w : Int) * 4)).toNat = w * 4 % 2 ^ 32 := by
    have cast : (w : Int) * 4 = ((w * 4 : Nat) : Int) := by push_cast; rfl
    rw [UInt32.ofInt, UInt32.toNat_ofNat', cast]
    omega
  rw [UInt32.toNat_mul, wrapped, Nat.mod_mul_mod, Nat.mul_comm w 4]

theorem rowEnd_le {n : Nat} (inside : n < h.height) :
    4 * h.width * n + 4 * h.width ≤ 4 * h.width * h.height := by
  rw [← Nat.mul_succ]
  exact Nat.mul_le_mul_left _ inside

namespace Configured

theorem combineReady (configured : Configured h r) (depth : r.transformedPixelDepth = 32) :
    CombineReady h r where
  width := configured.valid.widthPos
  interlace interlaced := by
    have := configured.valid.interlace
    rw [configured.interlace, decide_eq_true_eq]
    omega
  infoRowbytes := configured.infoRowbytes
  depth := depth

theorem area (configured : Configured h r) : 4 * h.width * h.height ≤ 4 * (2 ^ 29 - 1) := by
  rw [Nat.mul_assoc]
  exact Nat.mul_le_mul_left 4 configured.small

theorem heightMax (configured : Configured h r) : h.height < 2 ^ 29 := by
  have := configured.small
  have := Nat.le_mul_of_pos_left h.height configured.valid.widthPos
  omega

end Configured

theorem decodeRowCallback_some (configured : Configured h r)
    (depth : r.transformedPixelDepth = 32) (rowNum : UInt32) (inside : rowNum.toNat < h.height)
    (covers : Covers h r.pass r.rowBuf) (row : List UInt8) :
    ∃ combined, combined.length = 4 * h.width ∧
      (∀ x < h.width, pixelAt 4 combined x =
        if copiedPixel h r.pass x then pixelAt 4 (r.rowBuf.drop 1) x
        else pixelAt 4 r.app.output (h.width * rowNum.toNat + x)) ∧
      decodeRowCallback h r (some row) rowNum = .ok { r with
        app := { r.app with
          output := overwrite r.app.output (4 * h.width * rowNum.toNat) combined }
        trace := r.trace ++
          [.product (h.width * 4), .write rowNum.toNat (4 * h.width * rowNum.toNat) (4 * h.width)] } := by
  have area := configured.area
  have rowEnd := rowEnd_le inside
  have heightMax := configured.heightMax
  have dest : (UInt32.ofInt (r.app.width * r.app.outputChannels) * rowNum).toNat =
      4 * h.width * rowNum.toNat := by
    rw [configured.appWidth, configured.appChannels, dest_toNat, Nat.mod_eq_of_lt]
    omega
  have accepted : ¬ rowNum.toInt32.toInt > r.app.height := by
    rw [rowNum_toInt, configured.appHeight, if_pos (by omega)]
    omega
  have bytes : rowbytes r.transformedPixelDepth h.width = 4 * h.width := by
    rw [depth, rowbytes_32]
  have full : ((r.app.output.drop (4 * h.width * rowNum.toNat)).take (4 * h.width)).length =
      4 * h.width := by
    rw [List.length_take, List.length_drop, configured.output]
    omega
  have ready : CombineReady h { r with
      trace := r.trace ++ [.product (r.app.width * r.app.outputChannels)] } :=
    ⟨(configured.combineReady depth).width, (configured.combineReady depth).interlace,
      (configured.combineReady depth).infoRowbytes, depth⟩
  obtain ⟨combined, eq, wide, pixels⟩ := pngCombineRow_pixels ready _ full covers
  refine ⟨combined, wide, fun x hx => ?_, ?_⟩
  · rw [pixels x hx, pixelAt_take _ hx, Nat.mul_assoc, pixelAt_drop]
  · unfold decodeRowCallback
    dsimp only
    rw [if_neg accepted]
    unfold pngProgressiveCombineRow
    dsimp only
    rw [dest, bytes, eq, configured.appWidth, configured.appChannels]
    simp only [List.append_assoc, List.cons_append, List.nil_append]

/-! ## The next row -/

theorem pngReadPushFinishRow_spec (configured : Configured h r) :
    ∃ rowNumber pass, (rowNumber, pass) = nextPosition h r.rowNumber r.pass ∧
      pngReadPushFinishRow h r = { r with
        rowNumber, pass
        iwidth := nextWidth h r.rowNumber r.pass r.iwidth
        prevRow := nextPrevRow h r.rowNumber r.prevRow } := by
  have valid := configured.valid.interlace
  unfold pngReadPushFinishRow nextPosition nextWidth nextPrevRow
  dsimp only
  rw [configured.numRows]
  by_cases more : r.rowNumber + 1 < h.height
  · simp only [if_pos more]
    exact ⟨_, _, rfl, rfl⟩
  simp only [if_neg more]
  by_cases interlaced : h.interlaced = 1
  · have adam7 : h.interlaced ≠ 0 := by omega
    simp only [if_pos interlaced, if_pos adam7]
    refine ⟨_, _, rfl, ?_⟩
    unfold startPass
    dsimp only
    by_cases last : nextPass h.width r.pass ≥ 7
    · rw [if_pos last, if_neg fun both => by omega]
    · have asks : r.transformations.interlace = true := by
        rw [configured.interlace, interlaced]; rfl
      rw [if_neg last, if_pos asks, if_pos ⟨interlaced, by omega⟩, passWidth, if_pos interlaced]
  · have plain : ¬ h.interlaced ≠ 0 := by omega
    simp only [if_neg plain, interlaced, false_and, if_false]
    exact ⟨_, _, rfl, rfl⟩

/-! ## Both -/

theorem haveRowAndFinish_handed (configured : Configured h r)
    (depth : r.transformedPixelDepth = 32) (inside : r.rowNumber < h.height)
    (covers : width.isSome → Covers h r.pass r.rowBuf) :
    ∃ r', haveRowAndFinish h width r = .ok r' ∧ Configured h r' ∧ Handed h width r r' ∧
      r'.transformedPixelDepth = 32 := by
  have heightMax := configured.heightMax
  have cast : (UInt32.ofNat r.rowNumber).toNat = r.rowNumber := by
    rw [UInt32.toNat_ofNat', Nat.mod_eq_of_lt (by omega)]
  -- the state behind the callback
  suffices called : ∃ output trace, output.length = r.app.output.length ∧
      pngPushHaveRow h width r = .ok { r with trace, app := { r.app with output } } ∧
      (∀ y < h.height, ∀ x < h.width, pixelAt 4 output (h.width * y + x) =
        if width.isSome ∧ y = r.rowNumber ∧ copiedPixel h r.pass x = true then
          pixelAt 4 (r.rowBuf.drop 1) x
        else pixelAt 4 r.app.output (h.width * y + x)) ∧
      trace = r.trace ++
        .row r.rowNumber r.pass (width.map fun w => (w, (r.rowBuf.drop 1).length)) ::
          if width.isSome then
            [.product (h.width * 4), .write r.rowNumber (4 * h.width * r.rowNumber) (4 * h.width)]
          else [] by
    obtain ⟨output, trace, wide, have', pixels, events⟩ := called
    have configured' : Configured h { r with trace, app := { r.app with output } } :=
      configured.update { output := wide } configured.depth
    obtain ⟨rowNumber, pass, position, finish⟩ := pngReadPushFinishRow_spec configured'
    refine ⟨{ r with
      rowNumber, pass, trace
      iwidth := nextWidth h r.rowNumber r.pass r.iwidth
      prevRow := nextPrevRow h r.rowNumber r.prevRow
      app := { r.app with output } }, ?_, configured'.update {} configured.depth,
      ⟨position, rfl, rfl, rfl, rfl, rfl, rfl, pixels, events⟩, depth⟩
    rw [haveRowAndFinish, have', ok_bind, finish]
  cases width with
  | none => exact ⟨r.app.output, _, rfl, rfl, fun _ _ _ _ => by simp, rfl⟩
  | some w =>
    have configured' : Configured h { r with
        trace := r.trace ++ [.row r.rowNumber r.pass (some (w, (r.rowBuf.drop 1).length))] } :=
      configured.update {} configured.depth
    obtain ⟨combined, wide, pixels, eq⟩ := decodeRowCallback_some configured' depth
      (UInt32.ofNat r.rowNumber) (by rw [cast]; exact inside) (covers rfl) (r.rowBuf.drop 1)
    rw [cast] at pixels eq
    refine ⟨overwrite r.app.output (4 * h.width * r.rowNumber) combined, _, overwrite_length ..,
      eq, fun y hy x hx => ?_, by simp⟩
    rw [pixelAt_overwrite (by rw [configured.output, Nat.mul_assoc]) wide inside hx]
    by_cases here : y = r.rowNumber
    · subst here
      rw [if_pos rfl, pixels x hx]
      simp
    · rw [if_neg here, if_neg (fun all => here all.2.1)]

end PngDecode.Decoder
