import PngDecode.Decoder.Delivery
import PngDecode.Decoder.Written

/-! # What libpng writes is read back

The writer and the reader keep the same previous row. So the lines that `png_write_image` makes of
an image, through whichever filters, are drawn as the image itself. -/

namespace PngDecode.Decoder
open PngDecode.Lib PngDecode.Libpng

variable {env : Env} {h : Header} {r r' r₂ : Rows} {g : List UInt8 → List UInt8} {w : Nat}
  {m : PixelMatrix} {doFilter : UInt8} {pass : Nat} {prevRow line row : List UInt8}

/-! ## The previous row of the reader -/

def KeepsPrevRow (h : Header) (r r' : Rows) : Prop :=
  r'.pass = r.pass ∧ r'.prevRow = r.prevRow ∨
    r.pass < r'.pass ∧ r'.prevRow = List.replicate (h.rowbytes + 1) 0

theorem KeepsPrevRow.trans (first : KeepsPrevRow h r r') (second : KeepsPrevRow h r' r₂) :
    KeepsPrevRow h r r₂ := by
  unfold KeepsPrevRow at *
  rcases first with ⟨pass, prev⟩ | ⟨later, prev⟩ <;>
    rcases second with ⟨pass', prev'⟩ | ⟨later', prev'⟩
  · exact .inl ⟨pass'.trans pass, prev'.trans prev⟩
  · exact .inr ⟨by omega, prev'⟩
  · exact .inr ⟨by omega, prev'.trans prev⟩
  · exact .inr ⟨by omega, prev'⟩

theorem Handed.keepsPrevRow {width : Option Nat} (handed : Handed h width r r')
    (inPass : r.pass ≤ 6) : KeepsPrevRow h r r' := by
  have position := handed.position
  have prev := handed.prevRow
  unfold nextPosition at position
  unfold nextPrevRow at prev
  by_cases more : r.rowNumber + 1 < h.height
  · rw [if_pos more] at position prev
    exact .inl ⟨(Prod.mk.inj position).2, prev⟩
  rw [if_neg more] at position prev
  by_cases adam7 : h.interlaced = 1
  · rw [if_pos adam7] at position prev
    have later := nextPass_later h.width inPass
    rw [← (Prod.mk.inj position).2] at later
    exact .inr ⟨later, prev⟩
  · rw [if_neg adam7] at position prev
    exact .inl ⟨(Prod.mk.inj position).2, prev⟩

theorem Waits.keepsPrevRow (waits : Waits h w r r') : KeepsPrevRow h r r' := by
  induction waits with
  | refl r => exact .inl ⟨rfl, rfl⟩
  | step _ inPass _ handed _ ih => exact (handed.keepsPrevRow inPass).trans ih

theorem Drawn.keepsPrevRow (drawn : Drawn h g r r₂) (inPass : r.pass ≤ 6) :
    KeepsPrevRow h r r₂ := by
  obtain ⟨w, rt, r₁, transformed, handed, waits⟩ := drawn.rows
  obtain ⟨rowBuf, isOpaque, rfl⟩ := transformed.same
  exact (handed.keepsPrevRow inPass).trans waits.keepsPrevRow

/-- The previous row of the reader is that of the writer, as far as the next row looks at it. -/
structure PrevRow (h : Header) (pass : Nat) (prevRow : List UInt8) (r : Rows) : Prop where
  length : r.prevRow.length = h.rowbytes + 1
  same : ∀ i < rowbytes h.pixelDepth (passWidth h r.pass), (r.prevRow.drop 1).getD i 0 =
    (if r.pass = pass then prevRow else List.replicate h.rowbytes 0).getD i 0

theorem KeepsPrevRow.above {filter : UInt8} {tail : List UInt8} (keeps : KeepsPrevRow h r r₂)
    (prev : r.prevRow = filter :: row ++ tail) (long : r.prevRow.length = h.rowbytes + 1)
    (full : row.length = rowbytes h.pixelDepth (passWidth h r.pass)) :
    PrevRow h r.pass row r₂ := by
  rcases keeps with ⟨pass, same⟩ | ⟨later, cleared⟩
  · refine ⟨by rw [same, long], fun i inside => ?_⟩
    rw [pass, ← full] at inside
    rw [same, prev, if_pos pass]
    simp [List.getElem?_append_left inside]
  · refine ⟨by rw [cleared, List.length_replicate], fun i inside => ?_⟩
    rw [cleared, if_neg (Nat.ne_of_gt later), List.drop_replicate, Nat.add_sub_cancel]

theorem overwrite_front {mem : List UInt8} {filter : UInt8} {k n : Nat}
    (long : mem.length = n + 1) (full : row.length = k) (fits : k ≤ n) :
    overwrite mem 0 (filter :: row) = filter :: row ++ mem.drop (k + 1) := by
  have inside : (filter :: row).length ≤ mem.length := by
    rw [List.length_cons, full, long]
    exact Nat.succ_le_succ fits
  rw [overwrite, List.take_zero, List.nil_append, Nat.sub_zero, List.take_of_length_le inside,
    Nat.zero_add, List.length_cons, full]

/-! ## Reading what has been written -/

theorem rowbytes_mono {bits n k : Nat} (le : n ≤ k) : rowbytes bits n ≤ rowbytes bits k := by
  unfold rowbytes
  split
  · exact Nat.mul_le_mul_right _ le
  · rw [Nat.shiftRight_eq_div_pow, Nat.shiftRight_eq_div_pow]
    exact Nat.div_le_div_right (Nat.add_le_add_right (Nat.mul_le_mul_right _ le) 7)

theorem passWidth_le (h : Header) {pass : Nat} (inPass : pass ≤ 6) :
    passWidth h pass ≤ h.width := by
  unfold passWidth
  split
  · interval_cases pass <;>
      simp only [pngPassInc, pngPassStart, List.getD_cons_zero, List.getD_cons_succ] <;> omega
  · exact Nat.le_refl _

theorem pixelDepth_pos (valid : h.Valid) : 0 < h.pixelDepth := by
  have formats : ∀ f ∈ pixelFormats, 0 < f.2 * channelsOf f.1 := by decide
  rw [valid.pixelDepth, valid.channels]
  exact formats _ valid.format

theorem unfilterRowBuf_stored
    (stored : StoredAs (rowInfo h r.iwidth) row (r.prevRow.drop 1) line)
    (full : row.length = rowbytes h.pixelDepth r.iwidth) :
    unfilterRowBuf h { r with rowBuf := line } = .ok { r with
      rowBuf := line.getD 0 0 :: row
      prevRow := overwrite r.prevRow 0 (line.getD 0 0 :: row) } := by
  have all : (line.getD 0 0 :: row).take ((rowInfo h r.iwidth).rowbytes + 1) =
      line.getD 0 0 :: row := by
    apply List.take_of_length_le
    rw [List.length_cons, full]
    exact Nat.le_refl _
  unfold unfilterRowBuf
  dsimp only
  rw [if_neg (by exact UInt8.not_le.mpr stored.filter), stored.read, all]

theorem feedRows_written {format : ColorFormat} {ps : List (Nat × Nat)} (doFilter : UInt8)
    (pixels : ∀ y x, IsPixel h (m y x)) (ready : Ready h r) (samples : SamplePixels h r g)
    (outputFormat : r.app.outputFormat = format) (above : PrevRow h pass prevRow r)
    (left : (remaining h r.rowNumber r.pass).filter (hasScanline h) = ps)
    (painted : Painted h (outputPixel h format g) m r) :
    ∃ r', feedRows h (writeRows doFilter h m ps pass prevRow) r = .ok r' ∧ Ready h r' ∧
      r'.finished = true ∧ Painted h (outputPixel h format g) m r' := by
  induction ps generalizing r pass prevRow with
  | nil =>
    have finished := scanlinesLeft_nil ready left
    exact ⟨_, feedRows_stop (.inl finished), ready.buffers [] r.prevRow, finished, painted⟩
  | cons p ps ih =>
    obtain ⟨more, rfl⟩ := scanlinesLeft_cons ready left
    obtain ⟨inside, inPass⟩ := ready.unfinished.mp more
    have wide := ready.iwidth inPass
    have full : (scanline h m (r.rowNumber, r.pass)).length = rowbytes h.pixelDepth r.iwidth := by
      rw [scanline, encodeRow_length ready.valid fun i => pixels _ _, wide]
    have stored : StoredAs (rowInfo h r.iwidth) (scanline h m (r.rowNumber, r.pass))
        (r.prevRow.drop 1) (pngWriteFindFilter doFilter (rowInfo h r.iwidth)
          (scanline h m (r.rowNumber, r.pass))
          (if r.pass = pass then prevRow else List.replicate h.rowbytes 0)) :=
      pngWriteFindFilter_stored doFilter full (pixelDepth_pos ready.valid) fun _ i small =>
        above.same i (by rw [← wide, ← full]; exact small)
    rw [writeRows]
    dsimp only
    rw [← wide]
    generalize pngWriteFindFilter doFilter (rowInfo h r.iwidth) (scanline h m (r.rowNumber, r.pass))
      (if r.pass = pass then prevRow else List.replicate h.rowbytes 0) = line at stored
    have lineLength : line.length = rowbytes h.pixelDepth r.iwidth + 1 := by
      rw [stored.length, full]
    have fits : rowbytes h.pixelDepth r.iwidth ≤ h.rowbytes := by
      rw [wide, ready.valid.bytes]
      exact rowbytes_mono (passWidth_le h inPass)
    obtain ⟨r₂, eq, drawn, samples', format', painted', rest⟩ :=
      pngPushProcessScanline_painted (line.getD 0 0)
        (overwrite r.prevRow 0 (line.getD 0 0 :: scanline h m (r.rowNumber, r.pass)))
        ready more samples outputFormat pixels painted
    rw [left] at rest
    have above' : PrevRow h r.pass (scanline h m (r.rowNumber, r.pass)) r₂ :=
      (drawn.keepsPrevRow inPass).above (overwrite_front above.length full fits)
        (by rw [overwrite_length, above.length]) (by rw [full, wide])
    rw [feedRows_line more lineLength, pngPushProcessRow, unfilterRowBuf_stored stored full,
      ok_bind, eq, ok_bind]
    exact ih drawn.ready samples' format' above' (List.cons.inj rest).2.symm painted'

theorem feedRows_writeImage (doFilter : UInt8) (ready : Ready h r) (row : r.rowNumber = 0)
    (pass : r.pass = 0) (cleared : r.prevRow = List.replicate (h.rowbytes + 1) 0)
    (pixels : ∀ y x, IsPixel h (m y x)) :
    ∃ r₁ r₂, feedRows h (writeImage doFilter h m) r = .ok r₁ ∧
      drawScanlines h (encode h m) r = .ok r₂ ∧ Ready h r₂ ∧ r₁.app.output = r₂.app.output := by
  obtain ⟨g, samples⟩ := transformSamples_pixels ready.valid ready.transparency
    ready.noAlpha ready.samples
  have blank : Painted h (outputPixel h r.app.outputFormat g) m r := fun y _ x _ before => by
    rw [Before, row, pass] at before
    omega
  have above : PrevRow h 0 (List.replicate h.rowbytes 0) r := by
    refine ⟨by rw [cleared, List.length_replicate], fun i _ => ?_⟩
    rw [cleared, List.drop_replicate, Nat.add_sub_cancel, if_pos pass]
  have left : (remaining h r.rowNumber r.pass).filter (hasScanline h) = scanlines h := by
    rw [row, pass, remaining_start ready.valid]
    rfl
  obtain ⟨r₁, fed, ready₁, finished₁, painted₁⟩ :=
    feedRows_written doFilter pixels ready samples rfl above left blank
  obtain ⟨r₂, drawn, ready₂, finished₂, painted₂⟩ :=
    drawScanlines_painted pixels ready samples rfl (congrArg (List.map (scanline h m)) left).symm
      blank
  refine ⟨r₁, r₂, fed, drawn, ready₂, ?_⟩
  exact image_ext (by decide) ready₁.output ready₂.output fun y hy x hx =>
    (painted₁.all ready₁ finished₁ hx hy).trans (painted₂.all ready₂ finished₂ hx hy).symm

def drawData (env : Env) (h : Header) (format : ColorFormat) (bytes : List UInt8) :
    Fallible Rows (List UInt8) := do
  let (h, r) ← decodeInfoCallback env h (initRows format [])
  let r ← feedRows h bytes r
  .ok r.app.output

theorem writeRows_palette (h : Header) (palette : Option (List PngColor)) (ps : List (Nat × Nat)) :
    writeRows doFilter { h with palette } m ps pass prevRow =
      writeRows doFilter h m ps pass prevRow := by
  induction ps generalizing pass prevRow with
  | nil => rfl
  | cons p ps ih =>
    rw [writeRows, writeRows, ih]
    rfl

/-- Whichever filters are asked for, the image is drawn from what is written. -/
theorem drawData_pngWriteImage (env : Env) (format : ColorFormat) (doFilter : UInt8)
    (complete : Header.Complete h) (small : h.width * h.height ≤ 2 ^ 29 - 1)
    (pixels : ∀ y x, IsPixel h (m y x)) :
    ∃ output, output.length = 4 * h.width * h.height ∧
      drawData env h format (pngWriteImage doFilter h (imageRows h m)) = .ok output ∧
      drawImage env h format m = .ok output := by
  have ready : Ready (configuredHeader env h) (configuredRows env h format []) :=
    configuredRows_ready format [] complete small
  have pixels' : ∀ y x, IsPixel (configuredHeader env h) (m y x) := pixels
  obtain ⟨r₁, r₂, fed, drawn, ready₂, same⟩ :=
    feedRows_writeImage (pngWriteStartRow doFilter h) ready rfl rfl rfl pixels'
  have bytes : writeImage (pngWriteStartRow doFilter h) (configuredHeader env h) m =
      pngWriteImage doFilter h (imageRows h m) := by
    rw [pngWriteImage_eq (complete.valid complete.ihdr) pixels]
    exact writeRows_palette ..
  refine ⟨r₂.app.output, ready₂.output, ?_, ?_⟩
  · rw [drawData, decodeInfoCallback_first format [] complete small, ok_bind]
    dsimp only
    rw [← bytes, fed, ok_bind, same]
  · rw [drawImage, drawImageOver, decodeInfoCallback_first format [] complete small, ok_bind]
    dsimp only
    rw [drawn, ok_bind]

theorem drawData_pngWriteImage_smallImage : ∃ output, output.length = 4 * 5 * 3 ∧
    drawData storedEnv { smallImage with interlaced := 1 } .bgra
      (pngWriteImage 0xf8 { smallImage with interlaced := 1 }
        (imageRows { smallImage with interlaced := 1 }
          fun y x => [x.toUInt8, y.toUInt8, 0, 255])) = .ok output ∧
    drawImage storedEnv { smallImage with interlaced := 1 } .bgra
      (fun y x => [x.toUInt8, y.toUInt8, 0, 255]) = .ok output :=
  drawData_pngWriteImage storedEnv .bgra 0xf8 (smallImage_complete.interlace (by decide))
    (by decide) fun _ _ => rfl

/-! ## A whole file -/

theorem firstRows_invariant (env : Env) (format : ColorFormat) (output : List UInt8) :
    RowInvariant env format output fun h _ => Ready h (firstRows env h format output) where
  kept _ := ⟨fun _ _ _ ready => ready, fun _ _ _ _ _ ready _ => ready⟩
  mode _ _ mode cache ready := ready.setMode mode cache
  first h complete small := by
    rw [firstRows_configured]
    exact (configuredRows_ready format output complete small).buffers [] _
  ended _ _ ready := ready

/-- A file whose zlib stream holds what is written for an image is decoded to that image. -/
theorem decode_written {x output : List UInt8} {format : ColorFormat} {w h : Int}
    (succeeded : (decode env x format output w h).result = true) :
    ∃ (s : Png env) (f : PngFile), processInput env x format output = .ok s ∧ f.bytes <+: x ∧
      Describes f.ihdr.data s.hdr ∧
      ∀ (doFilter : UInt8) (m : PixelMatrix), (∀ y x, IsPixel s.hdr (m y x)) →
        (env.inflate.run env.inflate.init f.imageData (imageSize s.hdr)).out =
          pngWriteImage doFilter s.hdr (imageRows s.hdr m) →
        ∃ r, drawScanlines s.hdr (encode s.hdr m) (firstRows env s.hdr format output) = .ok r ∧
          (decode env x format output w h).output = r.app.output := by
  obtain ⟨-, s, result, done, eq⟩ := decode_true succeeded
  obtain ⟨f, bytes, -, describes, -, ready, image, rows, stopped⟩ :=
    processInput_file (firstRows_invariant env format output) result done
  refine ⟨s, f, result, bytes, describes, fun doFilter m pixels written => ?_⟩
  obtain ⟨r₁, r₂, fed, drawn, -, same⟩ :=
    feedRows_writeImage (pngWriteStartRow doFilter s.hdr) ready rfl rfl rfl pixels
  have stream := stopped.fed []
  rw [List.append_nil, wholeCall, written, pngWriteImage_eq ready.valid pixels, fed] at stream
  have last := congrArg (fun r => r.app.output) (Except.ok.inj stream)
  refine ⟨r₂, drawn, ?_⟩
  rw [← same, eq, rows]
  exact last.symm

def pixelFile : PngFile where
  early := []
  ihdr := ⟨chunkIHDR, (pngHeader.drop 16).take 13, 0x1f15c489, by decide⟩
  header := []
  earlyNames _ member := absurd member List.not_mem_nil
  ihdrName := rfl
  ihdrLength := rfl
  headerNames _ member := absurd member List.not_mem_nil
  palette colorType := absurd colorType (by decide)
  image := [⟨chunkIDAT, (pngData.drop 8).take 16, 0x7b2754ba, by decide⟩]
  trailer := []
  iend := ⟨chunkIEND, [], 0xae426082, by decide⟩
  imageSome := List.cons_ne_nil _ _
  imageNames _ member := by rw [List.mem_singleton.mp member]
  trailerNames _ member := absurd member List.not_mem_nil
  iendName := rfl

theorem pixelPng_header {s : Png storedEnv}
    (result : processInput storedEnv pixelPng .rgba [] = .ok s) :
    s.hdr.bitDepth = 8 ∧ s.hdr.channels = 4 ∧ imageSize s.hdr = 5 ∧
      pngWriteImage 8 s.hdr (imageRows s.hdr fun _ _ => [10, 20, 30, 40]) =
        [0, 10, 20, 30, 40] := by
  have evaluated : (match processInput storedEnv pixelPng .rgba [] with
      | .ok s => decide (s.hdr.bitDepth = 8 ∧ s.hdr.channels = 4 ∧ imageSize s.hdr = 5 ∧
          pngWriteImage 8 s.hdr (imageRows s.hdr fun _ _ => [10, 20, 30, 40]) =
            [0, 10, 20, 30, 40])
      | .error _ => false) = true := by
    decide +kernel
  rw [result] at evaluated
  exact of_decide_eq_true evaluated

theorem decode_written_pixelPng : ∃ (s : Png storedEnv) (r : Rows),
    processInput storedEnv pixelPng .rgba [] = .ok s ∧
    (storedEnv.inflate.run storedEnv.inflate.init pixelFile.imageData (imageSize s.hdr)).out =
      pngWriteImage 8 s.hdr (imageRows s.hdr fun _ _ => [10, 20, 30, 40]) ∧
    drawScanlines s.hdr (encode s.hdr fun _ _ => [10, 20, 30, 40])
      (firstRows storedEnv s.hdr .rgba []) = .ok r ∧
    (decode storedEnv pixelPng .rgba [] 0 0).output = r.app.output := by
  have succeeded : (decode storedEnv pixelPng .rgba [] 0 0).result = true := by decide +kernel
  obtain ⟨s, f, result, bytes, -, round⟩ := decode_written succeeded
  obtain ⟨depth, channels, size, written⟩ := pixelPng_header result
  have front : pixelFile.bytes <+: pixelPng := ⟨[], by decide +kernel⟩
  have inflated : (storedEnv.inflate.run storedEnv.inflate.init pixelFile.imageData
      (imageSize s.hdr)).out = [0, 10, 20, 30, 40] := by
    rw [size]
    decide +kernel
  have pixels : IsPixel s.hdr [10, 20, 30, 40] := by
    rw [IsPixel, if_neg (by omega), depth, channels]
    rfl
  rw [PngFile.imageData_unique bytes front] at round
  obtain ⟨r, drawn, same⟩ := round 8 (fun _ _ => [10, 20, 30, 40]) (fun _ _ => pixels)
    (inflated.trans written.symm)
  exact ⟨s, r, result, inflated.trans written.symm, drawn, same⟩

end PngDecode.Decoder
