import PngDecode.Decoder.Passes

/-! # One scanline

A complete scanline is transformed, its pixels are repeated up to the next ones of its pass, and
the row callback gets the result for every row in which it is shown. -/

namespace PngDecode.Decoder
open PngDecode.Lib PngDecode.Libpng

variable {h : Header} {r rt r₁ r₂ : Rows} {g : List UInt8 → List UInt8} {w : Nat}

/-! ## Between two scanlines -/

structure Ready (h : Header) (r : Rows) : Prop extends Configured h r where
  iwidth : r.pass ≤ 6 → r.iwidth = passWidth h r.pass
  adam7 : h.interlaced = 1 →
    r.rowNumber < h.height ∧ (r.pass ≤ 6 → pngPassStart r.pass < h.width ∧ Due r)
  plain : h.interlaced = 0 → r.pass = 0

theorem Configured.unfinished (configured : Configured h r) :
    r.finished = false ↔ r.rowNumber < h.height ∧ r.pass ≤ 6 := by
  rw [Rows.finished, configured.numRows]
  simp

theorem configuredRows_ready {env : Env} (format : ColorFormat) (output : List UInt8)
    (complete : Header.Complete h) (small : h.width * h.height ≤ 2 ^ 29 - 1) :
    Ready (configuredHeader env h) (configuredRows env h format output) := by
  have valid := complete.valid complete.ihdr
  exact ⟨configured_first format output complete small, fun _ => rfl,
    fun _ => ⟨valid.heightPos, fun _ => ⟨valid.widthPos, rfl⟩⟩, fun _ => rfl⟩

/-! ## The transformed row -/

theorem transformRowBuf_eq (rowInit : r.rowInit = true) :
    transformRowBuf h r = pngDoReadTransformations h r (rowInfo h r.iwidth) := by
  unfold transformRowBuf
  split
  · rfl
  next none =>
  simp only [Transformations.any, Bool.or_eq_true, not_or, Bool.not_eq_true] at none
  have ready : ¬ (r.detectUninitialized && !r.rowInit) = true := by simp [rowInit]
  unfold pngDoReadTransformations transformSamples expandSamples transformChannels
  rw [if_neg ready]
  simp [none, -List.drop_one]

theorem checkPixelDepth_eq (h : Header) (n : Nat) (room : 32 ≤ r.maximumPixelDepth)
    (depth : r.transformedPixelDepth = 0 ∨ r.transformedPixelDepth = 32) :
    checkPixelDepth ((outputShape h).info n) r = .ok { r with transformedPixelDepth := 32 } := by
  have bits : ((outputShape h).info n).pixelDepth = 32 := rfl
  unfold checkPixelDepth
  rw [bits]
  rcases depth with first | noted
  · rw [if_pos first]
    dsimp only
    rw [if_neg (by omega)]
  · rw [if_neg (by omega), if_neg (by omega), ← noted]

/-- How often a pixel of a scanline stands in the row that is handed over. -/
def repeats (h : Header) (pass : Nat) : Nat := if h.interlaced = 1 then pngPassInc pass else 1

theorem repeats_pos (h : Header) {pass : Nat} (passes : pass ≤ 6) : 0 < repeats h pass := by
  unfold repeats
  split
  · interval_cases pass <;> decide
  · decide

structure Transformed (h : Header) (g : List UInt8 → List UInt8) (r : Rows) (w : Nat)
    (rt : Rows) : Prop where
  same : ∃ rowBuf isOpaque, rt = { r with
    rowBuf
    transformedPixelDepth := 32
    app := { r.app with isOpaque }
    trace := r.trace ++ userTransformEvents h r.app.outputFormat r.iwidth }
  width : w = r.iwidth * repeats h r.pass
  bytes : (rt.rowBuf.drop 1).length = 4 * w
  pixels : ∀ x < w, pixelAt 4 (rt.rowBuf.drop 1) x =
    outputPixel h r.app.outputFormat g (rawPixel h (r.rowBuf.drop 1) (x / repeats h r.pass))

theorem Transformed.configured (transformed : Transformed h g r w rt)
    (configured : Configured h r) : Configured h rt := by
  obtain ⟨rowBuf, isOpaque, rfl⟩ := transformed.same
  exact configured.update {} (.inr rfl)

theorem Transformed.position (transformed : Transformed h g r w rt) :
    rt.rowNumber = r.rowNumber ∧ rt.pass = r.pass ∧ rt.app.output = r.app.output := by
  obtain ⟨rowBuf, isOpaque, rfl⟩ := transformed.same
  exact ⟨rfl, rfl, rfl⟩

theorem copied_inside {pass x : Nat} (passes : pass ≤ 6) (hx : x < h.width)
    (copied : copiedPixel h pass x = true) :
    x < passWidth h pass * repeats h pass := by
  unfold passWidth repeats
  by_cases adam7 : h.interlaced = 1
  · rw [if_pos adam7, if_pos adam7]
    rw [copiedPixel, adam7] at copied
    interval_cases pass <;>
      simp [pngPassStartCol, pngPassColOffset, pngPassBlock] at copied <;>
      simp only [pngPassInc, pngPassStart, List.getD_cons_zero, List.getD_cons_succ] <;> omega
  · rw [if_neg adam7, if_neg adam7, Nat.mul_one]
    exact hx

/-! ## Handing it over -/

/-- The rows handed over for a scanline, with the state that their first one meets. -/
structure Drawn (h : Header) (g : List UInt8 → List UInt8) (r r₂ : Rows) : Prop where
  rows : ∃ w rt r₁, Transformed h g r w rt ∧ Handed h (some w) rt r₁ ∧ Waits h w r₁ r₂
  ready : Ready h r₂
  depth : r₂.transformedPixelDepth = 32

structure SameSettings (r r' : Rows) : Prop where
  transformations : r'.transformations = r.transformations
  gammaTable : r'.gammaTable = r.gammaTable
  app : r'.app = { r.app with output := r'.app.output, isOpaque := r'.app.isOpaque }

theorem SameSettings.trans (first : SameSettings r r₁) (second : SameSettings r₁ r₂) :
    SameSettings r r₂ where
  transformations := second.transformations.trans first.transformations
  gammaTable := second.gammaTable.trans first.gammaTable
  app := by rw [second.app, first.app]

theorem Handed.settings {width : Option Nat} (handed : Handed h width r r₁) :
    SameSettings r r₁ where
  transformations := handed.transformations
  gammaTable := handed.gammaTable
  app := by rw [handed.app]

theorem Waits.settings (waits : Waits h w r r₁) : SameSettings r r₁ := by
  induction waits with
  | refl r => exact ⟨rfl, rfl, rfl⟩
  | step _ _ _ handed _ ih => exact handed.settings.trans ih

theorem Drawn.settings (drawn : Drawn h g r r₂) : SameSettings r r₂ := by
  obtain ⟨w, rt, r₁, transformed, handed, waits⟩ := drawn.rows
  have first : SameSettings r rt := by
    obtain ⟨rowBuf, isOpaque, rfl⟩ := transformed.same
    exact ⟨rfl, rfl, rfl⟩
  exact (first.trans handed.settings).trans waits.settings

theorem SameSettings.samples (same : SameSettings r r₁) (pixels : SamplePixels h r g) :
    SamplePixels h r₁ g :=
  pixels.congr ⟨by rw [same.transformations], by rw [same.transformations],
    by rw [same.transformations], by rw [same.transformations], by rw [same.transformations],
    same.gammaTable⟩

theorem haveRowAndFinish_plain (ready : Ready h r) (plain : h.interlaced = 0)
    (more : r.finished = false) (depth : r.transformedPixelDepth = 32)
    (covers : Covers h r.pass r.rowBuf) :
    ∃ r', haveRowAndFinish h (some w) r = .ok r' ∧ Handed h (some w) r r' ∧ Ready h r' ∧
      r'.transformedPixelDepth = 32 := by
  obtain ⟨inside, passes⟩ := ready.unfinished.mp more
  obtain ⟨r', eq, configured, handed, depth'⟩ :=
    haveRowAndFinish_handed ready.toConfigured depth inside fun (_ : (some w).isSome) => covers
  have position := congrArg Prod.snd handed.position
  simp only [nextPosition, plain, zero_ne_one, if_false, ite_self] at position
  exact ⟨r', eq, handed, ⟨configured, handed.iwidth (ready.iwidth passes), by omega,
    fun _ => position.trans (ready.plain plain)⟩, depth'⟩

theorem pngDoReadInterlace_eq (h : Header) (n pass : Nat) (row : List UInt8) :
    ∃ ri, ri.width = n * pngPassInc pass ∧ pngDoReadInterlace ((outputShape h).info n) row pass =
      (ri, mapPixels 4 (fun px => (List.replicate (pngPassInc pass) px).flatten) n row) := by
  have bits : ((outputShape h).info n).pixelDepth = 32 := rfl
  unfold pngDoReadInterlace
  dsimp only
  rw [bits, if_neg (by decide)]
  exact ⟨_, rfl, rfl⟩

theorem Going.ready (going : Going h r) (due : r.pass ≤ 6 → Due r) : Ready h r where
  toConfigured := going.toConfigured
  iwidth := going.iwidth
  adam7 _ := ⟨going.inside, fun passes => ⟨going.nonempty passes, due passes⟩⟩
  plain plain := by have := going.interlaced; omega

theorem handOverRow_spec (ready : Ready h r) (more : r.finished = false)
    (depth : r.transformedPixelDepth = 32) {filter : UInt8} {row : List UInt8}
    (rowBuf : r.rowBuf = filter :: row) (full : row.length = 4 * r.iwidth) :
    ∃ shown r₁ r₂, handOverRow h ((outputShape h).info r.iwidth) r = .ok r₂ ∧
      shown.length = 4 * (r.iwidth * repeats h r.pass) ∧
      (∀ x < r.iwidth * repeats h r.pass,
        pixelAt 4 shown x = pixelAt 4 row (x / repeats h r.pass)) ∧
      Handed h (some (r.iwidth * repeats h r.pass)) { r with rowBuf := filter :: shown } r₁ ∧
      Waits h (r.iwidth * repeats h r.pass) r₁ r₂ ∧ Ready h r₂ ∧ r₂.transformedPixelDepth = 32 := by
  obtain ⟨inside, passes⟩ := ready.unfinished.mp more
  have valid := ready.valid.interlace
  -- every pixel that is copied is there
  have covers (shown : List UInt8) (wide : shown.length = 4 * (r.iwidth * repeats h r.pass)) :
      Covers h r.pass (filter :: shown) := by
    intro x hx copied
    have := copied_inside passes hx copied
    rw [← ready.iwidth passes] at this
    rw [List.drop_succ_cons, List.drop_zero, wide]
    exact Nat.mul_le_mul_left 4 this
  unfold handOverRow
  by_cases adam7 : h.interlaced = 1
  · obtain ⟨-, next⟩ := ready.adam7 adam7
    obtain ⟨nonempty, due⟩ := next passes
    have asks : h.interlaced ≠ 0 ∧ r.transformations.interlace = true := by
      rw [ready.interlace, adam7]
      exact ⟨by decide, rfl⟩
    have inc : repeats h r.pass = pngPassInc r.pass := if_pos adam7
    rw [if_pos asks, inc]
    -- in the last pass the row is not expanded
    suffices expanded : ∃ shown ri, ri.width = r.iwidth * pngPassInc r.pass ∧
        (if r.pass < 6 then
            pngDoReadInterlace ((outputShape h).info r.iwidth) (r.rowBuf.drop 1) r.pass
          else ((outputShape h).info r.iwidth, r.rowBuf.drop 1)) = (ri, shown) ∧
        shown.length = 4 * (r.iwidth * pngPassInc r.pass) ∧
        ∀ x < r.iwidth * pngPassInc r.pass,
          pixelAt 4 shown x = pixelAt 4 row (x / pngPassInc r.pass) by
      obtain ⟨shown, ri, width, eq, wide, pixels⟩ := expanded
      have going : Going h { r with rowBuf := filter :: shown } := {
        toConfigured := ready.toConfigured.update {} ready.depth
        depth32 := depth
        interlaced := adam7
        inside := inside
        iwidth := ready.iwidth
        nonempty := fun _ => nonempty }
      obtain ⟨r₂, rows, ⟨r₁, handed, waits⟩, going₂, due₂⟩ :=
        haveInterlacedRows_processed (w := r.iwidth * pngPassInc r.pass) going passes due
          (covers shown (inc ▸ wide))
      refine ⟨shown, r₁, r₂, ?_, wide, pixels, handed, waits, going₂.ready due₂, going₂.depth32⟩
      rw [eq]
      dsimp only
      rw [width, rowBuf, List.take_succ_cons, List.take_zero, List.singleton_append]
      exact rows
    rw [rowBuf, List.drop_succ_cons, List.drop_zero]
    by_cases early : r.pass < 6
    · have positive : 0 < pngPassInc r.pass := inc ▸ repeats_pos h passes
      obtain ⟨ri, width, eq⟩ := pngDoReadInterlace_eq h r.iwidth r.pass row
      refine ⟨_, ri, width, by rw [if_pos early, eq], ?_, fun x hx => ?_⟩
      · rw [mapPixels_length 4 (4 * pngPassInc r.pass) _ _ _
          (fun px => replicate_length (pngPassInc r.pass)) full, Nat.mul_assoc,
          Nat.mul_comm r.iwidth]
      · exact pixelAt_replicate positive full hx
    · have last : r.pass = 6 := by omega
      have one : pngPassInc r.pass = 1 := by rw [last]; rfl
      rw [one, Nat.mul_one]
      exact ⟨row, _, rfl, if_neg early, full, fun x _ => by rw [Nat.div_one]⟩
  · have plain : h.interlaced = 0 := by omega
    have one : repeats h r.pass = 1 := if_neg adam7
    have whole : r.rowBuf.drop 1 = row := by rw [rowBuf]; rfl
    rw [if_neg (fun asks => asks.1 plain)]
    have same : { r with rowBuf := filter :: row } = r := by rw [← rowBuf]
    obtain ⟨r', eq, handed, ready', depth'⟩ := haveRowAndFinish_plain (w := r.iwidth) ready plain
      more depth (by rw [rowBuf]; exact covers row (by rw [one, Nat.mul_one]; exact full))
    rw [one, Nat.mul_one]
    exact ⟨row, r', r', eq, full, fun x _ => by rw [Nat.div_one], by rw [same]; exact handed,
      .refl r', ready', depth'⟩

theorem pngPushProcessScanline_drawn (ready : Ready h r) (more : r.finished = false)
    (pixels : SamplePixels h r g)
    (full : r.rowBuf.length = rowbytes h.pixelDepth r.iwidth + 1) :
    ∃ r₂, pngPushProcessScanline h r = .ok r₂ ∧ Drawn h g r r₂ := by
  obtain ⟨filter, raw, rowBuf⟩ := List.exists_cons_of_length_eq_add_one full
  have rawEq : r.rowBuf.drop 1 = raw := by rw [rowBuf]; rfl
  have rawLength : (r.rowBuf.drop 1).length = rowbytes h.pixelDepth r.iwidth := by
    rw [List.length_drop, full, Nat.add_sub_cancel]
  obtain ⟨isOpaque, transform⟩ :=
    pngDoReadTransformations_pixels pixels ready.format ready.rowInit rawLength
  have wide (i : Nat) : (outputPixel h r.app.outputFormat g (rawPixel h raw i)).length = 4 :=
    formatPixel_length _ (rgbaPixel_length (pixels.wide raw i))
  have handing : Ready h { r with
      rowBuf := filter :: rowOf r.iwidth fun i => outputPixel h r.app.outputFormat g (rawPixel h raw i)
      transformedPixelDepth := 32
      app := { r.app with isOpaque }
      trace := r.trace ++ userTransformEvents h r.app.outputFormat r.iwidth } :=
    ⟨ready.toConfigured.update {} (.inr rfl), ready.iwidth, ready.adam7, ready.plain⟩
  obtain ⟨shown, r₁, r₂, eq, long, shownPixels, handed, waits, ready₂, depth₂⟩ :=
    handOverRow_spec handing more rfl rfl (rowOf_length wide)
  refine ⟨r₂, ?_, ⟨_, _, r₁, ⟨⟨filter :: shown, isOpaque, rfl⟩, rfl, long, fun x hx => ?_⟩, handed,
    waits⟩, ready₂, depth₂⟩
  · unfold pngPushProcessScanline
    rw [transformRowBuf_eq ready.rowInit, transform, ok_bind]
    dsimp only
    rw [checkPixelDepth_eq h r.iwidth (by exact ready.maximumPixelDepth) (by exact ready.depth),
      ok_bind, rowBuf]
    exact eq
  · have inside : x / repeats h r.pass < r.iwidth :=
      Nat.div_lt_of_lt_mul (Nat.mul_comm r.iwidth _ ▸ hx)
    refine (shownPixels x hx).trans ?_
    rw [rowOf, pixelAt_flatMap wide inside, rawEq]

end PngDecode.Decoder
