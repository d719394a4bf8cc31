import PngDecode.Decoder.Positions
import PngDecode.Libpng.Encode

/-! # Interlace

The scanlines of the seven passes of an image and the scanlines of its rows are drawn to the same
bytes: the last row that is merged over a pixel is the one of the pixel's own pass. -/

namespace PngDecode.Decoder
open PngDecode.Lib PngDecode.Libpng

variable {h : Header} {r r' r₁ r₂ : Rows} {f g : List UInt8 → List UInt8} {w : Nat}

/-! ## The encodings of an image -/

abbrev PixelMatrix := Nat → Nat → List UInt8

def column (h : Header) (pass i : Nat) : Nat :=
  if h.interlaced = 1 then pngPassStart pass + i * pngPassInc pass else i

def scanline (h : Header) (m : PixelMatrix) (position : Nat × Nat) : List UInt8 :=
  encodeRow h (passWidth h position.2) fun i => m position.1 (column h position.2 i)

/-- The image data once it is inflated and unfiltered. -/
def encode (h : Header) (m : PixelMatrix) : List (List UInt8) := (scanlines h).map (scanline h m)

/-! ## Drawing an encoding -/

/-- A scanline comes to `row_buf` behind its filter byte. -/
def drawScanline (h : Header) (r : Rows) (line : List UInt8) : Fallible Rows Rows :=
  pngPushProcessScanline h { r with rowBuf := 0 :: line }

def drawScanlines (h : Header) : List (List UInt8) → Rows → Fallible Rows Rows
  | [], r => .ok r
  | line :: lines, r => do
    let r ← drawScanline h r line
    drawScanlines h lines r

/-- The output for an image whose header is `h`, from the info callback to the last row, with what
`*output` held before. -/
def drawImageOver (env : Env) (h : Header) (format : ColorFormat) (output : List UInt8)
    (m : PixelMatrix) : Fallible Rows (List UInt8) := do
  let (h, r) ← decodeInfoCallback env h (initRows format output)
  let r ← drawScanlines h (encode h m) r
  .ok r.app.output

def drawImage (env : Env) (h : Header) (format : ColorFormat) (m : PixelMatrix) :
    Fallible Rows (List UInt8) :=
  drawImageOver env h format [] m

/-! ## The pass of a pixel -/

def adam7Pass (x y : Nat) : Nat :=
  if y % 2 = 1 then 6
  else if x % 2 = 1 then 5
  else if y % 4 = 2 then 4
  else if x % 4 = 2 then 3
  else if y % 8 = 4 then 2
  else if x % 8 = 4 then 1
  else 0

def ownPass (h : Header) (x y : Nat) : Nat := if h.interlaced = 1 then adam7Pass x y else 0

section Passes
attribute [local simp] pngPassYinc pngPassYstart pngPassInc pngPassStart

theorem adam7Pass_spec (x y : Nat) : adam7Pass x y ≤ 6 ∧
    y % pngPassYinc (adam7Pass x y) = pngPassYstart (adam7Pass x y) ∧
    x % pngPassInc (adam7Pass x y) = pngPassStart (adam7Pass x y) := by
  unfold adam7Pass
  (repeat' split) <;> simp <;> omega

/-- A row that is shown in a pass and copied at a pixel comes no later than the pixel's own. -/
theorem shown_ownPass {pass x y : Nat} (inPass : pass ≤ 6) (plain : h.interlaced = 0 → pass = 0)
    (interlace : h.interlaced ≤ 1) (shown : (rowCall h (y, pass)).shown = true)
    (copied : copiedPixel h pass x = true) : pass ≤ ownPass h x y := by
  unfold ownPass
  by_cases adam7 : h.interlaced = 1
  · rw [if_pos adam7]
    rw [rowCall, adam7] at shown
    rw [copiedPixel, adam7] at copied
    unfold adam7Pass
    interval_cases pass <;>
      simp [pngPassStartCol, pngPassColOffset, pngPassBlock] at shown copied ⊢ <;> split_ifs <;>
      omega
  · rw [plain (by omega)]
    exact Nat.zero_le _

theorem copied_ownPass (h : Header) (x y : Nat) : copiedPixel h (ownPass h x y) x = true := by
  unfold ownPass
  by_cases adam7 : h.interlaced = 1
  · rw [if_pos adam7, copiedPixel, adam7]
    unfold adam7Pass
    (repeat' split) <;> simp_all [pngPassStartCol, pngPassColOffset, pngPassBlock] <;> omega
  · rw [if_neg adam7, copiedPixel, if_neg (by omega)]

end Passes

/-! ## What is painted -/

def Before (pass row : Nat) (r : Rows) : Prop := pass < r.pass ∨ pass = r.pass ∧ row < r.rowNumber

def Painted (h : Header) (f : List UInt8 → List UInt8) (m : PixelMatrix) (r : Rows) : Prop :=
  ∀ y < h.height, ∀ x < h.width, Before (ownPass h x y) y r →
    pixelAt 4 r.app.output (h.width * y + x) = f (m y x)

theorem nextPass_skips {pass own width : Nat} (inPass : pass ≤ 6) (last : own ≤ 6)
    (later : pass < own) (start : pngPassStart own < width) : nextPass width pass ≤ own := by
  obtain ⟨n0, n1, n2, n3, n4, n5, n6⟩ := nextPass_eq width
  interval_cases pass <;> interval_cases own <;> simp_all [pngPassStart] <;> split <;> omega

/-- A step adds the row at hand and no other, as the passes that are left out have no pixel. -/
theorem before_next (position : (r'.rowNumber, r'.pass) = nextPosition h r.rowNumber r.pass)
    (plain : h.interlaced ≠ 1 → r.pass = 0) (inPass : r.pass ≤ 6) {x y : Nat}
    (hx : x < h.width) (hy : y < h.height) (before : Before (ownPass h x y) y r') :
    Before (ownPass h x y) y r ∨ ownPass h x y = r.pass ∧ y = r.rowNumber := by
  unfold Before at before ⊢
  unfold nextPosition at position
  by_cases more : r.rowNumber + 1 < h.height
  · rw [if_pos more, Prod.mk.injEq] at position
    omega
  rw [if_neg more] at position
  by_cases adam7 : h.interlaced = 1
  · rw [if_pos adam7, Prod.mk.injEq] at position
    obtain ⟨last, -, column⟩ := adam7Pass_spec x y
    have own : ownPass h x y = adam7Pass x y := if_pos adam7
    rw [own] at before ⊢
    have earlier : adam7Pass x y ≤ r.pass := by
      by_contra later
      have start : pngPassStart (adam7Pass x y) < h.width := by
        rw [← column]
        exact Nat.lt_of_le_of_lt (Nat.mod_le ..) hx
      have skipped := nextPass_skips inPass last (by omega) start
      omega
    omega
  · rw [if_neg adam7, Prod.mk.injEq] at position
    have own : ownPass h x y = 0 := if_neg adam7
    have first := plain adam7
    omega

theorem Painted.handed {m : PixelMatrix} {width : Option Nat} (painted : Painted h f m r)
    (handed : Handed h width r r') (interlace : h.interlaced ≤ 1)
    (plain : h.interlaced = 0 → r.pass = 0) (inPass : r.pass ≤ 6)
    (shown : width.isSome = (rowCall h (r.rowNumber, r.pass)).shown)
    (own : ∀ x < h.width, ownPass h x r.rowNumber = r.pass → width.isSome = true ∧
      pixelAt 4 (r.rowBuf.drop 1) x = f (m r.rowNumber x)) : Painted h f m r' := by
  intro y hy x hx before
  rw [handed.output y hy x hx]
  rcases before_next handed.position (fun _ => plain (by omega)) inPass hx hy before with
    before | ⟨here, rfl⟩
  · rw [if_neg, painted y hy x hx before]
    rintro ⟨some, rfl, copied⟩
    have := shown_ownPass inPass plain interlace (shown ▸ some) copied
    unfold Before at before
    omega
  · obtain ⟨some, value⟩ := own x hx here
    have copied := copied_ownPass h x r.rowNumber
    rw [here] at copied
    rw [if_pos ⟨some, rfl, copied⟩, value]

theorem Painted.waits {m : PixelMatrix} (painted : Painted h f m r) (waits : Waits h w r r') :
    Painted h f m r' := by
  induction waits with
  | refl => exact painted
  | @step r _ _ going inPass due handed _ ih =>
    have adam7 := going.interlaced
    refine ih (painted.handed handed (by omega) (by omega) inPass ?_ fun x hx own => ?_)
    · simp only [handedWidth, rowCall, adam7]
      split <;> simp_all
    · -- a row that waits has no pixel of its own
      rw [ownPass, if_pos adam7] at own
      have row := (adam7Pass_spec x r.rowNumber).2.1
      rw [own] at row
      exact absurd row due

theorem Painted.drawn {m : PixelMatrix} (ready : Ready h r) (more : r.finished = false)
    (pixels : ∀ y x, IsPixel h (m y x))
    (raw : r.rowBuf.drop 1 = scanline h m (r.rowNumber, r.pass)) (drawn : Drawn h g r r₂)
    (painted : Painted h (outputPixel h r.app.outputFormat g) m r) :
    Painted h (outputPixel h r.app.outputFormat g) m r₂ := by
  obtain ⟨inside, inPass⟩ := ready.unfinished.mp more
  obtain ⟨w, rt, r₁, transformed, handed, waits⟩ := drawn.rows
  obtain ⟨row, pass, output⟩ := transformed.position
  have start : Painted h (outputPixel h r.app.outputFormat g) m rt := by
    unfold Painted Before at painted ⊢
    rw [row, pass, output]
    exact painted
  refine (start.handed handed ready.valid.interlace (by rw [pass]; exact ready.plain)
    (by rw [pass]; exact inPass) ?_ fun x hx own => ⟨rfl, ?_⟩).waits waits
  · rw [row, pass]
    exact (ready.shown more).symm
  · rw [row, pass] at own
    have here : ownPass h x r.rowNumber = r.pass := own
    have copied := copied_ownPass h x r.rowNumber
    rw [here] at copied
    have covered := copied_inside inPass hx copied
    have place : x / repeats h r.pass < passWidth h r.pass :=
      Nat.div_lt_of_lt_mul (Nat.mul_comm (passWidth h r.pass) _ ▸ covered)
    have columnEq : column h r.pass (x / repeats h r.pass) = x := by
      unfold column repeats
      by_cases adam7 : h.interlaced = 1
      · rw [ownPass, if_pos adam7] at here
        have start := (adam7Pass_spec x r.rowNumber).2.2
        rw [here] at start
        rw [if_pos adam7, if_pos adam7, ← start, Nat.mod_add_div']
      · rw [if_neg adam7, if_neg adam7, Nat.div_one]
    rw [transformed.pixels x (by rw [transformed.width, ready.iwidth inPass]; exact covered), raw,
      scanline, rawPixel_encodeRow ready.valid (fun i => pixels _ _) place, columnEq, row]

/-! ## A whole image -/

theorem scanlinesLeft_nil (ready : Ready h r)
    (none : (remaining h r.rowNumber r.pass).filter (hasScanline h) = []) : r.finished = true := by
  by_contra more
  have more : r.finished = false := by simpa using more
  obtain ⟨inside, inPass⟩ := ready.unfinished.mp more
  rw [remaining_cons ready.valid.interlace ready.valid.widthPos inside inPass ready.plain,
    List.filter_cons, if_pos (ready.hasScanline more)] at none
  cases none

theorem scanlinesLeft_cons {p : Nat × Nat} {ps : List (Nat × Nat)} (ready : Ready h r)
    (some : (remaining h r.rowNumber r.pass).filter (hasScanline h) = p :: ps) :
    r.finished = false ∧ p = (r.rowNumber, r.pass) := by
  have more : r.finished = false := by
    by_contra finished
    rw [ready.remaining_nil (by simpa using finished)] at some
    cases some
  obtain ⟨inside, inPass⟩ := ready.unfinished.mp more
  rw [remaining_cons ready.valid.interlace ready.valid.widthPos inside inPass ready.plain,
    List.filter_cons, if_pos (ready.hasScanline more)] at some
  exact ⟨more, (List.cons.inj some).1.symm⟩

theorem pngPushProcessScanline_painted {format : ColorFormat} (filter : UInt8)
    (prevRow : List UInt8) {m : PixelMatrix} (ready : Ready h r) (more : r.finished = false)
    (samples : SamplePixels h r g) (outputFormat : r.app.outputFormat = format)
    (pixels : ∀ y x, IsPixel h (m y x)) (painted : Painted h (outputPixel h format g) m r) :
    ∃ r₂, pngPushProcessScanline h
        { r with rowBuf := filter :: scanline h m (r.rowNumber, r.pass), prevRow } = .ok r₂ ∧
      Drawn h g { r with rowBuf := filter :: scanline h m (r.rowNumber, r.pass), prevRow } r₂ ∧
      SamplePixels h r₂ g ∧ r₂.app.outputFormat = format ∧
      Painted h (outputPixel h format g) m r₂ ∧
      (remaining h r.rowNumber r.pass).filter (hasScanline h) =
        (r.rowNumber, r.pass) :: (remaining h r₂.rowNumber r₂.pass).filter (hasScanline h) := by
  obtain ⟨inside, inPass⟩ := ready.unfinished.mp more
  generalize buffered :
    { r with rowBuf := filter :: scanline h m (r.rowNumber, r.pass), prevRow } = rb
  have ready' : Ready h rb := by
    subst buffered
    exact ⟨ready.toConfigured.update {} ready.depth, ready.iwidth, ready.adam7, ready.plain⟩
  have samples' : SamplePixels h rb g := by
    subst buffered
    exact samples.congr ⟨rfl, rfl, rfl, rfl, rfl, rfl⟩
  have full : rb.rowBuf.length = rowbytes h.pixelDepth rb.iwidth + 1 := by
    subst buffered
    rw [List.length_cons, scanline, encodeRow_length ready.valid fun i => pixels _ _,
      ready.iwidth inPass]
  have same : rb.finished = r.finished ∧ rb.rowNumber = r.rowNumber ∧ rb.pass = r.pass ∧
      rb.app = r.app ∧ rb.rowBuf.drop 1 = scanline h m (r.rowNumber, r.pass) := by
    subst buffered
    exact ⟨rfl, rfl, rfl, rfl, rfl⟩
  obtain ⟨finished, row, pass, app, raw⟩ := same
  have more' := finished.trans more
  obtain ⟨r₂, eq, drawn⟩ := pngPushProcessScanline_drawn ready' more' samples' full
  obtain ⟨skipped, called, none⟩ := drawn.called ready' more'
  have later := called.remaining
  rw [row, pass] at later
  refine ⟨r₂, eq, drawn, drawn.settings.samples samples', ?_, ?_, ?_⟩
  · rw [drawn.settings.app, app]
    exact outputFormat
  · rw [← outputFormat, ← app]
    refine Painted.drawn ready' more' pixels (by rw [row, pass]; exact raw) drawn ?_
    unfold Painted Before at painted ⊢
    rw [row, pass, app, outputFormat]
    exact painted
  · rw [later, List.cons_append, List.filter_cons, if_pos (ready.hasScanline more),
      List.filter_append,
      List.filter_eq_nil_iff.mpr fun p member => by simp [none p member], List.nil_append]

theorem drawScanlines_painted {format : ColorFormat} {m : PixelMatrix}
    (pixels : ∀ y x, IsPixel h (m y x)) {lines : List (List UInt8)} (ready : Ready h r)
    (samples : SamplePixels h r g) (outputFormat : r.app.outputFormat = format)
    (left : lines = ((remaining h r.rowNumber r.pass).filter (hasScanline h)).map (scanline h m))
    (painted : Painted h (outputPixel h format g) m r) :
    ∃ r', drawScanlines h lines r = .ok r' ∧ Ready h r' ∧ r'.finished = true ∧
      Painted h (outputPixel h format g) m r' := by
  induction lines generalizing r with
  | nil =>
    have none := List.map_eq_nil_iff.mp left.symm
    exact ⟨r, rfl, ready, scanlinesLeft_nil ready none, painted⟩
  | cons line lines ih =>
    obtain ⟨p, ps, here, rfl, rfl⟩ := List.map_eq_cons_iff.mp left.symm
    obtain ⟨more, rfl⟩ := scanlinesLeft_cons ready here
    obtain ⟨r₂, eq, drawn, samples', format', painted', rest⟩ :=
      pngPushProcessScanline_painted 0 r.prevRow ready more samples outputFormat pixels painted
    have draw : drawScanline h r (scanline h m (r.rowNumber, r.pass)) = .ok r₂ := eq
    rw [here] at rest
    obtain ⟨r', eq', ready', done, painted₂⟩ :=
      ih drawn.ready samples' format' (by rw [(List.cons.inj rest).2]) painted'
    refine ⟨r', ?_, ready', done, painted₂⟩
    rw [drawScanlines, draw, ok_bind]
    exact eq'

theorem Painted.all {m : PixelMatrix} (painted : Painted h f m r) (ready : Ready h r)
    (finished : r.finished = true) {x y : Nat} (hx : x < h.width) (hy : y < h.height) :
    pixelAt 4 r.app.output (h.width * y + x) = f (m y x) := by
  refine painted y hy x hx ?_
  have done : ¬ (r.rowNumber < h.height ∧ r.pass ≤ 6) := fun more => by
    rw [ready.unfinished.mpr more] at finished
    cases finished
  unfold Before ownPass
  by_cases adam7 : h.interlaced = 1
  · have inside := (ready.adam7 adam7).1
    have last := (adam7Pass_spec x y).1
    rw [if_pos adam7]
    omega
  · have interlace := ready.valid.interlace
    have first := ready.plain (by omega)
    rw [if_neg adam7]
    omega

theorem drawImageOver_painted {env : Env} (format : ColorFormat) (before : List UInt8)
    (complete : Header.Complete h) (small : h.width * h.height ≤ 2 ^ 29 - 1) {m : PixelMatrix}
    (pixels : ∀ y x, IsPixel h (m y x))
    (samples : SamplePixels (configuredHeader env h) (configuredRows env h format before) g) :
    ∃ output, drawImageOver env h format before m = .ok output ∧
      output.length = 4 * h.width * h.height ∧
      ∀ y < h.height, ∀ x < h.width,
        pixelAt 4 output (h.width * y + x) = outputPixel h format g (m y x) := by
  have ready : Ready (configuredHeader env h) (configuredRows env h format before) :=
    configuredRows_ready format before complete small
  have pixels' : ∀ y x, IsPixel (configuredHeader env h) (m y x) := pixels
  have left : encode (configuredHeader env h) m = ((remaining (configuredHeader env h) 0 0).filter
      (hasScanline (configuredHeader env h))).map (scanline (configuredHeader env h) m) := by
    rw [encode, scanlines, remaining_start ready.valid]
  have blank : Painted (configuredHeader env h) (outputPixel (configuredHeader env h) format g) m
      (configuredRows env h format before) := fun y hy x hx before => by
    rcases before with early | ⟨-, early⟩ <;> exact absurd early (Nat.not_lt_zero _)
  obtain ⟨r', eq, ready', finished, painted⟩ :=
    drawScanlines_painted pixels' ready samples rfl left blank
  refine ⟨r'.app.output, ?_, ready'.output, fun y hy x hx => painted.all ready' finished hx hy⟩
  rw [drawImageOver, decodeInfoCallback_first format before complete small, ok_bind]
  dsimp only
  rw [eq, ok_bind]

theorem samplePixels_interlace {env : Env} {format : ColorFormat} {before : List UInt8}
    (interlaced : Nat) (samples : SamplePixels (configuredHeader env { h with interlaced := 1 })
      (configuredRows env { h with interlaced := 1 } format []) g) :
    SamplePixels (configuredHeader env { h with interlaced })
      (configuredRows env { h with interlaced } format before) g :=
  SamplePixels.congr ⟨samples.wide, samples.eq⟩ ⟨rfl, rfl, rfl, rfl, rfl, rfl⟩

theorem Header.Complete.interlace (complete : Header.Complete h) {interlaced : Nat}
    (interlace : interlaced ≤ 1) : Header.Complete { h with interlaced } := by
  have valid := complete.valid complete.ihdr
  exact {
    valid := fun _ => ⟨valid.widthPos, valid.heightPos, valid.format, interlace, valid.channels,
      valid.pixelDepth, valid.bytes⟩
    fresh := complete.fresh
    transparency := complete.transparency
    noAlpha := complete.noAlpha
    palette := complete.palette
    paletteFirst := complete.paletteFirst
    ihdr := complete.ihdr
    plte := complete.plte }

theorem drawImageOver_pixels (env : Env) (format : ColorFormat) (complete : Header.Complete h)
    (small : h.width * h.height ≤ 2 ^ 29 - 1) :
    ∃ f : List UInt8 → List UInt8, ∀ m : PixelMatrix, (∀ y x, IsPixel h (m y x)) →
      ∀ interlaced ≤ 1, ∀ before, ∃ output,
        drawImageOver env { h with interlaced } format before m = .ok output ∧
        output.length = 4 * h.width * h.height ∧
        ∀ y < h.height, ∀ x < h.width, pixelAt 4 output (h.width * y + x) = f (m y x) := by
  have adam7 : Header.Complete { h with interlaced := 1 } := complete.interlace (by decide)
  have configured : Configured (configuredHeader env { h with interlaced := 1 })
      (configuredRows env { h with interlaced := 1 } format []) :=
    configured_first format [] adam7 small
  obtain ⟨g, samples⟩ := transformSamples_pixels configured.valid configured.transparency
    configured.noAlpha configured.samples
  refine ⟨outputPixel h format g, fun m pixels interlaced interlace before => ?_⟩
  exact drawImageOver_painted format before (complete.interlace interlace) small pixels
    (samplePixels_interlace interlaced samples)

theorem drawImage_interlace (env : Env) (format : ColorFormat) (complete : Header.Complete h)
    (small : h.width * h.height ≤ 2 ^ 29 - 1) {m : PixelMatrix}
    (pixels : ∀ y x, IsPixel h (m y x)) :
    ∃ output, output.length = 4 * h.width * h.height ∧
      drawImage env { h with interlaced := 1 } format m = .ok output ∧
      drawImage env { h with interlaced := 0 } format m = .ok output := by
  obtain ⟨f, drawn⟩ := drawImageOver_pixels env format complete small
  obtain ⟨a, eqA, longA, pixelsA⟩ := drawn m pixels 1 (by decide) []
  obtain ⟨b, eqB, longB, pixelsB⟩ := drawn m pixels 0 (by decide) []
  have same : a = b := image_ext (by decide) longA longB fun y hy x hx =>
    (pixelsA y hy x hx).trans (pixelsB y hy x hx).symm
  exact ⟨a, longA, eqA, same ▸ eqB⟩

/-- There is one function that makes the pixels of the output out of those of the image, in either
encoding and whatever the output held before. -/
theorem drawImageOver_interlace (env : Env) (format : ColorFormat) (complete : Header.Complete h)
    (small : h.width * h.height ≤ 2 ^ 29 - 1) :
    ∃ f : List UInt8 → List UInt8, ∀ m : PixelMatrix, (∀ y x, IsPixel h (m y x)) →
      ∃ output, output.length = 4 * h.width * h.height ∧
        (∀ y < h.height, ∀ x < h.width, pixelAt 4 output (h.width * y + x) = f (m y x)) ∧
        ∀ before, drawImageOver env { h with interlaced := 1 } format before m = .ok output ∧
          drawImageOver env { h with interlaced := 0 } format before m = .ok output := by
  obtain ⟨f, drawn⟩ := drawImageOver_pixels env format complete small
  refine ⟨f, fun m pixels => ?_⟩
  obtain ⟨output, -, long, shown⟩ := drawn m pixels 0 (by decide) []
  have result (interlaced : Nat) (interlace : interlaced ≤ 1) (before : List UInt8) :
      drawImageOver env { h with interlaced } format before m = .ok output := by
    obtain ⟨a, eq, longA, pixelsA⟩ := drawn m pixels interlaced interlace before
    rw [eq, image_ext (by decide) longA long fun y hy x hx =>
      (pixelsA y hy x hx).trans (shown y hy x hx).symm]
  exact ⟨output, long, shown, fun before => ⟨result 1 (by decide) before, result 0 (by decide) before⟩⟩

def smallImage : Header := { initHeader with
  mode := { initMode with haveIHDR := true }
  width := 5
  height := 3
  bitDepth := 8
  colorType := colorTypeRGBAlpha
  channels := 4
  pixelDepth := 32
  rowbytes := 20 }

theorem smallImage_complete : Header.Complete smallImage where
  valid _ := by constructor <;> decide
  fresh := by decide
  transparency := by decide
  noAlpha := by decide
  palette := by decide
  paletteFirst := by decide
  ihdr := rfl
  plte := by decide

theorem drawImage_interlace_smallImage : ∃ output, output.length = 4 * 5 * 3 ∧
    drawImage storedEnv { smallImage with interlaced := 1 } .bgra
      (fun y x => [x.toUInt8, y.toUInt8, 0, 255]) = .ok output ∧
    drawImage storedEnv { smallImage with interlaced := 0 } .bgra
      (fun y x => [x.toUInt8, y.toUInt8, 0, 255]) = .ok output :=
  drawImage_interlace storedEnv .bgra smallImage_complete (by decide) fun _ _ => rfl

theorem drawImageOver_interlace_smallImage : ∃ f : List UInt8 → List UInt8, ∃ output,
    output.length = 4 * 5 * 3 ∧
    (∀ y < 3, ∀ x < 5, pixelAt 4 output (5 * y + x) = f [x.toUInt8, y.toUInt8, 0, 255]) ∧
    ∀ before,
      drawImageOver storedEnv { smallImage with interlaced := 1 } .skBitmap before
        (fun y x => [x.toUInt8, y.toUInt8, 0, 255]) = .ok output ∧
      drawImageOver storedEnv { smallImage with interlaced := 0 } .skBitmap before
        (fun y x => [x.toUInt8, y.toUInt8, 0, 255]) = .ok output := by
  obtain ⟨f, drawn⟩ :=
    drawImageOver_interlace storedEnv .skBitmap smallImage_complete (by decide)
  exact ⟨f, drawn _ fun _ _ => rfl⟩

end PngDecode.Decoder
