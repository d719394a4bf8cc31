import PngDecode.Libpng.Header
import PngDecode.Libpng.Transform

/-! # Transformations pixel by pixel

A row is a row of pixels of one shape, and every transformation turns it into a row of pixels of
another shape, each a function of the same pixel before. -/

namespace PngDecode.Libpng
open PngDecode.Lib PngDecode.Decoder

/-! ## Shapes -/

structure Shape where
  colorType : Nat
  bitDepth : Nat
  channels : Nat

def Shape.pixelBytes (s : Shape) : Nat := s.channels * (s.bitDepth / 8)

def Shape.info (s : Shape) (n : Nat) : PngRowInfo where
  width := n
  rowbytes := rowbytes (s.bitDepth * s.channels) n
  colorType := s.colorType
  bitDepth := s.bitDepth
  channels := s.channels
  pixelDepth := s.bitDepth * s.channels

def rowOf (n : Nat) (pixel : Nat → List UInt8) : List UInt8 := (List.range n).flatMap pixel

theorem rowOf_length {n k : Nat} {pixel : Nat → List UInt8}
    (wide : ∀ i, (pixel i).length = k) : (rowOf n pixel).length = k * n := by
  simp [rowOf, List.length_flatMap, wide, Nat.mul_comm]

theorem mapPixels_rowOf (k : Nat) (f : List UInt8 → List UInt8) (n : Nat)
    {pixel : Nat → List UInt8} (wide : ∀ i, (pixel i).length = k) :
    mapPixels k f n (rowOf n pixel) = rowOf n fun i => f (pixel i) :=
  mapPixels_flatMap k f n pixel fun i _ => wide i

/-- `F` takes rows of shape `s` to rows of shape `t`, pixel by pixel. -/
def PixelWise (F : PngRowInfo → List UInt8 → PngRowInfo × List UInt8) (s t : Shape) : Prop :=
  ∃ g : List UInt8 → List UInt8,
    (∀ px, px.length = s.pixelBytes → (g px).length = t.pixelBytes) ∧
    ∀ n pixel, (∀ i, (pixel i).length = s.pixelBytes) →
      F (s.info n) (rowOf n pixel) = (t.info n, rowOf n fun i => g (pixel i))

namespace PixelWise
variable {F G : PngRowInfo → List UInt8 → PngRowInfo × List UInt8} {s t u : Shape}

theorem refl (s : Shape) : PixelWise (fun ri row => (ri, row)) s s :=
  ⟨id, fun _ wide => wide, fun _ _ _ => rfl⟩

theorem trans (first : PixelWise F s t) (second : PixelWise G t u) :
    PixelWise (fun ri row => G (F ri row).1 (F ri row).2) s u := by
  obtain ⟨f, f_wide, f_eq⟩ := first
  obtain ⟨g, g_wide, g_eq⟩ := second
  refine ⟨fun px => g (f px), fun px wide => g_wide _ (f_wide px wide), fun n pixel wide => ?_⟩
  dsimp only
  rw [f_eq n pixel wide]
  exact g_eq n _ fun i => f_wide _ (wide i)

end PixelWise

/-! ## Each transformation -/

def wholeBytes (bitDepth : Nat) : Prop := bitDepth = 8 ∨ bitDepth = 16

theorem rowbytes_whole {bits : Nat} (whole : 8 ≤ bits) (n : Nat) :
    rowbytes bits n = n * (bits / 8) := by
  rw [rowbytes, if_pos whole, Nat.shiftRight_eq_div_pow]

def samples (color alpha : Bool) (bitDepth : Nat) : Shape where
  colorType := (if color then 2 else 0) + (if alpha then 4 else 0)
  bitDepth := bitDepth
  channels := (if color then 3 else 1) + (if alpha then 1 else 0)

theorem pngDoExpand_pixelWise {bd : Nat} (whole : wholeBytes bd) (color : Bool)
    (transColor : PngColor16) :
    PixelWise (fun ri row => pngDoExpand ri row (some transColor)) (samples color false bd)
      (samples color true bd) := by
  refine ⟨if color then rgbAlphaPixel bd transColor else grayAlphaPixel bd transColor.gray.toNat,
    fun px wide => ?_, fun n pixel wide => ?_⟩
  · rcases whole with rfl | rfl <;> cases color <;>
      simp_all [samples, Shape.pixelBytes, grayAlphaPixel, rgbAlphaPixel]
  · rcases whole with rfl | rfl <;> cases color <;>
      simp_all [pngDoExpand, samples, Shape.info, Shape.pixelBytes, colorTypeGray, colorTypeRGB,
        colorTypeGrayAlpha, colorTypeRGBAlpha, mapPixels_rowOf]

theorem pngDoExpand_none_pixelWise {bd : Nat} (whole : wholeBytes bd) (color alpha : Bool) :
    PixelWise (fun ri row => pngDoExpand ri row none) (samples color alpha bd)
      (samples color alpha bd) := by
  refine ⟨id, fun _ wide => wide, fun n pixel wide => ?_⟩
  rcases whole with rfl | rfl <;> cases color <;> cases alpha <;>
    simp [pngDoExpand, samples, Shape.info, colorTypeGray]

theorem pngDoGrayToRGB_pixelWise {bd : Nat} (whole : wholeBytes bd) (alpha : Bool) :
    PixelWise pngDoGrayToRGB (samples false alpha bd) (samples true alpha bd) := by
  refine ⟨grayPixelToRGB (bd / 8), fun px wide => ?_, fun n pixel wide => ?_⟩
  · rcases whole with rfl | rfl <;> cases alpha <;>
      simp_all [samples, Shape.pixelBytes, grayPixelToRGB, List.length_take]
  · rcases whole with rfl | rfl <;> cases alpha <;>
      simp_all [pngDoGrayToRGB, samples, Shape.info, Shape.pixelBytes, colorMaskColor,
        colorTypeGray, colorTypeGrayAlpha, mapPixels_rowOf]

theorem gammaPixel_length (table : GammaTable) {bd colors : Nat} (px : List UInt8)
    (long : colors * (bd / 8) ≤ px.length)
    (fits : match table with | .bits8 _ => bd = 8 | .bits16 _ => bd = 16) :
    (gammaPixel table colors px).length = px.length := by
  cases table with
  | bits8 table =>
    simp only [gammaPixel, List.length_append, List.length_map, List.length_take,
      List.length_drop]
    omega
  | bits16 table =>
    subst fits
    have wide : ∀ s : List UInt8, s.length = 2 →
        [highByte (table (s.getD 1 0) (s.getD 0 0)), (table (s.getD 1 0) (s.getD 0 0)).toUInt8].length
          = 2 := fun _ _ => rfl
    have taken : (px.take (2 * colors)).length = 2 * colors := by
      rw [List.length_take]; omega
    simp only [gammaPixel, List.length_append, mapPixels_length 2 2 _ colors _ wide taken,
      List.length_drop]
    omega

theorem pngDoGamma_pixelWise {bd : Nat} (whole : wholeBytes bd) (alpha : Bool)
    (table : Option GammaTable) :
    PixelWise (fun ri row => (ri, pngDoGamma ri row table)) (samples true alpha bd)
      (samples true alpha bd) := by
  cases table with
  | none => exact .refl _
  | some table =>
    by_cases fits : match table with | .bits8 _ => bd = 8 | .bits16 _ => bd = 16
    · refine ⟨gammaPixel table 3, fun px wide => ?_, fun n pixel wide => ?_⟩
      · rw [gammaPixel_length table px _ fits, wide]
        rw [wide]
        cases alpha <;> simp only [samples, Shape.pixelBytes] <;> first | (simp; done) | (simp; omega)
      · cases table <;> subst fits <;> cases alpha <;>
          simp_all [pngDoGamma, samples, Shape.info, Shape.pixelBytes, colorTypeRGB,
            colorTypeRGBAlpha, mapPixels_rowOf]
    · refine ⟨id, fun _ wide => wide, fun n pixel _ => ?_⟩
      cases table <;> rcases whole with rfl | rfl <;> cases alpha <;>
        simp_all [pngDoGamma, samples, Shape.info]

theorem pngDoChop_pixelWise (alpha : Bool) :
    PixelWise pngDoChop (samples true alpha 16) (samples true alpha 8) := by
  refine ⟨mapPixels 2 (·.take 1) (if alpha then 4 else 3), fun px wide => ?_,
    fun n pixel wide => ?_⟩
  · have one : ∀ s : List UInt8, s.length = 2 → (s.take 1).length = 1 := by
      intro s two
      rw [List.length_take, two]
      rfl
    rw [mapPixels_length 2 1 _ _ px one (by rw [wide]; cases alpha <;> rfl)]
    cases alpha <;> rfl
  · cases alpha <;>
      simp_all [pngDoChop, samples, Shape.info, Shape.pixelBytes, mapPixels_rowOf, rowbytes_whole]

/-! ## From the bytes of a scanline -/

def rawPixel (h : Header) (row : List UInt8) (i : Nat) : List UInt8 :=
  if h.bitDepth < 8 then [packedPixel h.bitDepth row i]
  else
    let k := h.channels * (h.bitDepth / 8)
    (List.range k).map fun j => row.getD (k * i + j) 0

theorem rowOf_getD {k n : Nat} {row : List UInt8} (full : row.length = k * n) :
    rowOf n (fun i => (List.range k).map fun j => row.getD (k * i + j) 0) = row := by
  induction n generalizing row with
  | zero => simpa [rowOf] using (List.length_eq_zero_iff.mp (by simpa using full)).symm
  | succ n ih =>
    rw [Nat.mul_succ] at full
    have tail : (row.drop k).length = k * n := by rw [List.length_drop]; omega
    have head : (List.range k).map (fun j => row.getD (k * 0 + j) 0) = row.take k := by
      apply List.ext_getElem
      · simp; omega
      · intro j hj _
        have : j < row.length := by simp at hj; omega
        simp [List.getElem_take, this]
    have rest : ∀ i j, row.getD (k * (i + 1) + j) 0 = (row.drop k).getD (k * i + j) 0 := by
      intro i j
      rw [List.getD_eq_getElem?_getD, List.getD_eq_getElem?_getD, List.getElem?_drop, Nat.mul_succ]
      congr 2
      omega
    unfold rowOf at ih ⊢
    rw [List.range_succ_eq_map, List.flatMap_cons, List.flatMap_map, head]
    simp only [Nat.succ_eq_add_one, rest]
    rw [ih tail, List.take_append_drop]

def hasAlpha (h : Header) : Bool := h.colorType &&& colorMaskAlpha ≠ 0 || h.infoValidTRNS

def hasColor (h : Header) : Bool := h.colorType &&& colorMaskColor ≠ 0

def expandedDepth (h : Header) : Nat := if h.bitDepth = 16 then 16 else 8

theorem unpackRow_eq (depth n : Nat) (row : List UInt8) :
    unpackRow depth n row = rowOf n fun i => [packedPixel depth row i] := by
  unfold unpackRow rowOf
  induction List.range n with
  | nil => rfl
  | cons i is ih => rw [List.map_cons, ih]; rfl

theorem map_rowOf (f : UInt8 → UInt8) (n : Nat) (pixel : Nat → List UInt8) :
    (rowOf n pixel).map f = rowOf n fun i => (pixel i).map f := by
  simp [rowOf, List.map_flatMap]

theorem rawPixel_packed {h : Header} (packed : h.bitDepth < 8) (row : List UInt8) (i : Nat) :
    rawPixel h row i = [packedPixel h.bitDepth row i] := if_pos packed

theorem unpackRow_rawPixel {h : Header} (packed : h.bitDepth < 8) (n : Nat) (row : List UInt8) :
    unpackRow h.bitDepth n row = rowOf n (rawPixel h row) := by
  rw [unpackRow_eq]
  congr 1
  funext i
  rw [rawPixel_packed packed]

theorem rawPixel_length {h : Header} (whole : 8 ≤ h.bitDepth) (row : List UInt8) (i : Nat) :
    (rawPixel h row i).length = h.channels * (h.bitDepth / 8) := by
  rw [rawPixel, if_neg (by omega)]
  simp

theorem rowOf_rawPixel {h : Header} {n : Nat} {row : List UInt8} (whole : 8 ≤ h.bitDepth)
    (full : row.length = h.channels * (h.bitDepth / 8) * n) : rowOf n (rawPixel h row) = row := by
  have bytes : rawPixel h row = fun i =>
      (List.range (h.channels * (h.bitDepth / 8))).map fun j =>
        row.getD (h.channels * (h.bitDepth / 8) * i + j) 0 := by
    funext i
    rw [rawPixel, if_neg (by omega)]
  rw [bytes, rowOf_getD full]

structure ExpandsSamples (h : Header) (r : Rows) : Prop where
  expand : r.transformations.expand = true ↔ h.colorType = colorTypePalette ∨
    h.colorType = colorTypeGray ∨ h.colorType = colorTypeGrayAlpha ∨ h.infoValidTRNS = true
  expandTRNS : h.infoValidTRNS = true → r.transformations.expandTRNS = true

section Expand
variable {h : Header} {r : Rows}

def ExpandsTo (h : Header) (r : Rows) : Prop :=
  ∃ g : List UInt8 → List UInt8,
    (∀ row i, (g (rawPixel h row i)).length =
      (samples (hasColor h) (hasAlpha h) (expandedDepth h)).pixelBytes) ∧
    ∀ n row, row.length = rowbytes h.pixelDepth n →
      expandSamples h r (rowInfo h n) row =
        ((samples (hasColor h) (hasAlpha h) (expandedDepth h)).info n,
          rowOf n fun i => g (rawPixel h row i))

theorem expandSamples_palette (valid : h.Valid)
    (transparency : h.infoValidTRNS = true ↔ 0 < h.numTrans) (asked : ExpandsSamples h r)
    (palette : h.colorType = colorTypePalette) : ExpandsTo h r := by
  have color : hasColor h = true := by rw [hasColor, palette]; rfl
  have alpha : hasAlpha h = decide (0 < h.numTrans) := by
    rw [hasAlpha, palette, Bool.eq_iff_iff, decide_eq_true_iff, ← transparency]
    simp [colorTypePalette, colorMaskAlpha]
  have depths : ∀ f ∈ pixelFormats, f.1 = colorTypePalette → f.2 ≤ 8 := by decide
  have depth := depths _ valid.format palette
  have channels : h.channels = 1 := by rw [valid.channels, palette]; rfl
  have expanded : expandedDepth h = 8 := if_neg (by omega)
  have asked : r.transformations.expand = true := asked.expand.mpr (.inl palette)
  refine ⟨palettePixel (h.palette.getD []) h.transAlpha h.numTrans, fun row i => ?_,
    fun n row full => ?_⟩
  · rw [color, alpha, expanded]
    by_cases trans : 0 < h.numTrans <;> simp [palettePixel, trans, samples, Shape.pixelBytes]
  · have wide : ∀ i, (rawPixel h row i).length = 1 := by
      intro i
      by_cases packed : h.bitDepth < 8
      · rw [rawPixel_packed packed]; rfl
      · rw [rawPixel_length (by omega), channels, show h.bitDepth = 8 by omega]
    have mapped := mapPixels_rowOf 1 (palettePixel (h.palette.getD []) h.transAlpha h.numTrans) n wide
    unfold expandSamples pngDoExpandPalette
    rw [if_pos asked, if_pos (by exact palette), if_pos (by exact palette)]
    simp only [rowInfo]
    by_cases packed : h.bitDepth < 8
    · rw [← unpackRow_rawPixel packed] at mapped
      by_cases trans : 0 < h.numTrans <;>
        simp [packed, mapped, trans, samples, Shape.info, color, alpha, expanded, rowbytes_whole]
    · have eight : h.bitDepth = 8 := by omega
      rw [rowbytes_whole (by rw [valid.pixelDepth, channels]; omega), valid.pixelDepth, channels,
        eight] at full
      rw [rowOf_rawPixel (by omega) (by rw [channels, eight]; omega)] at mapped
      by_cases trans : 0 < h.numTrans <;>
        simp [eight, mapped, trans, samples, Shape.info, color, alpha, expanded, rowbytes_whole]

theorem expandSamples_packedGray (valid : h.Valid)
    (transparency : h.infoValidTRNS = true ↔ 0 < h.numTrans) (asked : ExpandsSamples h r)
    (gray : h.colorType = colorTypeGray) (packed : h.bitDepth < 8) : ExpandsTo h r := by
  have color : hasColor h = false := by rw [hasColor, gray]; rfl
  have alpha : hasAlpha h = h.infoValidTRNS := by rw [hasAlpha, gray]; rfl
  have expanded : expandedDepth h = 8 := if_neg (by omega)
  have expand : r.transformations.expand = true := asked.expand.mpr (.inr (.inl gray))
  let scaled : List UInt8 → List UInt8 := fun px =>
    px.map (· * UInt8.ofNat (grayScale h.bitDepth))
  have wide (row : List UInt8) (i : Nat) : (scaled (rawPixel h row i)).length = 1 := by
    rw [rawPixel_packed packed]; rfl
  by_cases trans : 0 < h.numTrans
  · have valid' := transparency.mpr trans
    refine ⟨fun px => grayAlphaPixel 8
        (h.transColor.gray.toNat % 2 ^ h.bitDepth * grayScale h.bitDepth) (scaled px),
      fun row i => ?_, fun n row _ => ?_⟩
    · rw [color, alpha, expanded, valid']
      simp [grayAlphaPixel, wide, samples, Shape.pixelBytes]
    · have mapped := mapPixels_rowOf 1 (grayAlphaPixel 8
        (h.transColor.gray.toNat % 2 ^ h.bitDepth * grayScale h.bitDepth)) n (wide row)
      rw [← map_rowOf _ n (rawPixel h row), ← unpackRow_rawPixel packed] at mapped
      unfold expandSamples pngDoExpand
      simp [expand, rowInfo, gray, colorTypePalette, colorTypeGray, trans.ne',
        asked.expandTRNS valid', packed, mapped, samples, Shape.info, color, alpha, expanded,
        valid', colorTypeGrayAlpha, scaled]
  · have invalid : h.infoValidTRNS = false := by
      by_contra some; exact trans (transparency.mp (by simpa using some))
    refine ⟨scaled, fun row i => ?_, fun n row _ => ?_⟩
    · rw [color, alpha, expanded, invalid, wide]; rfl
    · have mapped := map_rowOf (· * UInt8.ofNat (grayScale h.bitDepth)) n (rawPixel h row)
      rw [← unpackRow_rawPixel packed] at mapped
      have channels : h.channels = 1 := by rw [valid.channels, gray]; rfl
      unfold expandSamples pngDoExpand
      simp [expand, rowInfo, gray, colorTypePalette, colorTypeGray, show h.numTrans = 0 by omega,
        packed, mapped, samples, Shape.info, color, alpha, expanded, invalid, scaled, channels,
        rowbytes_whole]

theorem rowInfo_samples (valid : h.Valid) (other : h.colorType ≠ colorTypePalette) (n : Nat) :
    rowInfo h n =
      (samples (hasColor h) (decide (h.colorType &&& colorMaskAlpha ≠ 0)) h.bitDepth).info n := by
  have types : ∀ f ∈ pixelFormats, f.1 ≠ colorTypePalette →
      (samples (decide (f.1 &&& colorMaskColor ≠ 0)) (decide (f.1 &&& colorMaskAlpha ≠ 0))
        f.2).colorType = f.1 ∧
      (samples (decide (f.1 &&& colorMaskColor ≠ 0)) (decide (f.1 &&& colorMaskAlpha ≠ 0))
        f.2).channels = channelsOf f.1 := by decide
  obtain ⟨type, channels⟩ := types _ valid.format other
  rw [← valid.channels] at channels
  unfold rowInfo Shape.info
  rw [valid.pixelDepth, hasColor, channels, type]
  rfl

theorem expandSamples_whole (valid : h.Valid)
    (transparency : h.infoValidTRNS = true ↔ 0 < h.numTrans)
    (noAlpha : 0 < h.numTrans → h.colorType &&& colorMaskAlpha = 0) (asked : ExpandsSamples h r)
    (whole : wholeBytes h.bitDepth) (other : h.colorType ≠ colorTypePalette) : ExpandsTo h r := by
  have expanded : expandedDepth h = h.bitDepth := by
    unfold expandedDepth
    rcases whole with depth | depth <;> rw [depth] <;> rfl
  have enough : 8 ≤ h.bitDepth := by rcases whole with depth | depth <;> omega
  have bytes : h.channels * (h.bitDepth / 8) = (samples (hasColor h)
      (decide (h.colorType &&& colorMaskAlpha ≠ 0)) h.bitDepth).pixelBytes := by
    have := congrArg PngRowInfo.channels (rowInfo_samples valid other 0)
    rw [Shape.pixelBytes]
    exact congrArg (· * (h.bitDepth / 8)) this
  -- the expansion is one of three pixelwise functions
  suffices pixelWise : ∃ F, (∀ n row, expandSamples h r (rowInfo h n) row = F (rowInfo h n) row) ∧
      PixelWise F (samples (hasColor h) (decide (h.colorType &&& colorMaskAlpha ≠ 0)) h.bitDepth)
        (samples (hasColor h) (hasAlpha h) h.bitDepth) by
    obtain ⟨F, same, g, wide, eq⟩ := pixelWise
    have rawWide (row : List UInt8) (i : Nat) :=
      (rawPixel_length enough row i (h := h)).trans bytes
    refine ⟨g, fun row i => by rw [expanded]; exact wide _ (rawWide row i), fun n row full => ?_⟩
    have result := eq n (rawPixel h row) (rawWide row)
    have pixelDepth : h.pixelDepth / 8 = h.channels * (h.bitDepth / 8) := by
      rw [valid.pixelDepth]
      rcases whole with depth | depth <;> rw [depth] <;> omega
    have positive : 0 < h.channels := by
      rw [valid.channels, channelsOf]
      split <;> first | omega | (split <;> first | omega | (split <;> omega))
    rw [rowbytes_whole (by rw [valid.pixelDepth]; nlinarith), pixelDepth, Nat.mul_comm] at full
    rw [rowOf_rawPixel enough full] at result
    rw [same, expanded, rowInfo_samples valid other, result]
  by_cases trans : 0 < h.numTrans
  · have valid' := transparency.mpr trans
    refine ⟨fun ri row => pngDoExpand ri row (some h.transColor), fun n row => ?_, ?_⟩
    · rw [expandSamples, if_pos (asked.expand.mpr (.inr (.inr (.inr valid')))),
        if_neg (by exact other), if_pos ⟨by omega, asked.expandTRNS valid'⟩]
    · have plain : decide (h.colorType &&& colorMaskAlpha ≠ 0) = false := by
        rw [noAlpha trans]; rfl
      rw [plain, show hasAlpha h = true by rw [hasAlpha, valid', Bool.or_true]]
      exact pngDoExpand_pixelWise whole _ _
  · have same : hasAlpha h = decide (h.colorType &&& colorMaskAlpha ≠ 0) := by
      have invalid : h.infoValidTRNS = false := by
        by_contra some; exact trans (transparency.mp (by simpa using some))
      rw [hasAlpha, invalid, Bool.or_false]
    rw [same]
    by_cases expand : r.transformations.expand = true
    · refine ⟨fun ri row => pngDoExpand ri row none, fun n row => ?_,
        pngDoExpand_none_pixelWise whole _ _⟩
      rw [expandSamples, if_pos expand, if_neg (by exact other),
        if_neg (fun both => both.1 (by omega))]
    · refine ⟨fun ri row => (ri, row), fun n row => ?_, .refl _⟩
      rw [expandSamples, if_neg expand]

theorem expandSamples_pixels (valid : h.Valid)
    (transparency : h.infoValidTRNS = true ↔ 0 < h.numTrans)
    (noAlpha : 0 < h.numTrans → h.colorType &&& colorMaskAlpha = 0) (asked : ExpandsSamples h r) :
    ExpandsTo h r := by
  by_cases palette : h.colorType = colorTypePalette
  · exact expandSamples_palette valid transparency asked palette
  have formats : ∀ f ∈ pixelFormats, f.2 = 8 ∨ f.2 = 16 ∨ (f.2 < 8 ∧ (f.1 = 0 ∨ f.1 = 3)) := by
    decide
  obtain eight | sixteen | ⟨packed, gray | palette'⟩ := formats _ valid.format
  · exact expandSamples_whole valid transparency noAlpha asked (.inl eight) palette
  · exact expandSamples_whole valid transparency noAlpha asked (.inr sixteen) palette
  · exact expandSamples_packedGray valid transparency asked gray packed
  · exact absurd palette' palette

structure ReducesSamples (h : Header) (r : Rows) : Prop extends ExpandsSamples h r where
  grayToRGB : r.transformations.grayToRGB = !hasColor h
  chop16 : r.transformations.chop16 = decide (h.bitDepth = 16)

theorem expandedDepth_whole (h : Header) : wholeBytes (expandedDepth h) := by
  unfold expandedDepth
  split
  · exact .inr rfl
  · exact .inl rfl

/-- `g` is what the transformations up to bytes of RGB or RGBA make of a pixel. -/
structure SamplePixels (h : Header) (r : Rows) (g : List UInt8 → List UInt8) : Prop where
  wide (row : List UInt8) (i : Nat) :
    (g (rawPixel h row i)).length = (samples true (hasAlpha h) 8).pixelBytes
  eq (n : Nat) (row : List UInt8) (full : row.length = rowbytes h.pixelDepth n) :
    transformSamples h r (rowInfo h n) row =
      ((samples true (hasAlpha h) 8).info n, rowOf n fun i => g (rawPixel h row i))

structure SameSamples (r r' : Rows) : Prop where
  expand : r'.transformations.expand = r.transformations.expand
  expandTRNS : r'.transformations.expandTRNS = r.transformations.expandTRNS
  grayToRGB : r'.transformations.grayToRGB = r.transformations.grayToRGB
  gamma : r'.transformations.gamma = r.transformations.gamma
  chop16 : r'.transformations.chop16 = r.transformations.chop16
  gammaTable : r'.gammaTable = r.gammaTable

theorem SameSamples.of_eq {r' r₁ r₁' : Rows} (same : SameSamples r r')
    (t : r₁.transformations = r.transformations) (t' : r₁'.transformations = r'.transformations)
    (table : r₁.gammaTable = r.gammaTable) (table' : r₁'.gammaTable = r'.gammaTable) :
    SameSamples r₁ r₁' := by
  obtain ⟨expand, expandTRNS, gray, gamma, chop, tables⟩ := same
  constructor <;> simp only [t, t', table, table', expand, expandTRNS, gray, gamma, chop, tables]

theorem SamplePixels.congr {r' : Rows} {g : List UInt8 → List UInt8} (pixels : SamplePixels h r g)
    (same : SameSamples r r') : SamplePixels h r' g := by
  refine ⟨pixels.wide, fun n row full => ?_⟩
  rw [← pixels.eq n row full]
  unfold transformSamples expandSamples
  dsimp only
  rw [same.expand, same.expandTRNS, same.grayToRGB, same.gamma, same.chop16, same.gammaTable]

theorem transformSamples_pixels (valid : h.Valid)
    (transparency : h.infoValidTRNS = true ↔ 0 < h.numTrans)
    (noAlpha : 0 < h.numTrans → h.colorType &&& colorMaskAlpha = 0) (asked : ReducesSamples h r) :
    ∃ g, SamplePixels h r g := by
  obtain ⟨e, e_wide, e_eq⟩ :=
    expandSamples_pixels valid transparency noAlpha asked.toExpandsSamples
  have whole := expandedDepth_whole h
  have colored : PixelWise (fun ri row =>
      if r.transformations.grayToRGB then pngDoGrayToRGB ri row else (ri, row))
      (samples (hasColor h) (hasAlpha h) (expandedDepth h))
      (samples true (hasAlpha h) (expandedDepth h)) := by
    rw [asked.grayToRGB]
    cases hasColor h with
    | true => exact .refl _
    | false => exact pngDoGrayToRGB_pixelWise whole _
  have corrected : PixelWise (fun ri row =>
      (ri, if r.transformations.gamma ∧ h.colorType ≠ colorTypePalette
        then pngDoGamma ri row r.gammaTable else row))
      (samples true (hasAlpha h) (expandedDepth h))
      (samples true (hasAlpha h) (expandedDepth h)) := by
    by_cases gamma : r.transformations.gamma ∧ h.colorType ≠ colorTypePalette
    · simp only [gamma, ne_eq, not_false_eq_true, and_self, if_true]
      exact pngDoGamma_pixelWise whole _ _
    · simp only [gamma, if_false]
      exact .refl _
  have chopped : PixelWise (fun ri row =>
      if r.transformations.chop16 then pngDoChop ri row else (ri, row))
      (samples true (hasAlpha h) (expandedDepth h)) (samples true (hasAlpha h) 8) := by
    rw [asked.chop16]
    by_cases sixteen : h.bitDepth = 16
    · simp only [sixteen, decide_true, if_true, expandedDepth]
      exact pngDoChop_pixelWise _
    · simp only [sixteen, decide_false, expandedDepth, if_false]
      exact .refl _
  obtain ⟨g, g_wide, g_eq⟩ := (colored.trans corrected).trans chopped
  refine ⟨fun px => g (e px), fun row i => g_wide _ (e_wide row i), fun n row full => ?_⟩
  rw [← g_eq n _ (e_wide row), transformSamples, e_eq n row full]

/-! ## The four channels of the output -/

def rgbaPixel (h : Header) (px : List UInt8) : List UInt8 :=
  if hasAlpha h then px else px ++ [0xff]

/-- The four bytes of a pixel in a format, from those of RGBA. -/
def formatPixel : ColorFormat → List UInt8 → List UInt8
  | .rgba, px => px
  | .bgra, px => bgrPixel 1 px
  | .skBitmap, px => skiaPixel px

theorem formatPixel_length (format : ColorFormat) {px : List UInt8} (wide : px.length = 4) :
    (formatPixel format px).length = 4 := by
  cases format with
  | rgba => exact wide
  | bgra => simp [formatPixel, bgrPixel, wide]
  | skBitmap => rfl

structure PicksFormat (h : Header) (r : Rows) : Prop where
  bgr : r.transformations.bgr = decide (r.app.outputFormat = .bgra)
  filler : r.transformations.filler = !hasAlpha h
  userTransform : r.transformations.userTransform = decide (r.app.outputFormat = .skBitmap)
  fullAlpha : r.transformations.filler = true → r.filler = 0xff ∧ r.fillerAfter = true

def outputShape (h : Header) : Shape := { samples true (hasAlpha h) 8 with channels := 4 }

theorem bgrPixel_append {px : List UInt8} (wide : px.length = 3) (v : UInt8) :
    bgrPixel 1 (px ++ [v]) = bgrPixel 1 px ++ [v] := by
  obtain ⟨a, b, c, rfl⟩ := List.length_eq_three.mp wide
  rfl

theorem rgbaPixel_length {px : List UInt8}
    (wide : px.length = (samples true (hasAlpha h) 8).pixelBytes) :
    (rgbaPixel h px).length = 4 := by
  unfold rgbaPixel
  cases alpha : hasAlpha h <;> simp_all [samples, Shape.pixelBytes]

def channelPixel (h : Header) (format : ColorFormat) (px : List UInt8) : List UInt8 :=
  if format = .bgra then bgrPixel 1 (rgbaPixel h px) else rgbaPixel h px

theorem channelPixel_length (format : ColorFormat) {px : List UInt8}
    (wide : px.length = (samples true (hasAlpha h) 8).pixelBytes) :
    (channelPixel h format px).length = 4 := by
  unfold channelPixel
  split
  · exact formatPixel_length .bgra (rgbaPixel_length wide)
  · exact rgbaPixel_length wide

theorem transformChannels_pixels (asked : PicksFormat h r) (n : Nat) {pixel : Nat → List UInt8}
    (wide : ∀ i, (pixel i).length = (samples true (hasAlpha h) 8).pixelBytes) :
    transformChannels r ((samples true (hasAlpha h) 8).info n) (rowOf n pixel) =
      ((outputShape h).info n, rowOf n fun i => channelPixel h r.app.outputFormat (pixel i)) := by
  have three (alpha : hasAlpha h = false) (i : Nat) : (pixel i).length = 3 := by
    rw [wide, alpha]; rfl
  have filled (alpha : hasAlpha h = false) :
      mapPixels 3 (fun px => px ++ [255]) n (rowOf n fun i => bgrPixel 1 (pixel i)) =
        rowOf n fun i => bgrPixel 1 (pixel i ++ [255]) := by
    rw [mapPixels_rowOf 3 _ n fun i => by simp [bgrPixel, three alpha]]
    simp only [bgrPixel_append (three alpha _)]
  unfold transformChannels channelPixel
  have after := asked.fullAlpha
  rw [asked.filler] at after
  rw [asked.bgr, asked.filler]
  by_cases bgra : r.app.outputFormat = .bgra <;> cases alpha : hasAlpha h <;>
    simp_all [pngDoBgr, pngDoReadFiller, samples, Shape.info, Shape.pixelBytes, outputShape,
      rgbaPixel, colorMaskColor, colorTypeRGB, colorTypeRGBAlpha, colorTypeGray, mapPixels_rowOf,
      rowbytes_whole]

/-! ## A transformed row -/

def outputPixel (h : Header) (format : ColorFormat) (g : List UInt8 → List UInt8)
    (px : List UInt8) : List UInt8 := formatPixel format (rgbaPixel h (g px))

def userTransformEvents (h : Header) (format : ColorFormat) (n : Nat) : List Event :=
  if format = .skBitmap then [.userTransform ((outputShape h).info n) (4 * n)] else []

theorem outputPixel_eq (format : ColorFormat) (g : List UInt8 → List UInt8) (px : List UInt8) :
    outputPixel h format g px =
      if format = .skBitmap then skiaPixel (channelPixel h format (g px))
      else channelPixel h format (g px) := by
  cases format <;> rfl

theorem pngDoReadTransformations_pixels {g : List UInt8 → List UInt8} (pixels : SamplePixels h r g)
    (asked : PicksFormat h r) (rowInit : r.rowInit = true) {n : Nat}
    (full : (r.rowBuf.drop 1).length = rowbytes h.pixelDepth n) :
    ∃ isOpaque, pngDoReadTransformations h r (rowInfo h n) =
      .ok ((outputShape h).info n, { r with
        rowBuf := r.rowBuf.take 1 ++ rowOf n fun i =>
          outputPixel h r.app.outputFormat g (rawPixel h (r.rowBuf.drop 1) i)
        app := { r.app with isOpaque }
        trace := r.trace ++ userTransformEvents h r.app.outputFormat n }) := by
  have wide := pixels.wide (r.rowBuf.drop 1)
  have four (i : Nat) := channelPixel_length r.app.outputFormat (wide i)
  unfold pngDoReadTransformations
  rw [rowInit, pixels.eq n _ full]
  simp only [Bool.not_true, Bool.and_false, Bool.false_eq_true, if_false]
  rw [transformChannels_pixels asked n wide, asked.userTransform]
  simp only [outputPixel_eq]
  by_cases skia : r.app.outputFormat = .skBitmap
  · have bytes : ((outputShape h).info n).rowbytes = 4 * n := by
      simp [outputShape, Shape.info, samples, rowbytes_whole, Nat.mul_comm]
    have converted := convertRGBARowToSkia_row ((outputShape h).info n) n []
      (rowOf n fun i => channelPixel h r.app.outputFormat (g (rawPixel h (r.rowBuf.drop 1) i))) []
      r.app.isOpaque rfl bytes (rowOf_length four)
    rw [mapPixels_rowOf 4 skiaPixel n four] at converted
    simp only [List.nil_append, List.append_nil, List.length_nil] at converted
    have long := rowOf_length (n := n) fun i => skiaPixel_length
      (channelPixel h r.app.outputFormat (g (rawPixel h (r.rowBuf.drop 1) i)))
    simp only [skia, decide_true, if_true] at converted long ⊢
    rw [converted]
    simp only [userTransformEvents, long, if_true]
    exact ⟨_, rfl⟩
  · simp only [skia, decide_false, Bool.false_eq_true, if_false, userTransformEvents,
      List.append_nil]
    exact ⟨_, rfl⟩

end Expand
end PngDecode.Libpng
