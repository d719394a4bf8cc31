import PngDecode.Decoder.Callbacks
import PngDecode.Decoder.Decode
import PngDecode.Libpng.Pixels

/-! # What `DecodeInfoCallback` sets up

Called once, for a header the reader has accepted, the callback either finds the image too big or
returns with the same transformations for every image of the same kind. Called again it fails. -/

namespace PngDecode.Decoder
open PngDecode.Lib PngDecode.Libpng

variable {env : Env} {h : Header} {r : Rows}

/-! ## The requests as assignments -/

def askExpand (c : Bool) (r : Rows) : Rows :=
  { r with
    detectUninitialized := r.detectUninitialized || c
    transformations := { r.transformations with
      expand := r.transformations.expand || c
      expandTRNS := r.transformations.expandTRNS || c } }

def askStrip16 (c : Bool) (r : Rows) : Rows :=
  { r with
    detectUninitialized := r.detectUninitialized || c
    transformations := { r.transformations with chop16 := r.transformations.chop16 || c } }

def askGrayToRGB (c : Bool) (r : Rows) : Rows :=
  { r with
    detectUninitialized := r.detectUninitialized || c
    transformations := { r.transformations with
      expand := r.transformations.expand || c
      grayToRGB := r.transformations.grayToRGB || c } }

def askFormat (inputHasAlpha : Bool) (r : Rows) : Rows :=
  { r with
    app := { r.app with outputChannels := 4 }
    filler := if inputHasAlpha then r.filler else 0xff
    fillerAfter := if inputHasAlpha then r.fillerAfter else true
    transformations := { r.transformations with
      bgr := r.transformations.bgr || decide (r.app.outputFormat = .bgra)
      filler := r.transformations.filler || !inputHasAlpha
      addAlpha := r.transformations.addAlpha || !inputHasAlpha } }

def askUserTransform (r : Rows) : Rows :=
  { r with
    transformations := { r.transformations with
      userTransform :=
        r.transformations.userTransform || decide (r.app.outputFormat = .skBitmap) } }

def askInterlace (c : Bool) (r : Rows) : Rows :=
  { r with
    transformations := { r.transformations with interlace := r.transformations.interlace || c } }

def usedGamma (env : Env) (h : Header) : Int :=
  match env.colorspaceGamma h.colorspace with
  | some gamma => convertGammaValue (if gamma ≤ 0 ∨ gamma > kMaxGamma then kInverseGamma else gamma)
  | none => convertGammaValue kInverseGamma

theorem convertGammaValue_pos {gamma : Int} (positive : 0 < gamma) :
    0 < convertGammaValue gamma := by
  unfold convertGammaValue
  split <;> omega

theorem usedGamma_pos (env : Env) (h : Header) : 0 < usedGamma env h := by
  unfold usedGamma
  split
  · refine convertGammaValue_pos ?_
    split
    · decide
    · omega
  · decide

section Requests
variable (fresh : r.rowInit = false)
include fresh

theorem pngRtranOk_fresh : pngRtranOk r = .ok { r with detectUninitialized := true } := by
  simp [pngRtranOk, fresh]

theorem setExpand_ask (c : Prop) [Decidable c] :
    onlyIf c pngSetExpand r = .ok (askExpand (decide c) r) := by
  by_cases holds : c
  · simp [onlyIf, holds, pngSetExpand, pngRtranOk_fresh fresh, askExpand, bind, Except.bind]
  · simp [onlyIf, holds, askExpand]

theorem setStrip16_ask (c : Prop) [Decidable c] :
    onlyIf c pngSetStrip16 r = .ok (askStrip16 (decide c) r) := by
  by_cases holds : c
  · simp [onlyIf, holds, pngSetStrip16, pngRtranOk_fresh fresh, askStrip16, bind, Except.bind]
  · simp [onlyIf, holds, askStrip16]

theorem setGrayToRGB_ask (c : Prop) [Decidable c] :
    onlyIf c pngSetGrayToRGB r = .ok (askGrayToRGB (decide c) r) := by
  by_cases holds : c
  · simp [onlyIf, holds, pngSetGrayToRGB, pngSetExpandGray124To8, pngRtranOk, fresh, askGrayToRGB, bind,
      Except.bind]
  · simp [onlyIf, holds, askGrayToRGB]

theorem setGamma_ask : setGamma env h r = .ok { r with
    detectUninitialized := true, fileGamma := usedGamma env h, screenGamma := kDefaultGamma } := by
  have positive := usedGamma_pos env h
  have set (gamma : Int) (positive : 0 < convertGammaValue gamma) :
      pngSetGamma r kDefaultGamma gamma = .ok { r with
        detectUninitialized := true
        fileGamma := convertGammaValue gamma
        screenGamma := kDefaultGamma } := by
    rw [pngSetGamma, pngSetGammaFixed, pngRtranOk_fresh fresh]
    simp only [bind, Except.bind]
    rw [if_neg (by omega), if_neg (by decide)]
    rfl
  unfold setGamma
  unfold usedGamma at positive ⊢
  cases known : env.colorspaceGamma h.colorspace with
  | some gamma => rw [known] at positive; exact set _ positive
  | none => rw [known] at positive; exact set _ positive

theorem setUserTransform_ask :
    onlyIf (r.app.outputFormat = .skBitmap)
      (fun r => pngSetUserTransformInfo (pngSetReadUserTransformFn r)) r =
      .ok (askUserTransform r) := by
  by_cases skia : r.app.outputFormat = .skBitmap
  · simp [onlyIf, skia, pngSetUserTransformInfo, pngSetReadUserTransformFn, fresh, askUserTransform]
  · simp [onlyIf, skia, askUserTransform]

end Requests

theorem pickRowFormat_ask (inputHasAlpha : Bool) (r : Rows) :
    pickRowFormat inputHasAlpha r = askFormat inputHasAlpha r := by
  unfold pickRowFormat askFormat
  cases inputHasAlpha <;> cases format : r.app.outputFormat <;>
    simp [pngSetAddAlpha, pngSetFiller, pngSetBgr, format]

theorem setInterlace_ask (h : Header) (r : Rows) :
    (if h.interlaced = 1 then pngSetInterlaceHandling h r else r) =
      askInterlace (decide (h.interlaced = 1)) r := by
  by_cases adam7 : h.interlaced = 1 <;> simp [adam7, pngSetInterlaceHandling, askInterlace]

def askedRows (env : Env) (h : Header) (r : Rows) : Rows :=
  let r := { r with app := { r.app with width := h.width, height := h.height } }
  let r := askExpand
    (decide (h.colorType = colorTypePalette ∨ (h.colorType = colorTypeGray ∧ h.bitDepth < 8))) r
  let r := askExpand (decide (h.infoValidTRNS = true)) r
  let r := askStrip16 (decide (h.bitDepth = 16)) r
  let r := askFormat (hasAlpha h) r
  let r := askGrayToRGB
    (decide (h.colorType = colorTypeGray ∨ h.colorType = colorTypeGrayAlpha)) r
  let r := { r with
    detectUninitialized := true, fileGamma := usedGamma env h, screenGamma := kDefaultGamma }
  let r := askUserTransform r
  askInterlace (decide (h.interlaced = 1)) r

theorem decodeInfoCallback_asked (fresh : r.rowInit = false)
    (small : h.width * h.height ≤ 2 ^ 29 - 1) :
    decodeInfoCallback env h r =
      (pngReadUpdateInfo env h (askedRows env h r)).map fun s => (s.1, resizeOutput s.2) := by
  unfold decodeInfoCallback
  rw [if_neg (by omega)]
  dsimp only
  rw [setExpand_ask (by exact fresh), ok_bind, setExpand_ask (by exact fresh), ok_bind,
    setStrip16_ask (by exact fresh), ok_bind, pickRowFormat_ask,
    setGrayToRGB_ask (by exact fresh), ok_bind, setGamma_ask (by exact fresh), ok_bind,
    setUserTransform_ask (by exact fresh), ok_bind, setInterlace_ask]
  rfl

/-! ## The reader behind the callback -/

/-- What the callback sets up and nothing changes afterwards, with the sizes it relies on. -/
structure Configured (h : Header) (r : Rows) : Prop where
  valid : h.Valid
  transparency : h.infoValidTRNS = true ↔ 0 < h.numTrans
  noAlpha : 0 < h.numTrans → h.colorType &&& colorMaskAlpha = 0
  small : h.width * h.height ≤ 2 ^ 29 - 1
  rowInit : r.rowInit = true
  samples : ReducesSamples h r
  format : PicksFormat h r
  interlace : r.transformations.interlace = decide (h.interlaced = 1)
  infoRowbytes : r.infoRowbytes = 4 * h.width
  maximumPixelDepth : 32 ≤ r.maximumPixelDepth
  numRows : r.numRows = h.height
  appWidth : r.app.width = h.width
  appHeight : r.app.height = h.height
  appChannels : r.app.outputChannels = 4
  output : r.app.output.length = 4 * h.width * h.height
  depth : r.transformedPixelDepth = 0 ∨ r.transformedPixelDepth = 32

structure SameSetup (r r' : Rows) : Prop where
  rowInit : r'.rowInit = r.rowInit := by rfl
  transformations : r'.transformations = r.transformations := by rfl
  filler : r'.filler = r.filler := by rfl
  fillerAfter : r'.fillerAfter = r.fillerAfter := by rfl
  infoRowbytes : r'.infoRowbytes = r.infoRowbytes := by rfl
  maximumPixelDepth : r'.maximumPixelDepth = r.maximumPixelDepth := by rfl
  numRows : r'.numRows = r.numRows := by rfl
  outputFormat : r'.app.outputFormat = r.app.outputFormat := by rfl
  outputChannels : r'.app.outputChannels = r.app.outputChannels := by rfl
  appWidth : r'.app.width = r.app.width := by rfl
  appHeight : r'.app.height = r.app.height := by rfl
  output : r'.app.output.length = r.app.output.length := by rfl

namespace Configured

theorem update {r' : Rows} (configured : Configured h r) (same : SameSetup r r')
    (depth : r'.transformedPixelDepth = 0 ∨ r'.transformedPixelDepth = 32) : Configured h r' where
  valid := configured.valid
  transparency := configured.transparency
  noAlpha := configured.noAlpha
  small := configured.small
  rowInit := same.rowInit.trans configured.rowInit
  samples := by
    obtain ⟨⟨expand, expandTRNS⟩, grayToRGB, chop16⟩ := configured.samples
    rw [← same.transformations] at expand expandTRNS grayToRGB chop16
    exact ⟨⟨expand, expandTRNS⟩, grayToRGB, chop16⟩
  format := by
    obtain ⟨bgr, filler, userTransform, fullAlpha⟩ := configured.format
    rw [← same.transformations, ← same.outputFormat] at bgr userTransform
    rw [← same.transformations] at filler
    rw [← same.transformations, ← same.filler, ← same.fillerAfter] at fullAlpha
    exact ⟨bgr, filler, userTransform, fullAlpha⟩
  interlace := by rw [same.transformations]; exact configured.interlace
  infoRowbytes := same.infoRowbytes.trans configured.infoRowbytes
  maximumPixelDepth := by rw [same.maximumPixelDepth]; exact configured.maximumPixelDepth
  numRows := same.numRows.trans configured.numRows
  appWidth := same.appWidth.trans configured.appWidth
  appHeight := same.appHeight.trans configured.appHeight
  appChannels := same.outputChannels.trans configured.appChannels
  output := same.output.trans configured.output
  depth := depth

theorem setMode (configured : Configured h r) (mode : Mode) (cache : Nat) :
    Configured { h with mode, userChunkCacheMax := cache } r where
  valid := configured.valid.update ..
  transparency := configured.transparency
  noAlpha := configured.noAlpha
  small := configured.small
  rowInit := configured.rowInit
  samples := ⟨⟨configured.samples.expand, configured.samples.expandTRNS⟩,
    configured.samples.grayToRGB, configured.samples.chop16⟩
  format := ⟨configured.format.bgr, configured.format.filler, configured.format.userTransform,
    configured.format.fullAlpha⟩
  interlace := configured.interlace
  infoRowbytes := configured.infoRowbytes
  maximumPixelDepth := configured.maximumPixelDepth
  numRows := configured.numRows
  appWidth := configured.appWidth
  appHeight := configured.appHeight
  appChannels := configured.appChannels
  output := configured.output
  depth := configured.depth

end Configured

section Start
variable (format : ColorFormat) (output : List UInt8)

theorem askedRows_samples (valid : h.Valid) :
    ReducesSamples h (askedRows env h (initRows format output)) := by
  have types : ∀ f ∈ pixelFormats, (f.1 = colorTypeGray ∨ f.1 = colorTypeGrayAlpha) ↔
      decide (f.1 &&& colorMaskColor ≠ 0) = false := by decide
  have grays := types _ valid.format
  refine ⟨⟨?_, ?_⟩, ?_, ?_⟩
  · simp only [askedRows, askInterlace, askUserTransform, askGrayToRGB, askFormat, askStrip16,
      askExpand, initRows, initTransformations]
    grind
  · intro trns
    simp [askedRows, askInterlace, askUserTransform, askGrayToRGB, askFormat, askStrip16,
      askExpand, initRows, initTransformations, trns]
  · simp only [askedRows, askInterlace, askUserTransform, askGrayToRGB, askFormat, askStrip16,
      askExpand, initRows, initTransformations, hasColor]
    grind
  · simp [askedRows, askInterlace, askUserTransform, askGrayToRGB, askFormat, askStrip16,
      askExpand, initRows, initTransformations]

theorem askedRows_format : PicksFormat h (askedRows env h (initRows format output)) := by
  refine ⟨?_, ?_, ?_, ?_⟩
  all_goals
    simp [askedRows, askInterlace, askUserTransform, askGrayToRGB, askFormat, askStrip16,
      askExpand, initRows, initTransformations, initDecoderState]

theorem transformed_sizes (valid : h.Valid)
    (transparency : h.infoValidTRNS = true ↔ 0 < h.numTrans)
    (noAlpha : 0 < h.numTrans → h.colorType &&& colorMaskAlpha = 0) (asked : ReducesSamples h r)
    (picks : PicksFormat h r) :
    transformedRowbytes h r.transformations = 4 * h.width ∧
      32 ≤ maxPixelDepth h r.transformations % 256 := by
  have expand := asked.expand
  have gray := asked.grayToRGB
  have chop := asked.chop16
  have filler := picks.filler
  have pixelDepth := valid.pixelDepth
  have channels := valid.channels
  have format := valid.format
  rw [hasAlpha] at filler
  rw [hasColor] at gray
  simp only [pixelFormats, List.mem_cons, Prod.mk.injEq, List.not_mem_nil, or_false] at format
  by_cases trans : 0 < h.numTrans
  · have known := transparency.mpr trans
    have plain := noAlpha trans
    have expandTRNS := asked.expandTRNS known
    have some : h.numTrans ≠ 0 := by omega
    rw [known] at expand filler
    rcases format with ⟨type, depth⟩ | ⟨type, depth⟩ | ⟨type, depth⟩ | ⟨type, depth⟩ |
      ⟨type, depth⟩ | ⟨type, depth⟩ | ⟨type, depth⟩ | ⟨type, depth⟩ | ⟨type, depth⟩ |
      ⟨type, depth⟩ | ⟨type, depth⟩ | ⟨type, depth⟩ | ⟨type, depth⟩ | ⟨type, depth⟩ | ⟨type, depth⟩
    all_goals
      rw [type] at gray plain channels filler expand
      rw [depth] at chop
      simp [channelsOf, colorTypeGray, colorTypePalette, colorTypeGrayAlpha, colorTypeRGB,
        colorTypeRGBAlpha, colorMaskColor, colorMaskAlpha] at gray plain channels chop expand filler
      try simp [transformedRowbytes, maxPixelDepth, pixelDepth, channels, type, depth, gray, chop,
        expand, filler, expandTRNS, some, trans, colorTypeGray, colorTypePalette,
        colorTypeGrayAlpha, colorTypeRGB, colorTypeRGBAlpha, colorMaskColor, colorMaskAlpha,
        rowbytes_whole, Nat.mul_comm]
  · have unknown : h.infoValidTRNS = false := by
      by_contra known; exact trans (transparency.mp (by simpa using known))
    have none : h.numTrans = 0 := by omega
    rw [unknown] at expand filler
    rcases format with ⟨type, depth⟩ | ⟨type, depth⟩ | ⟨type, depth⟩ | ⟨type, depth⟩ |
      ⟨type, depth⟩ | ⟨type, depth⟩ | ⟨type, depth⟩ | ⟨type, depth⟩ | ⟨type, depth⟩ |
      ⟨type, depth⟩ | ⟨type, depth⟩ | ⟨type, depth⟩ | ⟨type, depth⟩ | ⟨type, depth⟩ | ⟨type, depth⟩
    all_goals
      rw [type] at gray channels filler expand
      rw [depth] at chop
      simp [channelsOf, colorTypeGray, colorTypePalette, colorTypeGrayAlpha, colorTypeRGB,
        colorTypeRGBAlpha, colorMaskColor, colorMaskAlpha] at gray channels chop expand filler
      simp [transformedRowbytes, maxPixelDepth, pixelDepth, channels, type, depth, gray, chop,
        expand, filler, none, colorTypeGray, colorTypePalette, colorTypeGrayAlpha, colorTypeRGB,
        colorMaskColor, colorMaskAlpha, rowbytes_whole, Nat.mul_comm]

/-! ## The result of the first call -/

structure GammaSetup where
  palette : Option (List PngColor)
  gamma : Bool
  table : Option GammaTable

def gammaSetup (env : Env) (h : Header) (fileGamma screenGamma : Int) : GammaSetup :=
  if fileGamma ≠ 0 && screenGamma ≠ 0 && pngGammaThreshold fileGamma screenGamma then
    let table :=
      if h.bitDepth ≤ 8 then .bits8 (env.gammaTable fileGamma screenGamma)
      else .bits16 (env.gamma16Table fileGamma screenGamma)
    if h.colorType = colorTypePalette then
      { palette := h.palette.map (·.map table.correct), gamma := false, table := some table }
    else { palette := h.palette, gamma := true, table := some table }
  else { palette := h.palette, gamma := false, table := none }

theorem gammaSetup_palette (env : Env) (h : Header) (fileGamma screenGamma : Int) :
    (gammaSetup env h fileGamma screenGamma).palette.isSome = h.palette.isSome := by
  unfold gammaSetup
  dsimp only
  split
  · split
    · exact Option.isSome_map
    · rfl
  · rfl

theorem pngInitReadTransformations_setup (env : Env) (h : Header) (r : Rows)
    (none : r.gammaTable = none) : pngInitReadTransformations env h r =
      ({ h with palette := (gammaSetup env h r.fileGamma r.screenGamma).palette }, { r with
        gammaTable := (gammaSetup env h r.fileGamma r.screenGamma).table
        transformations := { r.transformations with
          gamma := (gammaSetup env h r.fileGamma r.screenGamma).gamma } }) := by
  unfold pngInitReadTransformations gammaSetup
  dsimp only
  rw [← none]
  split
  · next corrects =>
    simp only [corrects]
    split <;> rfl
  · next plain =>
    simp only [Bool.not_eq_true] at plain
    simp only [plain]

def firstWidth (h : Header) : Nat := if h.interlaced = 1 then (h.width + 7) / 8 else h.width

theorem pngReadStartRow_setup (env : Env) (asksRows : r.transformations.interlace =
    decide (h.interlaced = 1)) (valid : h.interlaced ≤ 1) (first : r.pass = 0)
    (none : r.gammaTable = none) :
    pngReadStartRow env h r =
      ({ h with palette := (gammaSetup env h r.fileGamma r.screenGamma).palette }, { r with
        gammaTable := (gammaSetup env h r.fileGamma r.screenGamma).table
        transformations := { r.transformations with
          gamma := (gammaSetup env h r.fileGamma r.screenGamma).gamma }
        numRows := h.height
        iwidth := firstWidth h
        maximumPixelDepth := maxPixelDepth h r.transformations % 256
        transformedPixelDepth := 0
        prevRow := List.replicate (h.rowbytes + 1) 0
        rowInit := true }) := by
  unfold pngReadStartRow
  rw [pngInitReadTransformations_setup env h r none]
  dsimp only
  rw [asksRows, first]
  by_cases adam7 : h.interlaced = 1
  · simp only [adam7, decide_true, if_true, ne_eq, one_ne_zero, not_false_eq_true, firstWidth]
    rfl
  · have zero : h.interlaced = 0 := by omega
    simp only [zero, ne_eq, not_true_eq_false, if_false, firstWidth, zero_ne_one]
    rfl

def usedGammaSetup (env : Env) (h : Header) : GammaSetup :=
  gammaSetup env h (usedGamma env h) kDefaultGamma

def configuredHeader (env : Env) (h : Header) : Header :=
  { h with palette := (usedGammaSetup env h).palette }

def configuredRows (env : Env) (h : Header) (format : ColorFormat) (output : List UInt8) : Rows :=
  let r := askedRows env h (initRows format output)
  resizeOutput { r with
    gammaTable := (usedGammaSetup env h).table
    transformations := { r.transformations with gamma := (usedGammaSetup env h).gamma }
    numRows := h.height
    iwidth := firstWidth h
    maximumPixelDepth := maxPixelDepth h r.transformations % 256
    transformedPixelDepth := 0
    prevRow := List.replicate (h.rowbytes + 1) 0
    infoRowbytes := transformedRowbytes h r.transformations
    rowInit := true }

structure Header.Complete (h : Header) : Prop extends h.Consistent where
  ihdr : h.mode.haveIHDR = true
  plte : h.colorType = colorTypePalette → h.mode.havePLTE = true

theorem decodeInfoCallback_first (complete : Header.Complete h)
    (small : h.width * h.height ≤ 2 ^ 29 - 1) :
    decodeInfoCallback env h (initRows format output) =
      .ok (configuredHeader env h, configuredRows env h format output) := by
  have valid := complete.valid complete.ihdr
  have present : ¬ ((askedRows env h (initRows format output)).transformations.expand &&
      h.colorType = colorTypePalette && (usedGammaSetup env h).palette.isNone) = true := by
    intro missing
    simp only [Bool.and_eq_true, decide_eq_true_eq, Option.isNone_iff_eq_none] at missing
    have known := complete.palette (complete.plte missing.1.2) missing.1.2
    rw [← gammaSetup_palette env h (usedGamma env h) kDefaultGamma] at known
    rw [usedGammaSetup] at missing
    rw [missing.2] at known
    cases known
  rw [decodeInfoCallback_asked rfl small]
  unfold pngReadUpdateInfo
  rw [if_neg (by exact Bool.false_ne_true),
    pngReadStartRow_setup env (by exact rfl) valid.interlace (by exact rfl) (by exact rfl)]
  dsimp only
  unfold pngReadTransformInfo
  rw [if_neg (by exact present), ok_bind]
  rfl

theorem resize_length (output : List UInt8) (size : Nat) : (resize output size).length = size := by
  simp only [resize, List.length_append, List.length_take, List.length_replicate]
  omega

theorem configured_first (complete : Header.Complete h)
    (small : h.width * h.height ≤ 2 ^ 29 - 1) :
    Configured (configuredHeader env h) (configuredRows env h format output) := by
  have valid := complete.valid complete.ihdr
  have asked : ReducesSamples h (askedRows env h (initRows format output)) :=
    askedRows_samples format output valid
  have picks : PicksFormat h (askedRows env h (initRows format output)) :=
    askedRows_format format output
  have sizes := transformed_sizes valid complete.transparency complete.noAlpha asked picks
  have size : ((h.width : Int) * 4 * h.height).toNat = 4 * h.width * h.height := by
    rw [Int.mul_comm (h.width : Int)]
    exact Int.toNat_natCast (4 * h.width * h.height)
  exact {
    valid := valid.update ..
    transparency := complete.transparency
    noAlpha := complete.noAlpha
    small := small
    rowInit := rfl
    samples := ⟨⟨asked.expand, asked.expandTRNS⟩, asked.grayToRGB, asked.chop16⟩
    format := ⟨picks.bgr, picks.filler, picks.userTransform, picks.fullAlpha⟩
    interlace := rfl
    infoRowbytes := sizes.1
    maximumPixelDepth := sizes.2
    numRows := rfl
    appWidth := rfl
    appHeight := rfl
    appChannels := rfl
    output := (congrArg (fun n => (resize output n).length) size).trans (resize_length ..)
    depth := .inl rfl }

end Start

/-! ## A second call -/

structure Untouched (r r' : Rows) : Prop where
  rowInit : r'.rowInit = r.rowInit
  output : r'.app.output = r.app.output
  done : r'.app.done = r.app.done
  trace : r'.trace = r.trace

theorem Untouched.refl (r : Rows) : Untouched r r := ⟨rfl, rfl, rfl, rfl⟩

def LibpngError (r : Rows) (e : Jump × Rows) : Prop :=
  (∃ message, e.1 = .pngError none message) ∧ Untouched r e.2

theorem onlyIf_again {r₀ : Rows} (same : Untouched r₀ r) (c : Prop) [Decidable c] {set : Rows → Fallible Rows Rows}
    (fails : Ends (set r) (fun _ => False) (LibpngError r₀)) :
    Ends (onlyIf c set r) (Untouched r₀) (LibpngError r₀) := by
  unfold onlyIf
  split
  · exact fails.mono (fun _ no => no.elim) fun _ error => error
  · exact same

section Again
variable {r₀ : Rows} (same : Untouched r₀ r) (again : r₀.rowInit = true)
include same again

theorem pngRtranOk_again {α : Type} (next : Rows → Fallible Rows α) :
    Ends (pngRtranOk r >>= next) (fun _ => False) (LibpngError r₀) := by
  have init : r.rowInit = true := same.rowInit.trans again
  unfold pngRtranOk
  rw [if_pos init]
  exact ⟨⟨_, rfl⟩, same⟩

theorem setGamma_again : Ends (setGamma env h r) (fun _ => False) (LibpngError r₀) := by
  unfold setGamma
  cases env.colorspaceGamma h.colorspace <;> exact pngRtranOk_again same again _

end Again

theorem pickRowFormat_untouched {r₀ : Rows} (same : Untouched r₀ r) (inputHasAlpha : Bool) :
    Untouched r₀ (pickRowFormat inputHasAlpha r) := by
  rw [pickRowFormat_ask]
  exact ⟨same.rowInit, same.output, same.done, same.trace⟩

theorem decodeInfoCallback_again (again : r.rowInit = true) :
    Ends (decodeInfoCallback env h r) (fun _ => False)
      fun e => e.1 ≠ .outOfFuel ∧ Untouched r e.2 := by
  unfold decodeInfoCallback
  split
  · exact ⟨nofun, .refl r⟩
  have start : Untouched r { r with app := { r.app with width := h.width, height := h.height } } :=
    ⟨rfl, rfl, rfl, rfl⟩
  have error : ∀ e, LibpngError r e → e.1 ≠ .outOfFuel ∧ Untouched r e.2 := by
    rintro e ⟨⟨message, eq⟩, same⟩
    exact ⟨by rw [eq]; nofun, same⟩
  refine Ends.mono ?_ (fun _ no => no) error
  dsimp only
  refine (onlyIf_again start _ (pngRtranOk_again start again _)).bind fun r same => ?_
  refine (onlyIf_again same _ (pngRtranOk_again same again _)).bind fun r same => ?_
  refine (onlyIf_again same _ (pngRtranOk_again same again _)).bind fun r same => ?_
  have same := pickRowFormat_untouched same
    (decide (h.colorType &&& colorMaskAlpha ≠ 0) || h.infoValidTRNS)
  refine (onlyIf_again same _ (pngRtranOk_again same again _)).bind fun r same => ?_
  exact (setGamma_again same again).bind fun _ no => no.elim

end PngDecode.Decoder
