import PngDecode.Decoder.Formats
import PngDecode.Decoder.Parsed
import PngDecode.Decoder.Safety
import PngDecode.Decoder.Truncation

/-! # The output in each format

The format decides nothing but the bytes of a pixel: a file is decoded for one format exactly if it
is for another, and the output is the RGBA output with every pixel in the format. -/

namespace PngDecode.Decoder
open PngDecode.Lib PngDecode.Libpng

variable {env : Env} {a b : ColorFormat} {h : Header} {r r' : Rows} {t x : List UInt8}
  {s s' u : Png env}

/-! ## The format of the output -/

theorem outputFormat_invariant (env : Env) (format : ColorFormat) (output : List UInt8) :
    RowInvariant env format output fun _ r => r.app.outputFormat = format where
  kept _ := ⟨fun _ _ _ same => same, fun _ _ _ _ _ same drawn => by
    rw [drawn.settings.app]; exact same⟩
  mode _ _ _ _ same := same
  first _ _ _ := rfl
  ended _ _ same := same

abbrev SoundFor (format : ColorFormat) (s : Png env) : Prop :=
  Sound env format [] (fun _ r => r.app.outputFormat = format) s

/-! ## Readers at the same place -/

structure AlikePng (s s' : Png env) : Prop where
  same : ∃ r, s' = { s with rows := r }
  image : s.hdr.mode.haveIDAT = true → AlikeImage s.hdr (s.zstream, s.rows) (s'.zstream, s'.rows)

theorem Alike.setMode (alike : Alike h r r') (mode : Mode) (cache : Nat) :
    Alike { h with mode, userChunkCacheMax := cache } r r' :=
  ⟨alike.rowNumber, alike.pass, alike.iwidth, alike.prevRow, alike.samples, alike.pixels⟩

theorem AlikeImage.setMode {i i' : ImageData env} (alike : AlikeImage h i i') (mode : Mode)
    (cache : Nat) : AlikeImage { h with mode, userChunkCacheMax := cache } i i' :=
  ⟨alike.zstream, alike.rows.setMode mode cache, alike.rowBuf⟩

theorem AlikeImage.ended {i i' : ImageData env} (alike : AlikeImage h i i') :
    AlikeImage h (i.1, decodeEndCallback i.2) (i'.1, decodeEndCallback i'.2) where
  zstream := alike.zstream
  rows := ⟨alike.rows.rowNumber, alike.rows.pass, alike.rows.iwidth, alike.rows.prevRow,
    alike.rows.samples.of_eq rfl rfl rfl rfl, alike.rows.pixels⟩
  rowBuf := alike.rowBuf

/-! ## The first `IDAT` -/

theorem configuredRows_alike (complete : Header.Complete h)
    (small : h.width * h.height ≤ 2 ^ 29 - 1) :
    Alike (configuredHeader env h) (configuredRows env h a []) (configuredRows env h b []) := by
  have blank (format : ColorFormat) : Shows (configuredHeader env h) (fun _ _ => [0, 0, 0, 0])
      (configuredRows env h format []) := by
    intro y hy x hx
    have hy : y + 1 ≤ h.height := hy
    have hx : x < h.width := hx
    have inside : h.width * (y + 1) ≤ h.width * h.height := Nat.mul_le_mul_left h.width hy
    rw [Nat.mul_succ] at inside
    have full : (configuredRows env h format []).app.output =
        List.replicate (configuredRows env h format []).app.output.length 0 := by
      simp [configuredRows, resizeOutput, askedRows, askInterlace, askUserTransform, askGrayToRGB,
        askFormat, askStrip16, askExpand, initRows, initDecoderState, resize]
    have length : (configuredRows env h format []).app.output.length = 4 * h.width * h.height :=
      (configured_first format [] complete small).output
    rw [Nat.mul_assoc] at length
    have four : 4 ≤ 4 * (h.width * h.height) - 4 * (h.width * y + x) := by omega
    show pixelAt 4 _ (h.width * y + x) = _
    rw [full, length, pixelAt, List.drop_replicate, List.take_replicate, Nat.min_eq_left four]
    cases format with
    | rgba | bgra => rfl
    | skBitmap =>
      show _ = formatPixel .skBitmap [0, 0, 0, 0]
      decide
  refine ⟨rfl, rfl, rfl, rfl, ?_, fun _ _ => [0, 0, 0, 0], fun _ _ => rfl, blank a, blank b⟩
  cases a <;> cases b <;> exact ⟨rfl, rfl, rfl, rfl, rfl, rfl⟩

theorem pngPushStartIDAT_alike (sound : SoundFor a s) (sound' : SoundFor b s')
    (alike : AlikePng s s') (result : pngPushStartIDAT s = .ok u) :
    ∃ u', pngPushStartIDAT s' = .ok u' ∧ AlikePng u u' := by
  obtain ⟨⟨r, rfl⟩, image⟩ := alike
  by_cases first : s.hdr.mode.haveIDAT = true
  · -- only an empty chunk is let through
    obtain ⟨-, ready, -⟩ := sound.image first
    unfold pngPushStartIDAT at result ⊢
    dsimp only at result ⊢
    split at result
    · cases result
    next ihdr =>
    rw [if_neg ihdr]
    split at result
    · cases result
    next plte =>
    rw [if_neg plte]
    split at result
    · next early =>
      cases result
      rw [if_pos early]
      exact ⟨_, rfl, ⟨r, rfl⟩, fun _ => (image first).setMode _ s.hdr.userChunkCacheMax⟩
    · obtain ⟨t, info, -⟩ := bind_ok result
      unfold pngPushHaveInfo at info
      dsimp only at info
      split at info
      · cases info
      next again => exact ((decodeInfoCallback_again ready.ready.rowInit).result again).elim
  · have none : s.hdr.mode.haveIDAT = false := by simpa using first
    obtain ⟨starts, rfl⟩ := pngPushStartIDAT_first sound none result
    refine ⟨_, pngPushStartIDAT_starts sound' none starts, ⟨_, rfl⟩, fun _ => ⟨rfl, ?_, fun _ => rfl⟩⟩
    exact (configuredRows_alike starts.complete starts.small).rowBuf [] []

/-! ## Tokens -/

theorem ChunkBody.alike (sound : SoundFor a s) (alike : AlikePng s s') (body : ChunkBody s t u) :
    ∃ u', ChunkBody s' t u' ∧ AlikePng u u' := by
  obtain ⟨⟨r, rfl⟩, image⟩ := alike
  obtain ⟨long, name, ihdr, hdr, handled, rfl⟩ := body
  have image' (idat : hdr.mode.haveIDAT = true) :
      AlikeImage hdr (s.zstream, s.rows) (s.zstream, r) := by
    rw [(pngHandleChunk_ends s.hdr (bodyChunk s t)).result handled] at idat
    obtain ⟨afterIDAT, haveIEND, cache, rfl⟩ :=
      pngHandleChunk_sameImage (sound.image idat).1 idat handled
    exact (image idat).setMode _ _
  refine ⟨_, ⟨long, name, ihdr, hdr, handled, rfl⟩, ?_⟩
  unfold afterChunk
  dsimp only
  split
  · exact ⟨⟨_, rfl⟩, fun idat => (image' idat).ended.setMode _ hdr.userChunkCacheMax⟩
  · exact ⟨⟨_, rfl⟩, fun idat => (image' idat).setMode _ hdr.userChunkCacheMax⟩

theorem ImageBody.alike (body : ImageBody s t u) (alike : AlikePng s s')
    (idat : s.hdr.mode.haveIDAT = true) (ready : ImageReady s.hdr (s.zstream, s.rows))
    (ready' : ImageReady s'.hdr (s'.zstream, s'.rows)) :
    ∃ u', ImageBody s' t u' ∧ AlikePng u u' := by
  obtain ⟨⟨r, rfl⟩, image⟩ := alike
  obtain ⟨long, i, decoded, crc, rfl⟩ := body
  have decoded' : ∃ i', decodeData { s with rows := r } (t.take s.chunk.idatSize) = .ok i' ∧
      AlikeImage s.hdr i i' := by
    unfold decodeData at decoded ⊢
    split at decoded
    · next none =>
      cases decoded
      rw [if_pos none]
      exact ⟨_, rfl, image idat⟩
    · next some =>
      rw [if_neg some]
      exact pngProcessIDATData_alike ready ready' (image idat) decoded
  obtain ⟨i', decoded', same⟩ := decoded'
  refine ⟨_, ⟨long, i', decoded', crc, rfl⟩, ⟨i'.2, ?_⟩, fun _ => ?_⟩
  · unfold afterIDAT afterBytes
    dsimp only
    rw [same.zstream]
  · exact same.setMode _ s.hdr.userChunkCacheMax

theorem AlikePng.headed (alike : AlikePng s s') (t : List UInt8) :
    AlikePng (headed s t) (headed s' t) := by
  obtain ⟨⟨r, rfl⟩, image⟩ := alike
  exact ⟨⟨r, rfl⟩, fun idat => (image idat).setMode _ s.hdr.userChunkCacheMax⟩

theorem AlikePng.headedData (alike : AlikePng s s') (t : List UInt8) :
    AlikePng (headedData s t) (headedData s' t) := by
  obtain ⟨⟨r, rfl⟩, image⟩ := alike
  exact ⟨⟨r, rfl⟩, fun idat => (image idat).setMode _ s.hdr.userChunkCacheMax⟩

theorem Sound.headed {format : ColorFormat} {output : List UInt8} {I : Header → Rows → Prop}
    (kept : RowInvariant env format output I) (sound : Sound env format output I s)
    (mode : s.chunk.processMode = .readChunk) (t : List UInt8) :
    Sound env format output I (headed s t) :=
  (sound.withHeader t).setHaveChunkHeader kept true (by rw [Decoder.withHeader, mode]; nofun)

theorem Token.alike (sound : SoundFor a s) (sound' : SoundFor b s') (alike : AlikePng s s')
    (token : Token s t u) : ∃ u', Token s' t u' ∧ AlikePng u u' := by
  have kept (format : ColorFormat) := outputFormat_invariant env format []
  obtain ⟨⟨r, rfl⟩, image⟩ := id alike
  cases token with
  | signature mode eight same => exact ⟨_, .signature mode eight same, ⟨r, rfl⟩, image⟩
  | start mode fresh eight good named idat started =>
    obtain ⟨u', started', alike'⟩ := pngPushStartIDAT_alike (sound.headed (kept a) mode _)
      (sound'.headed (kept b) mode _) (alike.headed _) started
    exact ⟨u', .start mode fresh eight good named idat started', alike'⟩
  | chunk mode fresh eight good named body =>
    obtain ⟨u', body', alike'⟩ := body.alike (sound.headed (kept a) mode _) (alike.headed _)
    exact ⟨u', .chunk mode fresh eight good named body', alike'⟩
  | body mode header body =>
    obtain ⟨u', body', alike'⟩ := body.alike sound alike
    exact ⟨u', .body mode header body', alike'⟩
  | other mode fresh eight good name ended =>
    exact ⟨_, .other mode fresh eight good name ended, ⟨r, rfl⟩, fun idat =>
      (image idat).setMode _ s.hdr.userChunkCacheMax⟩
  | @data t _ _ mode fresh eight good name body =>
    have idat := sound.reading mode
    have ready := (sound.image idat).2.1.setMode { s.hdr.mode with haveChunkHeader := true }
      s.hdr.userChunkCacheMax
    have ready' := (sound'.image idat).2.1.setMode { s.hdr.mode with haveChunkHeader := true }
      s.hdr.userChunkCacheMax
    obtain ⟨u', body', alike'⟩ := body.alike (alike.headedData t) idat ready ready'
    exact ⟨u', .data mode fresh eight good name body', alike'⟩
  | moreData mode header body =>
    have idat := sound.reading mode
    obtain ⟨u', body', alike'⟩ := body.alike alike idat (sound.image idat).2.1 (sound'.image idat).2.1
    exact ⟨u', .moreData mode header body', alike'⟩

theorem AlikePng.pending (alike : AlikePng s s') (pending : Pending s) : Pending s' := by
  obtain ⟨⟨r, rfl⟩, -⟩ := alike
  exact pending

theorem Tokens.alike (tokens : Tokens s t u) (sound : SoundFor a s) (sound' : SoundFor b s')
    (pending : Pending s) (alike : AlikePng s s') :
    ∃ u', Tokens s' t u' ∧ AlikePng u u' := by
  have kept (format : ColorFormat) := outputFormat_invariant env format []
  induction tokens generalizing s' with
  | nil => exact ⟨s', .nil s', alike⟩
  | cons more token _ ih =>
    obtain ⟨v, token', next⟩ := token.alike sound sound' alike
    obtain ⟨soundNext, pendingNext⟩ := token.sound (kept a) sound pending
    obtain ⟨soundNext', -⟩ := token'.sound (kept b) sound' (alike.pending pending)
    obtain ⟨u', tokens', last⟩ := ih soundNext soundNext' pendingNext next
    obtain ⟨⟨r, rfl⟩, -⟩ := alike
    exact ⟨u', .cons more token' tokens', last⟩

/-! ## The output -/

theorem processInput_alike (result : processInput env x a [] = .ok s)
    (done : s.rows.app.done = true) : ∃ s', processInput env x b [] = .ok s' ∧
      s'.rows.app.done = true ∧ ∃ h, Ready h s.rows ∧ Ready h s'.rows ∧ Alike h s.rows s'.rows ∧
        s.rows.app.outputFormat = a ∧ s'.rows.app.outputFormat = b := by
  have kept (format : ColorFormat) := outputFormat_invariant env format []
  have start (format : ColorFormat) := between_start env format []
    (fun _ r => r.app.outputFormat = format) []
  have sound (format : ColorFormat) : SoundFor format (pngCreateReadStruct env format []) :=
    (start format).sound.setInput _
  obtain ⟨reaches, -⟩ := iterate_reaches result
  obtain ⟨t, c, u, rfl, tokens, mode, -, rows⟩ :=
    run_tokens (kept a) (sound a) (start a).pending ProcessMode.noConfusion reaches done
  obtain ⟨u', tokens', alike⟩ := tokens.alike (sound a) (sound b) (start a).pending
    ⟨⟨initRows b [], rfl⟩, nofun⟩
  obtain ⟨soundEnd, -⟩ := tokens.sound (kept a) (sound a) (start a).pending
  obtain ⟨soundEnd', -⟩ := tokens'.sound (kept b) (sound b) (start b).pending
  obtain ⟨⟨r, rfl⟩, image⟩ := alike
  have done' : r.app.done = true := by
    rw [soundEnd'.done]
    exact decide_eq_true mode
  obtain ⟨s', result', rows'⟩ := processInput_tokens tokens' mode c
  rw [rows] at done ⊢
  have idat := soundEnd.done_image done
  obtain ⟨-, ready, format⟩ := soundEnd.image idat
  obtain ⟨-, ready', format'⟩ := soundEnd'.image idat
  refine ⟨s', result', ?_, u.hdr, ready.ready, ?_, ?_, format, ?_⟩
  all_goals rw [rows']
  · exact done'
  · exact ready'.ready
  · exact (image idat).rows
  · exact format'

theorem decode_alike {w h : Int} (succeeded : (decode env x a [] w h).result = true) :
    ∃ (hdr : Header) (r r' : Rows), Ready hdr r ∧ Ready hdr r' ∧ Alike hdr r r' ∧
      r.app.outputFormat = a ∧ r'.app.outputFormat = b ∧
      decode env x a [] w h = ⟨true, r.app.output, hdr.width, hdr.height⟩ ∧
      decode env x b [] w h = ⟨true, r'.app.output, hdr.width, hdr.height⟩ := by
  obtain ⟨built, s, result, done, eq⟩ := decode_true succeeded
  obtain ⟨s', result', done', hdr, ready, ready', alike, format, format'⟩ :=
    processInput_alike (b := b) result done
  refine ⟨hdr, s.rows, s'.rows, ready, ready', alike, format, format', ?_, ?_⟩
  · rw [eq, ready.appWidth, ready.appHeight]
  · rw [decode_complete built result' done', ready'.appWidth, ready'.appHeight]

theorem decode_result_alike {w h : Int} :
    (decode env x a [] w h).result = (decode env x b [] w h).result := by
  rw [Bool.eq_iff_iff]
  constructor <;> intro succeeded
  · obtain ⟨hdr, r, r', -, -, -, -, -, -, eq⟩ := decode_alike (b := b) succeeded
    rw [eq]
  · obtain ⟨hdr, r, r', -, -, -, -, -, -, eq⟩ := decode_alike (b := a) succeeded
    rw [eq]

theorem decode_pixels (format : ColorFormat) {w h : Int}
    (succeeded : (decode env x .rgba [] w h).result = true) :
    ∃ (width height : Nat) (rgba output : List UInt8), 0 < width ∧ 0 < height ∧
      decode env x .rgba [] w h = ⟨true, rgba, width, height⟩ ∧
      decode env x format [] w h = ⟨true, output, width, height⟩ ∧
      rgba.length = 4 * width * height ∧ output.length = 4 * width * height ∧
      ∀ y < height, ∀ x < width, (pixelAt 4 rgba (width * y + x)).length = 4 ∧
        pixelAt 4 output (width * y + x) = formatPixel format (pixelAt 4 rgba (width * y + x)) := by
  obtain ⟨hdr, r, r', ready, ready', alike, isRgba, isFormat, eq, eq'⟩ :=
    decode_alike (b := format) succeeded
  obtain ⟨m, wide, shows, shows'⟩ := alike.pixels
  refine ⟨hdr.width, hdr.height, r.app.output, r'.app.output, ready.valid.widthPos,
    ready.valid.heightPos, eq, eq', ready.output, ready'.output, fun y hy x hx => ?_⟩
  rw [shows y hy x hx, shows' y hy x hx, isRgba, isFormat]
  exact ⟨wide y x, rfl⟩

/-- The files that are decoded are the same for every format, and the output is the RGBA output with
every pixel in the format. -/
theorem decode_formats (env : Env) (x : List UInt8) (format : ColorFormat) (w h : Int) :
    (decode env x format [] w h).result = (decode env x .rgba [] w h).result ∧
      (decode env x format [] w h).w = (decode env x .rgba [] w h).w ∧
      (decode env x format [] w h).h = (decode env x .rgba [] w h).h ∧
      ((decode env x .rgba [] w h).result = true → (decode env x format [] w h).output =
        mapPixels 4 (formatPixel format)
          ((decode env x .rgba [] w h).w * (decode env x .rgba [] w h).h).toNat
          (decode env x .rgba [] w h).output) := by
  have same : (decode env x format [] w h).result = (decode env x .rgba [] w h).result :=
    decode_result_alike
  cases result : (decode env x .rgba [] w h).result with
  | true =>
    obtain ⟨width, height, rgba, output, -, -, eq, eq', full, full', pixels⟩ :=
      decode_pixels format result
    have wide : ∀ px : List UInt8, px.length = 4 → (formatPixel format px).length = 4 :=
      fun _ => formatPixel_length format
    rw [eq, eq']
    refine ⟨rfl, rfl, rfl, fun _ => ?_⟩
    dsimp only
    rw [← Int.natCast_mul, Int.toNat_natCast]
    rw [Nat.mul_assoc] at full
    have mapped := mapPixels_length 4 4 (formatPixel format) (width * height) rgba wide full
    rw [← Nat.mul_assoc] at mapped
    refine image_ext (by decide) full' mapped fun y hy x hx => ?_
    have inside : width * y + x < width * height := by
      have := Nat.mul_le_mul_left width hy
      rw [Nat.mul_succ] at this
      omega
    rw [(pixels y hy x hx).2, pixelAt_mapPixels 4 4 _ wide full inside]
  | false =>
    rw [result] at same
    have left := decode_untouched result
    have left' := decode_untouched same
    exact ⟨same, left'.1.trans left.1.symm, left'.2.trans left.2.symm, nofun⟩

theorem decode_formats_pixelPng : (decode storedEnv pixelPng .skBitmap [] 0 0).output =
    mapPixels 4 (formatPixel .skBitmap)
      ((decode storedEnv pixelPng .rgba [] 0 0).w * (decode storedEnv pixelPng .rgba [] 0 0).h).toNat
      (decode storedEnv pixelPng .rgba [] 0 0).output :=
  (decode_formats storedEnv pixelPng .skBitmap 0 0).2.2.2 (by decide +kernel)

/-- Of a colour byte and the alpha byte of a pixel: the integer nearest to their product by 255. -/
def IsPremultiplied (colour alpha premultiplied : UInt8) : Prop :=
  (premultiplied.toNat : ℤ) = round ((colour.toNat * alpha.toNat : ℚ) / 255)

/-- Three decodes of one file, into the three formats: all of them succeed or fail, and a pixel
`r g b a` of the RGBA output is `b g r a` in the BGRA output and premultiplied in the other. -/
theorem decode_threeFormats (env : Env) (x : List UInt8) (w h : Int) :
    (decode env x .bgra [] w h).result = (decode env x .rgba [] w h).result ∧
    (decode env x .skBitmap [] w h).result = (decode env x .rgba [] w h).result ∧
    ((decode env x .rgba [] w h).result = true →
      ∃ (width height : Nat) (rgba bgra skia : List UInt8),
        decode env x .rgba [] w h = ⟨true, rgba, width, height⟩ ∧
        decode env x .bgra [] w h = ⟨true, bgra, width, height⟩ ∧
        decode env x .skBitmap [] w h = ⟨true, skia, width, height⟩ ∧
        rgba.length = 4 * width * height ∧ bgra.length = 4 * width * height ∧
        skia.length = 4 * width * height ∧
        ∀ y < height, ∀ x < width, ∃ r g b a r' g' b',
          pixelAt 4 rgba (width * y + x) = [r, g, b, a] ∧
          pixelAt 4 bgra (width * y + x) = [b, g, r, a] ∧
          pixelAt 4 skia (width * y + x) = [b', g', r', a] ∧
          IsPremultiplied r a r' ∧ IsPremultiplied g a g' ∧ IsPremultiplied b a b') := by
  refine ⟨decode_result_alike, decode_result_alike, fun succeeded => ?_⟩
  obtain ⟨width, height, rgba, bgra, -, -, eq, eqB, full, fullB, pixelsB⟩ :=
    decode_pixels .bgra succeeded
  obtain ⟨_, _, _, skia, -, -, eq', eqS, -, fullS, pixelsS⟩ := decode_pixels .skBitmap succeeded
  obtain ⟨-, rfl, width', height'⟩ := Decoded.mk.inj (eq'.symm.trans eq)
  rw [Int.natCast_inj] at width' height'
  subst width' height'
  refine ⟨_, _, _, bgra, skia, eq, eqB, eqS, full, fullB, fullS, fun y hy x hx => ?_⟩
  obtain ⟨wide, pixelB⟩ := pixelsB y hy x hx
  obtain ⟨-, pixelS⟩ := pixelsS y hy x hx
  obtain ⟨r, g, b, a, pixel⟩ := List.length_eq_four.mp wide
  rw [pixel] at pixelB pixelS
  exact ⟨r, g, b, a, premul r a, premul g a, premul b a, pixel, pixelB, pixelS, premul_round r a,
    premul_round g a, premul_round b a⟩

theorem decode_threeFormats_pixelPng :
    decode storedEnv pixelPng .rgba [] 0 0 = ⟨true, [10, 20, 30, 40], 1, 1⟩ ∧
    decode storedEnv pixelPng .bgra [] 0 0 = ⟨true, [30, 20, 10, 40], 1, 1⟩ ∧
    decode storedEnv pixelPng .skBitmap [] 0 0 = ⟨true, [5, 3, 2, 40], 1, 1⟩ ∧
    ∃ r g b a r' g' b', [10, 20, 30, 40] = [r, g, b, a] ∧ [30, 20, 10, 40] = [b, g, r, a] ∧
      [5, 3, 2, 40] = [b', g', r', a] ∧
      IsPremultiplied r a r' ∧ IsPremultiplied g a g' ∧ IsPremultiplied b a b' := by
  have rgba : decode storedEnv pixelPng .rgba [] 0 0 = ⟨true, [10, 20, 30, 40], 1, 1⟩ := by
    decide +kernel
  have bgra : decode storedEnv pixelPng .bgra [] 0 0 = ⟨true, [30, 20, 10, 40], 1, 1⟩ := by
    decide +kernel
  have skia : decode storedEnv pixelPng .skBitmap [] 0 0 = ⟨true, [5, 3, 2, 40], 1, 1⟩ := by
    decide +kernel
  obtain ⟨width, height, _, _, _, eq, eqB, eqS, -, -, -, pixels⟩ :=
    (decode_threeFormats storedEnv pixelPng 0 0).2.2 (congrArg (·.result) rgba)
  obtain ⟨-, rfl, wide, high⟩ := Decoded.mk.inj (eq.symm.trans rgba)
  obtain ⟨-, rfl, -⟩ := Decoded.mk.inj (eqB.symm.trans bgra)
  obtain ⟨-, rfl, -⟩ := Decoded.mk.inj (eqS.symm.trans skia)
  have pixel := pixels 0 (by omega) 0 (by omega)
  rw [Nat.mul_zero] at pixel
  exact ⟨rgba, bgra, skia, pixel⟩

end PngDecode.Decoder
