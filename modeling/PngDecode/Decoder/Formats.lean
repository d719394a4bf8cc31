import PngDecode.Decoder.Interlace
import PngDecode.Decoder.ImageData

/-! # Rows in two formats

The reader takes the same steps whatever the format of the output is: two states that show the
same pixels in their formats go on to two such states. -/

namespace PngDecode.Decoder
open PngDecode.Lib PngDecode.Libpng

variable {env : Env} {h : Header} {r r' r₁ r₁' r₂ r₂' rt rt' : Rows} {g : List UInt8 → List UInt8}
  {width : Option Nat} {w : Nat} {s s' t : ImageData env}

/-! ## The same pixels -/

/-- The output is the image of these RGBA pixels in its format. -/
def Shows (h : Header) (m : PixelMatrix) (r : Rows) : Prop :=
  ∀ y < h.height, ∀ x < h.width,
    pixelAt 4 r.app.output (h.width * y + x) = formatPixel r.app.outputFormat (m y x)

structure Alike (h : Header) (r r' : Rows) : Prop where
  rowNumber : r'.rowNumber = r.rowNumber
  pass : r'.pass = r.pass
  iwidth : r'.iwidth = r.iwidth
  prevRow : r'.prevRow = r.prevRow
  samples : SameSamples r r'
  pixels : ∃ m : PixelMatrix, (∀ y x, (m y x).length = 4) ∧ Shows h m r ∧ Shows h m r'

structure ShowsRow (w : Nat) (row : Nat → List UInt8) (r : Rows) : Prop where
  bytes : (r.rowBuf.drop 1).length = 4 * w
  pixels : ∀ x < w, pixelAt 4 (r.rowBuf.drop 1) x = formatPixel r.app.outputFormat (row x)

def AlikeRow (w : Nat) (r r' : Rows) : Prop :=
  ∃ row : Nat → List UInt8, (∀ x, (row x).length = 4) ∧ ShowsRow w row r ∧ ShowsRow w row r'

/-! ## Handing rows over -/

theorem copied_width (configured : Configured h r₁) (handed : Handed h width r r₁)
    (bytes : (r.rowBuf.drop 1).length = 4 * w) (inside : r.rowNumber < h.height) {x : Nat}
    (hx : x < h.width) (shown : width.isSome = true) (copied : copiedPixel h r.pass x = true) :
    x < w := by
  by_contra beyond
  have full : r₁.app.output.length = 4 * (h.width * h.height) := by
    rw [configured.output, Nat.mul_assoc]
  have index : h.width * r.rowNumber + x < h.width * h.height := by
    have := Nat.mul_le_mul_left h.width inside
    rw [Nat.mul_succ] at this
    omega
  have four := pixelAt_length full index
  have copy := handed.output r.rowNumber inside x hx
  rw [if_pos ⟨shown, rfl, copied⟩] at copy
  have none : pixelAt 4 (r.rowBuf.drop 1) x = [] := by
    rw [pixelAt, List.drop_of_length_le (by omega)]
    rfl
  rw [copy, none] at four
  cases four

theorem Handed.shows {m : PixelMatrix} {row : Nat → List UInt8} (handed : Handed h width r r₁)
    (configured : Configured h r₁) (shows : Shows h m r) (showsRow : ShowsRow w row r) :
    Shows h (fun y x => if width.isSome ∧ y = r.rowNumber ∧ copiedPixel h r.pass x = true then row x
      else m y x) r₁ ∧ ShowsRow w row r₁ := by
  have format : r₁.app.outputFormat = r.app.outputFormat := by rw [handed.app]
  refine ⟨fun y hy x hx => ?_, ?_⟩
  · rw [handed.output y hy x hx, format]
    dsimp only
    split
    · next here =>
      obtain ⟨shown, rfl, copied⟩ := here
      exact showsRow.pixels x (copied_width configured handed showsRow.bytes hy hx shown copied)
    · exact shows y hy x hx
  · constructor
    · rw [handed.rowBuf]; exact showsRow.bytes
    · rw [handed.rowBuf, format]; exact showsRow.pixels

theorem Handed.alike (handed : Handed h width r r₁) (handed' : Handed h width r' r₁')
    (configured : Configured h r₁) (configured' : Configured h r₁') (alike : Alike h r r')
    (row : AlikeRow w r r') : Alike h r₁ r₁' ∧ AlikeRow w r₁ r₁' := by
  obtain ⟨m, wide, shows, shows'⟩ := alike.pixels
  obtain ⟨q, wideRow, showsRow, showsRow'⟩ := row
  obtain ⟨now, nowRow⟩ := handed.shows configured shows showsRow
  obtain ⟨now', nowRow'⟩ := handed'.shows configured' shows' showsRow'
  have position := handed'.position
  rw [alike.rowNumber, alike.pass, ← handed.position, Prod.mk.injEq] at position
  rw [alike.rowNumber, alike.pass] at now'
  refine ⟨⟨position.1, position.2, ?_, ?_, alike.samples.of_eq handed.transformations
    handed'.transformations handed.gammaTable handed'.gammaTable, _, fun y x => ?_, now, now'⟩,
    q, wideRow, nowRow, nowRow'⟩
  · rw [handed.rowWidth, handed'.rowWidth, alike.rowNumber, alike.pass, alike.iwidth]
  · rw [handed.prevRow, handed'.prevRow, alike.rowNumber, alike.prevRow]
  · split
    · exact wideRow x
    · exact wide y x

theorem Waits.configured (waits : Waits h w r r₂) (configured : Configured h r₂) :
    Configured h r := by
  cases waits with
  | refl => exact configured
  | step going _ _ _ _ => exact going.toConfigured

theorem Alike.due (alike : Alike h r r') : Due r' ↔ Due r := by
  rw [Due, Due, alike.rowNumber, alike.pass]

theorem Waits.alike (waits : Waits h w r r₂) (waits' : Waits h w r' r₂') (alike : Alike h r r')
    (row : AlikeRow w r r') (ready : Ready h r₂) (ready' : Ready h r₂') : Alike h r₂ r₂' := by
  induction waits generalizing r' with
  | refl r =>
    cases waits' with
    | refl => exact alike
    | step going inPass due _ _ =>
      have due' := ((ready.adam7 going.interlaced).2 (alike.pass ▸ inPass)).2
      exact absurd (alike.due.mpr due') due
  | step going inPass due handed waits ih =>
    cases waits' with
    | refl =>
      have due' := ((ready'.adam7 going.interlaced).2 (alike.pass ▸ inPass)).2
      exact absurd (alike.due.mp due') due
    | step _ _ _ handed' waits' =>
      rw [alike.rowNumber, alike.pass] at handed'
      obtain ⟨alike₁, row₁⟩ := handed.alike handed' (waits.configured ready.toConfigured)
        (waits'.configured ready'.toConfigured) alike row
      exact ih waits' alike₁ row₁ ready

/-! ## A scanline -/

theorem Transformed.showsRow (transformed : Transformed h g r w rt) :
    ShowsRow w (fun x => rgbaPixel h (g (rawPixel h (r.rowBuf.drop 1) (x / repeats h r.pass)))) rt := by
  have pixels := transformed.pixels
  have bytes := transformed.bytes
  obtain ⟨rowBuf, isOpaque, rfl⟩ := transformed.same
  exact ⟨bytes, pixels⟩

theorem Transformed.alike (transformed : Transformed h g r w rt)
    (transformed' : Transformed h g r' w rt') (pixels : SamplePixels h r g) (alike : Alike h r r')
    (rowBuf : r'.rowBuf = r.rowBuf) : Alike h rt rt' ∧ AlikeRow w rt rt' := by
  have row' := transformed'.showsRow
  rw [rowBuf, alike.pass] at row'
  refine ⟨?_, _, fun x => rgbaPixel_length (pixels.wide _ _), transformed.showsRow, row'⟩
  obtain ⟨_, _, rfl⟩ := transformed.same
  obtain ⟨_, _, rfl⟩ := transformed'.same
  exact ⟨alike.rowNumber, alike.pass, alike.iwidth, alike.prevRow,
    alike.samples.of_eq rfl rfl rfl rfl, alike.pixels⟩

theorem Drawn.alike (drawn : Drawn h g r r₂) (drawn' : Drawn h g r' r₂')
    (pixels : SamplePixels h r g) (alike : Alike h r r') (rowBuf : r'.rowBuf = r.rowBuf) :
    Alike h r₂ r₂' := by
  obtain ⟨w, rt, r₁, transformed, handed, waits⟩ := drawn.rows
  obtain ⟨w', rt', r₁', transformed', handed', waits'⟩ := drawn'.rows
  have same : w' = w := by rw [transformed.width, transformed'.width, alike.iwidth, alike.pass]
  subst same
  obtain ⟨alikeT, rowT⟩ := transformed.alike transformed' pixels alike rowBuf
  obtain ⟨alike₁, row₁⟩ := handed.alike handed' (waits.configured drawn.ready.toConfigured)
    (waits'.configured drawn'.ready.toConfigured) alikeT rowT
  exact waits.alike waits' alike₁ row₁ drawn.ready drawn'.ready

theorem Alike.finished (alike : Alike h r r') (ready : Ready h r) (ready' : Ready h r') :
    r'.finished = r.finished := by
  rw [Rows.finished, Rows.finished, ready.numRows, ready'.numRows, alike.rowNumber, alike.pass]

theorem unfilterRowBuf_alike (alike : Alike h r r') (rowBuf : r'.rowBuf = r.rowBuf)
    (good : ¬ badFilter r) :
    ∃ row prev, unfilterRowBuf h r = .ok { r with rowBuf := row, prevRow := prev } ∧
      unfilterRowBuf h r' = .ok { r' with rowBuf := row, prevRow := prev } ∧
      (r.rowBuf ≠ [] → row.length = r.rowBuf.length) := by
  obtain ⟨r₁, unfiltered, ⟨row, prev, rfl⟩, wide⟩ := unfilterRowBuf_good (h := h) good
  refine ⟨row, prev, unfiltered, ?_, wide⟩
  unfold unfilterRowBuf at unfiltered ⊢
  dsimp only at unfiltered ⊢
  rw [rowBuf, alike.iwidth, alike.prevRow, if_neg (by exact good)]
  rw [if_neg (by exact good)] at unfiltered
  have same := Except.ok.inj unfiltered
  have first := congrArg Rows.rowBuf same
  have second := congrArg Rows.prevRow same
  dsimp only at first second
  rw [second, first]

theorem pngPushProcessRow_alike (ready : Ready h r) (ready' : Ready h r') (alike : Alike h r r')
    (rowBuf : r'.rowBuf = r.rowBuf) (more : r.finished = false)
    (full : r.rowBuf.length = rowbytes h.pixelDepth r.iwidth + 1)
    (result : pngPushProcessRow h r = .ok r₂) :
    ∃ r₂', pngPushProcessRow h r' = .ok r₂' ∧ Alike h r₂ r₂' := by
  have good : ¬ badFilter r := by
    intro bad
    rw [pngPushProcessRow, unfilterRowBuf_bad bad] at result
    cases result
  obtain ⟨row, prev, unfiltered, unfiltered', wide⟩ := unfilterRowBuf_alike alike rowBuf good
  have long := (wide (by intro empty; rw [empty] at full; cases full)).trans full
  have readyU := ready.buffers row prev
  have readyU' := ready'.buffers row prev
  obtain ⟨g, pixels⟩ := transformSamples_pixels readyU.valid readyU.transparency readyU.noAlpha
    readyU.samples
  have alikeU : Alike h { r with rowBuf := row, prevRow := prev }
      { r' with rowBuf := row, prevRow := prev } :=
    ⟨alike.rowNumber, alike.pass, alike.iwidth, rfl, alike.samples.of_eq rfl rfl rfl rfl,
      alike.pixels⟩
  have more' : r'.finished = false := (alike.finished ready ready').trans more
  obtain ⟨r₃, draw, drawn⟩ := pngPushProcessScanline_drawn readyU more pixels long
  obtain ⟨r₃', draw', drawn'⟩ := pngPushProcessScanline_drawn readyU' more'
    (pixels.congr alikeU.samples) (by rw [alike.iwidth]; exact long)
  rw [pngPushProcessRow, unfiltered, ok_bind, draw] at result
  cases result
  exact ⟨r₃', by rw [pngPushProcessRow, unfiltered', ok_bind, draw'],
    drawn.alike drawn' pixels alikeU rfl⟩

/-! ## The image data -/

structure AlikeImage (h : Header) (s s' : ImageData env) : Prop where
  zstream : s'.1 = s.1
  rows : Alike h s.2 s'.2
  rowBuf : s.1.availOut ≠ 0 → s'.2.rowBuf = s.2.rowBuf

theorem Alike.buffers (alike : Alike h r r') (buf buf' prev : List UInt8) :
    Alike h { r with rowBuf := buf, prevRow := prev } { r' with rowBuf := buf', prevRow := prev } :=
  ⟨alike.rowNumber, alike.pass, alike.iwidth, rfl, alike.samples.of_eq rfl rfl rfl rfl, alike.pixels⟩

theorem Alike.rowBuf (alike : Alike h r r') (buf buf' : List UInt8) :
    Alike h { r with rowBuf := buf } { r' with rowBuf := buf' } :=
  ⟨alike.rowNumber, alike.pass, alike.iwidth, alike.prevRow, alike.samples.of_eq rfl rfl rfl rfl,
    alike.pixels⟩

theorem prepareRow_alike (alike : AlikeImage h s s') : ∃ z r r',
    prepareRow h s = (z, r) ∧ prepareRow h s' = (z, r') ∧ Alike h r r' ∧ r'.rowBuf = r.rowBuf := by
  obtain ⟨zstream, rows, rowBuf⟩ := alike
  unfold prepareRow
  rw [zstream]
  by_cases some : s.1.availOut > 0
  · simp only [if_pos some]
    exact ⟨s.1, s.2, s'.2, rfl, by rw [← zstream], rows, rowBuf (by omega)⟩
  · simp only [if_neg some]
    refine ⟨_, _, _, rfl, ?_, rows.rowBuf [] [], rfl⟩
    rw [rows.iwidth]

section Take
variable (ready : Ready h s.2) (ready' : Ready h s'.2) (zstream : s'.1 = s.1)
  (alike : Alike h s.2 s'.2) (rowBuf : s'.2.rowBuf = s.2.rowBuf)
include ready ready' zstream alike rowBuf

theorem takeRow_alike {ended : Bool}
    (filled : s.2.rowBuf.length + s.1.availOut = rowbytes h.pixelDepth s.2.iwidth + 1)
    (result : takeRow h s ended = .ok t) :
    ∃ t', takeRow h s' ended = .ok t' ∧ AlikeImage h t t' := by
  obtain ⟨z, r⟩ := s
  obtain ⟨z', r'⟩ := s'
  cases zstream
  have finished := alike.finished ready ready'
  dsimp only at ready ready' alike rowBuf filled finished
  unfold takeRow at result ⊢
  dsimp only at result ⊢
  rw [rowBuf, finished]
  split at result
  · next some =>
    rw [if_pos some]
    split at result
    · next complete =>
      cases result
      rw [if_pos complete]
      exact ⟨_, rfl, rfl, alike, fun _ => rowBuf⟩
    next more =>
    rw [if_neg more]
    split at result
    · next full =>
      rw [if_pos full]
      cases row : pngPushProcessRow h r with
      | error e => rw [row] at result; cases result
      | ok r₂ =>
        rw [row] at result
        cases result
        obtain ⟨r₂', row', alike'⟩ := pngPushProcessRow_alike ready ready' alike rowBuf
          ((Bool.not_eq_true _).mp more) (by omega) row
        rw [row']
        exact ⟨_, rfl, rfl, alike', fun some => absurd full some⟩
    · next part =>
      cases result
      rw [if_neg part]
      exact ⟨_, rfl, rfl, alike, fun _ => rowBuf⟩
  · next none =>
    cases result
    rw [if_neg none]
    exact ⟨_, rfl, rfl, alike, fun _ => rowBuf⟩

theorem takeInflated_alike {ret : StreamDecoder.Ret}
    (filled : s.2.rowBuf.length + s.1.availOut = rowbytes h.pixelDepth s.2.iwidth + 1)
    (result : takeInflated h s ret = .ok t) :
    ∃ t', takeInflated h s' ret = .ok t' ∧ AlikeImage h t t' := by
  cases ret with
  | ok =>
    unfold takeInflated at result ⊢
    dsimp only at result ⊢
    rw [zstream]
    exact takeRow_alike ready ready' zstream alike rowBuf filled result
  | streamEnd => exact takeRow_alike ready ready' zstream alike rowBuf filled result
  | error code =>
    have finished := alike.finished ready ready'
    unfold takeInflated at result ⊢
    dsimp only at result ⊢
    rw [finished, zstream]
    split at result
    · next complete =>
      cases result
      rw [if_pos complete]
      exact ⟨_, rfl, rfl, alike, fun _ => rowBuf⟩
    · cases result

end Take

theorem pngInflateIDAT_alike (image : ImageReady h s) (image' : ImageReady h s')
    (alike : AlikeImage h s s') (more : imageDataDone s = false)
    (result : pngInflateIDAT h s = .ok t) :
    ∃ t', pngInflateIDAT h s' = .ok t' ∧ AlikeImage h t t' := by
  have going : s.1.ended = false := by
    simp only [imageDataDone, Bool.or_eq_false_iff] at more
    exact more.2
  obtain ⟨availOut, rowBuf, prepare, -, filling⟩ := prepareRow_spec image going
  obtain ⟨z, r, r', prepared, prepared', rows, same⟩ := prepareRow_alike alike
  rw [prepare, Prod.mk.injEq] at prepared
  obtain ⟨rfl, rfl⟩ := prepared
  obtain ⟨availOut', rowBuf', prepare', -, -⟩ :=
    prepareRow_spec image' (by rw [alike.zstream]; exact going)
  have shape := prepare'.symm.trans prepared'
  rw [Prod.mk.injEq] at shape
  obtain ⟨-, rfl⟩ := shape
  have room := (StreamDecoder.run_runs s.1.inflate s.1.nextIn availOut).out_le
  unfold pngInflateIDAT at result ⊢
  rw [prepare] at result
  rw [prepared']
  dsimp only at result same ⊢
  rw [same]
  refine takeInflated_alike (by exact image.ready.buffers _ s.2.prevRow)
    (by exact image'.ready.buffers _ s'.2.prevRow) (by rfl) (by exact rows.rowBuf _ _) (by rfl) ?_
    result
  dsimp only
  rw [List.length_append]
  omega

theorem pngProcessIDATData_alike {bytes : List UInt8} (image : ImageReady h s)
    (image' : ImageReady h s') (alike : AlikeImage h s s')
    (result : pngProcessIDATData h s bytes = .ok t) :
    ∃ t', pngProcessIDATData h s' bytes = .ok t' ∧ AlikeImage h t t' := by
  have kept : Kept h fun _ => True := ⟨fun _ _ _ _ => trivial, fun _ _ _ _ _ _ _ => trivial⟩
  have start : ImageReady h (withNextIn s bytes) ∧ ImageReady h (withNextIn s' bytes) ∧
      AlikeImage h (withNextIn s bytes) (withNextIn s' bytes) :=
    ⟨⟨image.ready, image.filling⟩, ⟨image'.ready, image'.filling⟩,
      by rw [withNextIn, withNextIn, alike.zstream], alike.rows, alike.rowBuf⟩
  have rows : s'.2.numRows = s.2.numRows := image'.ready.numRows.trans image.ready.numRows.symm
  unfold pngProcessIDATData at result ⊢
  dsimp only at result ⊢
  rw [rows]
  have same (a b : ImageData env) (holds : ImageReady h a ∧ ImageReady h b ∧ AlikeImage h a b) :
      imageDataDone b = imageDataDone a := by
    rw [imageDataDone, imageDataDone, holds.2.2.zstream]
  obtain ⟨t', result', -, -, alike'⟩ := iterate_simulates
    (R := fun s s' => ImageReady h s ∧ ImageReady h s' ∧ AlikeImage h s s') same
    (fun a b c holds more round => by
      obtain ⟨ready, ready', alike⟩ := holds
      obtain ⟨d, round', alike'⟩ := pngInflateIDAT_alike ready ready' alike more round
      have more' := (same a b ⟨ready, ready', alike⟩).trans more
      exact ⟨d, round', ((pngInflateIDAT_ends kept ready trivial more).result round).1.1,
        ((pngInflateIDAT_ends kept ready' trivial more').result round').1.1, alike'⟩) start result
  exact ⟨t', result', alike'⟩

end PngDecode.Decoder
