import PngDecode.Decoder.Parsed
import PngDecode.Decoder.Truncation

/-! # The rows of a decoded file

A decode succeeds on the files that libpng accepts. It has then handed over the rows of the image in
their order, and all of them if there are enough bytes in the zlib stream. -/

namespace PngDecode.Decoder
open PngDecode.Lib PngDecode.Libpng

variable {env : Env} {format : ColorFormat} {output x : List UInt8} {h : Header} {r : Rows}

/-! ## The calls up to the row at hand -/

def allCalls (h : Header) : List RowCall := (positions h).map (rowCall h)

/-- The callback was called for the rows in front of the one at hand, and for no others. -/
def CalledUpTo (h : Header) (r : Rows) : Prop :=
  ∃ made, positions h = made ++ remaining h r.rowNumber r.pass ∧
    rowCalls r.trace = made.map (rowCall h)

theorem calledUpTo_invariant (env : Env) (format : ColorFormat) (output : List UInt8) :
    RowInvariant env format output CalledUpTo where
  kept h := by
    refine ⟨fun _ _ _ called => called, fun g r r₂ ready more called drawn => ?_⟩
    obtain ⟨made, all, calls⟩ := called
    obtain ⟨skipped, now, -⟩ := drawn.called ready more
    refine ⟨made ++ (r.rowNumber, r.pass) :: skipped, ?_, ?_⟩
    · rw [all, now.remaining, List.append_assoc]
    · rw [now.calls, calls, List.map_append]
  mode _ _ _ _ called := called
  first _ complete _ :=
    ⟨[], (remaining_start ((complete.valid complete.ihdr).update ..)).symm, rfl⟩
  ended _ _ called := called

theorem CalledUpTo.prefix (called : CalledUpTo h r) : rowCalls r.trace <+: allCalls h := by
  obtain ⟨made, all, calls⟩ := called
  rw [calls, allCalls, all, List.map_append]
  exact List.prefix_append _ _

theorem CalledUpTo.all (called : CalledUpTo h r) (ready : Ready h r) :
    rowCalls r.trace = allCalls h ↔ r.finished = true := by
  obtain ⟨made, all, calls⟩ := called
  rw [calls, allCalls, all, List.map_append]
  constructor
  · intro same
    have none : (remaining h r.rowNumber r.pass).map (rowCall h) = [] := by
      simpa using same.symm
    by_contra more
    obtain ⟨inside, inPass⟩ := ready.unfinished.mp ((Bool.not_eq_true _).mp more)
    rw [remaining_cons ready.valid.interlace ready.valid.widthPos inside inPass ready.plain] at none
    cases none
  · intro finished
    rw [ready.remaining_nil finished, List.map_nil, List.append_nil]

theorem processInput_fileTokens {s : Png env} (result : processInput env x format output = .ok s)
    (done : s.rows.app.done = true) :
    ∃ (f : PngFile) (c : List UInt8) (u : Png env), x = f.bytes ++ c ∧
      Tokens (pngCreateReadStruct env format output) f.bytes u ∧
      u.chunk.processMode = .readDone ∧ s.hdr = u.hdr ∧ s.rows = u.rows ∧
      Complete format output f u := by
  have kept := any_invariant env format output
  have start := between_start env format output (fun _ _ => True) []
  have sound : Sound env format output (fun _ _ => True) (pngCreateReadStruct env format output) :=
    start.sound.setInput _
  obtain ⟨reaches, -⟩ := iterate_reaches result
  obtain ⟨t, c, u, rfl, tokens, mode, hdr, rows⟩ :=
    run_tokens kept sound start.pending ProcessMode.noConfusion reaches done
  have phase := tokens.phase kept sound start.pending phase_start
  generalize all : [] ++ t = b at phase
  cases phase with
  | @done f _ complete =>
    rw [List.nil_append] at all
    subst all
    exact ⟨f, c, u, rfl, tokens, mode, hdr, rows, complete⟩
  | signature now | opening now | image now | data now | trailer now | body now =>
    cases mode.symm.trans now

theorem processInput_file {I : Header → Rows → Prop} {s : Png env}
    (kept : RowInvariant env format output I) (result : processInput env x format output = .ok s)
    (done : s.rows.app.done = true) :
    ∃ f : PngFile, f.bytes <+: x ∧ (∀ c ∈ f.chunks, c.Fine) ∧ Describes f.ihdr.data s.hdr ∧
      Ready s.hdr s.rows ∧ I s.hdr s.rows ∧
      ∃ image : ImageData env, s.rows = decodeEndCallback image.2 ∧
        Stopped s.hdr (firstRows env s.hdr format output) f.imageData image := by
  have start := between_start env format output I []
  obtain ⟨f, c, u, rfl, tokens, mode, hdr, rows, complete⟩ := processInput_fileTokens result done
  obtain ⟨sound, -⟩ := tokens.sound kept (start.sound.setInput _) start.pending
  rw [rows] at done
  obtain ⟨-, image, keeps⟩ := sound.image (sound.done_image done)
  obtain ⟨r, ended, consumed⟩ := complete.consumed
  rw [hdr, rows]
  exact ⟨f, List.prefix_append _ _, complete.fine, complete.describes, image.ready, keeps,
    (u.zstream, r), ended, consumed.inflating.stopped (.inr complete.ended)⟩

/-- What is accepted is a PNG file: its chunks are in order, the critical ones are known and have the
right CRC, and the image has the size that the header says. -/
theorem decode_file {w h : Int} (succeeded : (decode env x format output w h).result = true) :
    ∃ f : PngFile, f.bytes <+: x ∧ (∀ c ∈ f.chunks, c.Fine) ∧
      (decode env x format output w h).w = (pngGetUint32 f.ihdr.data).toNat ∧
      (decode env x format output w h).h = (pngGetUint32 (f.ihdr.data.drop 4)).toNat := by
  obtain ⟨-, s, result, done, eq⟩ := decode_true succeeded
  obtain ⟨f, bytes, fine, describes, ready, -⟩ :=
    processInput_file (any_invariant env format output) result done
  rw [eq]
  exact ⟨f, bytes, fine, by rw [ready.appWidth, describes.width],
    by rw [ready.appHeight, describes.height]⟩

theorem decode_file_pixelPng : ∃ f : PngFile, f.bytes <+: pixelPng ++ [0] ∧
    (∀ c ∈ f.chunks, c.Fine) ∧
    (decode storedEnv (pixelPng ++ [0]) .rgba [] 0 0).w = (pngGetUint32 f.ihdr.data).toNat ∧
    (decode storedEnv (pixelPng ++ [0]) .rgba [] 0 0).h =
      (pngGetUint32 (f.ihdr.data.drop 4)).toNat :=
  decode_file (by decide +kernel)

/-- Everything that a successful decode needs is in the file that ends with the CRC of its `IEND`
chunk: what follows it changes nothing, and cut anywhere before its end it is incomplete. -/
theorem decode_untilIEND {w h : Int} (succeeded : (decode env x format [] w h).result = true) :
    ∃ f : PngFile, f.bytes <+: x ∧ f.iend.bytes <:+ f.bytes ∧ f.iend.name = chunkIEND ∧
      (∀ c ∈ f.chunks, c.Fine) ∧
      (∀ y, decode env (f.bytes ++ y) format [] w h = decode env x format [] w h) ∧
      ∀ p, p <+: f.bytes → p ≠ f.bytes → decode env p format [] w h = ⟨false, [], w, h⟩ := by
  obtain ⟨-, s, result, done, -⟩ := decode_true succeeded
  obtain ⟨f, c, u, rfl, tokens, mode, -, -, complete⟩ := processInput_fileTokens result done
  refine ⟨f, List.prefix_append _ _, ?_, f.iendName, complete.fine, fun y => ?_, fun p front less => ?_⟩
  · rw [PngFile.bytes, PngFile.chunks, fileBytes_snoc]
    exact List.suffix_append _ _
  · rw [decode_tokens tokens mode, decode_tokens tokens mode]
  · exact decode_cut tokens mode front less w h

theorem decode_untilIEND_pixelPng : ∃ f : PngFile, f.bytes <+: pixelPng ++ [1, 2, 3] ∧
    f.iend.bytes <:+ f.bytes ∧ f.iend.name = chunkIEND ∧ (∀ c ∈ f.chunks, c.Fine) ∧
    (∀ y, decode storedEnv (f.bytes ++ y) .bgra [] 5 6 =
      decode storedEnv (pixelPng ++ [1, 2, 3]) .bgra [] 5 6) ∧
    ∀ p, p <+: f.bytes → p ≠ f.bytes → decode storedEnv p .bgra [] 5 6 = ⟨false, [], 5, 6⟩ :=
  decode_untilIEND (by decide +kernel)

theorem decode_finished {w h : Int} (succeeded : (decode env x format output w h).result = true) :
    ∃ (s : Png env) (f : PngFile), processInput env x format output = .ok s ∧ f.bytes <+: x ∧
      Describes f.ihdr.data s.hdr ∧ Ready s.hdr s.rows ∧ CalledUpTo s.hdr s.rows ∧
      (s.rows.finished = true ↔
        (env.inflate.run env.inflate.init f.imageData (imageSize s.hdr)).out.length =
          imageSize s.hdr) := by
  obtain ⟨-, s, result, done, -⟩ := decode_true succeeded
  obtain ⟨f, bytes, -, describes, ready, called, image, rows, stopped⟩ :=
    processInput_file (calledUpTo_invariant env format output) result done
  have full := stopped.full []
  rw [List.append_nil] at full
  have finished : s.rows.finished = true ↔ image.2.finished = true := by rw [rows]; rfl
  exact ⟨s, f, result, bytes, describes, ready, called, finished.trans full.symm⟩

/-- The rows are handed over in their order, and all of them if and only if the zlib stream of the
image data has as many bytes as the image. -/
theorem decode_delivered {w h : Int} (succeeded : (decode env x format output w h).result = true) :
    ∃ (s : Png env) (f : PngFile), processInput env x format output = .ok s ∧ f.bytes <+: x ∧
      Describes f.ihdr.data s.hdr ∧ rowCalls s.rows.trace <+: allCalls s.hdr ∧
      (rowCalls s.rows.trace = allCalls s.hdr ↔
        (env.inflate.run env.inflate.init f.imageData (imageSize s.hdr)).out.length =
          imageSize s.hdr) := by
  obtain ⟨s, f, result, bytes, describes, ready, called, full⟩ := decode_finished succeeded
  exact ⟨s, f, result, bytes, describes, called.prefix, (called.all ready).trans full⟩

def tallHeader : List UInt8 := pngSignature ++
  [0, 0, 0, 13, 73, 72, 68, 82, 0, 0, 0, 1, 0, 0, 0, 2, 8, 6, 0, 0, 0, 153, 129, 182, 39]

def shortPng : List UInt8 := tallHeader ++ pngData ++ pngEnd

theorem shortPng_calls {s : Png storedEnv}
    (result : processInput storedEnv shortPng .rgba [] = .ok s) :
    rowCalls s.rows.trace = [⟨0, 0, true⟩] ∧ allCalls s.hdr = [⟨0, 0, true⟩, ⟨1, 0, true⟩] ∧
      (1, 0) ∈ scanlines s.hdr := by
  have calls : (match processInput storedEnv shortPng .rgba [] with
      | .ok s => decide (rowCalls s.rows.trace = [⟨0, 0, true⟩] ∧
          allCalls s.hdr = [⟨0, 0, true⟩, ⟨1, 0, true⟩] ∧ (1, 0) ∈ scanlines s.hdr)
      | .error _ => false) = true := by
    decide +kernel
  rw [result] at calls
  exact of_decide_eq_true calls

theorem shortPng_decoded : decode storedEnv shortPng .rgba [] 0 0 =
    ⟨true, [10, 20, 30, 40, 0, 0, 0, 0], 1, 2⟩ := by
  decide +kernel

theorem decode_delivered_short : ∃ (s : Png storedEnv) (f : PngFile),
    processInput storedEnv shortPng .rgba [] = .ok s ∧ f.bytes <+: shortPng ∧
    Describes f.ihdr.data s.hdr ∧ rowCalls s.rows.trace <+: allCalls s.hdr ∧
    rowCalls s.rows.trace ≠ allCalls s.hdr ∧
    (storedEnv.inflate.run storedEnv.inflate.init f.imageData (imageSize s.hdr)).out.length ≠
      imageSize s.hdr := by
  obtain ⟨s, f, result, bytes, describes, front, full⟩ :=
    decode_delivered (congrArg (·.result) shortPng_decoded)
  obtain ⟨made, all, -⟩ := shortPng_calls result
  have short : rowCalls s.rows.trace ≠ allCalls s.hdr := by
    rw [made, all]
    decide
  exact ⟨s, f, result, bytes, describes, front, short, fun enough => short (full.mpr enough)⟩

/-- The output is drawn from the bytes of the zlib stream as a whole, however the `IDAT` chunks split
it. -/
theorem decode_drawn {w h : Int} (succeeded : (decode env x format output w h).result = true) :
    ∃ (s : Png env) (f : PngFile) (r : Rows), processInput env x format output = .ok s ∧
      f.bytes <+: x ∧ Describes f.ihdr.data s.hdr ∧
      feedRows s.hdr (env.inflate.run env.inflate.init f.imageData (imageSize s.hdr)).out
        (firstRows env s.hdr format output) = .ok r ∧
      (decode env x format output w h).output = r.app.output := by
  obtain ⟨-, s, result, done, eq⟩ := decode_true succeeded
  obtain ⟨f, bytes, -, describes, -, -, image, rows, stopped⟩ :=
    processInput_file (any_invariant env format output) result done
  have fed := stopped.fed []
  rw [List.append_nil] at fed
  refine ⟨s, f, _, result, bytes, describes, fed, ?_⟩
  rw [eq, rows]
  rfl

def tallData : List UInt8 :=
  [0, 0, 0, 9, 73, 68, 65, 84, 120, 1, 1, 10, 0, 245, 255, 0, 10, 206, 248, 195, 180,
    0, 0, 0, 12, 73, 68, 65, 84, 20, 30, 40, 1, 50, 60, 70, 80, 5, 35, 1, 106, 2, 67, 132, 54]

def tallPng : List UInt8 := tallHeader ++ tallData ++ pngEnd

theorem decode_drawn_tallPng : ∃ (s : Png storedEnv) (f : PngFile) (r : Rows),
    processInput storedEnv tallPng .bgra [] = .ok s ∧ f.bytes <+: tallPng ∧
    Describes f.ihdr.data s.hdr ∧
    feedRows s.hdr (storedEnv.inflate.run storedEnv.inflate.init f.imageData
      (imageSize s.hdr)).out (firstRows storedEnv s.hdr .bgra []) = .ok r ∧
    r.app.output = [30, 20, 10, 40, 70, 60, 50, 80] := by
  have decoded : decode storedEnv tallPng .bgra [] 0 0 =
      ⟨true, [30, 20, 10, 40, 70, 60, 50, 80], 1, 2⟩ := by
    decide +kernel
  obtain ⟨s, f, r, result, bytes, describes, fed, same⟩ :=
    decode_drawn (congrArg (·.result) decoded)
  rw [decoded] at same
  exact ⟨s, f, r, result, bytes, describes, fed, same.symm⟩

end PngDecode.Decoder
