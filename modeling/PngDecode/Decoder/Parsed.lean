import PngDecode.Decoder.Inflated
import PngDecode.Decoder.Tokens
import PngDecode.Libpng.FileFormat

/-! # What a decoded file is made of

The tokens of a run are the chunks of a file, and the data of its `IDAT` chunks is what the decoder
of the image data was given. -/

namespace PngDecode.Decoder
open PngDecode.Lib PngDecode.Libpng

variable {env : Env} {format : ColorFormat} {output p t : List UInt8} {I : Header → Rows → Prop}
  {h h' : Header} {s s' : Png env} {c : FileChunk} {cs : List FileChunk} {f : FileHeader}

/-! ## In front of the image data -/

structure Opened (f : FileHeader) (h : Header) : Prop where
  ihdr : h.mode.haveIHDR = true
  describes : Describes f.ihdr.data h
  plte : h.mode.havePLTE = true → f.HasPLTE
  fine : ∀ c ∈ f.chunks, c.Fine

inductive Opening (h : Header) : List FileChunk → Prop where
  | early {cs : List FileChunk} : h.mode.haveIHDR = false → h.mode.havePLTE = false →
      h.userChunkCacheMax = 128 → (∀ c ∈ cs, ancillary c.name = true) → Opening h cs
  | opened {f : FileHeader} : Opened f h → Opening h f.chunks

theorem fine_of_handled (result : pngHandleChunk h c.chunk = .ok h') : c.Fine := by
  intro critical
  obtain ⟨right, known⟩ := pngHandleChunk_critical result critical
  have right : decide (c.crc ≠ c.checksum) = false := right
  exact ⟨by simpa using right, known⟩

theorem Opened.keeps (opened : Opened f h) (ordinary : Ordinary c.name)
    (result : pngHandleChunk h c.chunk = .ok h') :
    Opened { f with
      header := f.header ++ [c]
      headerNames := by
        intro d member
        rcases List.mem_append.mp member with old | new
        · exact f.headerNames d old
        · rw [List.mem_singleton.mp new]; exact ordinary } h' := by
  obtain ⟨-, keeps⟩ := pngHandleChunk_keepsHeader opened.ihdr result
  refine ⟨keeps.ihdr.trans opened.ihdr, keeps.describes _ opened.describes, fun plte => ?_,
    fun d member => ?_⟩
  · rcases keeps.plte plte with old | new
    · obtain ⟨d, member, name⟩ := opened.plte old
      exact ⟨d, List.mem_append_left _ member, name⟩
    · exact ⟨c, List.mem_append_right _ (List.mem_singleton_self c), new⟩
  · have member : d ∈ f.chunks ∨ d = c := by
      simpa [FileHeader.chunks, or_assoc] using member
    rcases member with old | rfl
    · exact opened.fine d old
    · exact fine_of_handled result

theorem Opening.chunk (opening : Opening h cs) (notIDAT : c.name ≠ chunkIDAT)
    (notIEND : c.name ≠ chunkIEND) (result : pngHandleChunk h c.chunk = .ok h') :
    Opening h' (cs ++ [c]) := by
  cases opening with
  | early none plte cache names =>
    rcases pngHandleChunk_early none cache result with ⟨ihdr, handled⟩ | ⟨extra, rfl⟩
    · obtain ⟨length, have', plte', describes⟩ := pngHandleIHDR_describes plte handled
      refine .opened (f := ⟨cs, c, [], names, ihdr, length, nofun⟩)
        ⟨have', describes, fun plte => ?_, fun d member => ?_⟩
      · rw [plte'] at plte; cases plte
      · rcases List.mem_append.mp member with old | new
        · intro critical
          rw [names d old] at critical
          cases critical
        · rw [List.mem_singleton.mp new]
          exact fine_of_handled result
    · refine .early none plte cache fun d member => ?_
      rcases List.mem_append.mp member with old | new
      · exact names d old
      · rw [List.mem_singleton.mp new]; exact extra
  | @opened f opened =>
    have notIHDR := (pngHandleChunk_keepsHeader opened.ihdr result).1
    have more := opened.keeps ⟨notIHDR, notIDAT, notIEND⟩ result
    rw [FileHeader.chunks, List.append_assoc, List.cons_append]
    exact .opened more

theorem Opened.setMode (opened : Opened f h) {mode : Mode}
    (ihdr : mode.haveIHDR = h.mode.haveIHDR) (plte : mode.havePLTE = h.mode.havePLTE)
    (cache : Nat) : Opened f { h with mode, userChunkCacheMax := cache } where
  ihdr := ihdr.trans opened.ihdr
  describes := let ⟨w, t, d, k, i⟩ := opened.describes; ⟨w, t, d, k, i⟩
  plte have' := opened.plte (plte ▸ have')
  fine := opened.fine

theorem Opening.setMode (opening : Opening h cs) {mode : Mode}
    (ihdr : mode.haveIHDR = h.mode.haveIHDR) (plte : mode.havePLTE = h.mode.havePLTE) :
    Opening { h with mode } cs := by
  cases opening with
  | early none noPlte cache names =>
    exact .early (ihdr.trans none) (plte.trans noPlte) cache names
  | opened opened => exact .opened (opened.setMode ihdr plte h.userChunkCacheMax)

/-! ## Chunks as tokens -/

structure Headed (s : Png env) (p : List UInt8) : Prop where
  header : s.hdr.mode.haveChunkHeader = true
  eight : p.length = 8
  good : GoodHeader p
  length : s.chunk.pushLength = (pngGetUint32 p).toNat
  name : s.chunk.chunkName = pngGetUint32 (p.drop 4)
  crc : s.chunk.crc = Zlib.crc32 0 (p.drop 4)

theorem headed_spec (s : Png env) (eight : t.length = 8) (good : GoodHeader t) :
    Headed (headed s t) t where
  header := rfl
  eight := eight
  good := good
  length := rfl
  name := rfl
  crc := by
    have four : (t.drop 4).length ≤ 4 := by rw [List.length_drop]; omega
    show Zlib.crc32 0 ((t.drop 4).take 4) = _
    rw [List.take_of_length_le four]

theorem ChunkBody.file (at' : Headed s p) (body : ChunkBody s t s') :
    ∃ c : FileChunk, p ++ t = c.bytes ∧ c.name = s.chunk.chunkName ∧
      ∃ hdr, pngHandleChunk s.hdr c.chunk = .ok hdr ∧ s' = afterChunk s hdr := by
  obtain ⟨hdr, handled, after⟩ := body.handled
  have long := body.length
  rw [at'.length] at long
  obtain ⟨c, bytes, name, saved, data, crc⟩ := FileChunk.of_bytes at'.eight at'.good long
  have same : c.chunk = bodyChunk s t := by
    unfold FileChunk.chunk FileChunk.checksum bodyChunk
    rw [saved, data, crc, name, at'.name, at'.length, at'.crc]
  exact ⟨c, bytes, name.trans at'.name.symm, hdr, by rw [same]; exact handled, after⟩

theorem ImageBody.file (at' : Headed s p) (idat : s.chunk.chunkName = chunkIDAT)
    (size : s.chunk.idatSize = s.chunk.pushLength) (body : ImageBody s t s') :
    ∃ c : FileChunk, p ++ t = c.bytes ∧ c.name = chunkIDAT ∧ c.Fine ∧
      ∃ image, decodeData s c.data = .ok image ∧ s' = afterIDAT (afterBytes s c.data image) := by
  obtain ⟨image, decoded, ⟨wrong, finished⟩, after⟩ := body.decoded
  have long := body.length
  rw [size, at'.length] at long
  obtain ⟨c, bytes, name, saved, data, crc⟩ := FileChunk.of_bytes at'.eight at'.good long
  rw [size, at'.length, ← data] at decoded finished after
  rw [← crc, at'.crc, ← saved] at finished
  refine ⟨c, bytes, (name.trans at'.name.symm).trans idat, fun _ => ?_, image, decoded, after⟩
  have finished : (pngCrcFinish ⟨s.chunk.chunkName, [], c.crc ≠ c.checksum⟩ >>= .ok) =
      .ok wrong := by
    show (pngCrcFinish _ >>= _) = _
    rw [FileChunk.checksum, finished]
    rfl
  have critical : ancillary s.chunk.chunkName = false := by rw [idat]; decide
  have right := crcFinish_critical finished critical
  have right : decide (c.crc ≠ c.checksum) = false := right
  rw [name, ← at'.name, idat]
  exact ⟨by simpa using right, by decide⟩

/-! ## The first `IDAT` -/

def startHeader (h : Header) : Header :=
  { h with
    mode := { h.mode with
      haveIDAT := true, haveChunkAfterIDAT := h.mode.haveChunkAfterIDAT || h.mode.afterIDAT } }

def startedIDAT (s : Png env) (format : ColorFormat) (output : List UInt8) : Png env :=
  let hdr := configuredHeader env (startHeader s.hdr)
  let rows := configuredRows env (startHeader s.hdr) format output
  { s with
    hdr
    chunk := { s.chunk with processMode := .readIDAT, idatSize := s.chunk.pushLength }
    zstream := { s.zstream with
      inflate := env.inflate.init, nextIn := [], availOut := rowbytes hdr.pixelDepth rows.iwidth + 1 }
    rows := { rows with rowBuf := [] } }

structure Starts (h : Header) : Prop where
  complete : Header.Complete (startHeader h)
  small : h.width * h.height ≤ 2 ^ 29 - 1

theorem pngPushStartIDAT_first (sound : Sound env format output I s)
    (none : s.hdr.mode.haveIDAT = false) (result : pngPushStartIDAT s = .ok s') :
    Starts s.hdr ∧ s' = startedIDAT s format output := by
  unfold pngPushStartIDAT at result
  dsimp only at result
  split at result
  · cases result
  next ihdr =>
  split at result
  · cases result
  next plte =>
  have ihdr : s.hdr.mode.haveIHDR = true := by simpa using ihdr
  have plte : s.hdr.colorType = colorTypePalette → s.hdr.mode.havePLTE = true := by
    simpa using plte
  rw [if_neg (by rw [none]; exact fun early => Bool.false_ne_true early.1)] at result
  have complete : Header.Complete (startHeader s.hdr) :=
    ⟨sound.consistent.update { s.hdr.mode with haveIDAT := true, haveChunkAfterIDAT :=
      s.hdr.mode.haveChunkAfterIDAT || s.hdr.mode.afterIDAT } s.hdr.colorspace
      s.hdr.userChunkCacheMax rfl id .inl, ihdr, plte⟩
  obtain ⟨t, info, result⟩ := bind_ok result
  unfold pngPushHaveInfo at info
  dsimp only at info
  rw [(sound.start none).1] at info
  by_cases small : s.hdr.width * s.hdr.height ≤ 2 ^ 29 - 1
  · have callback : decodeInfoCallback env (startHeader s.hdr) (initRows format output) = _ :=
      decodeInfoCallback_first format output complete small
    unfold startHeader at callback
    rw [callback] at info
    cases info
    exact ⟨⟨complete, small⟩, (Except.ok.inj result).symm⟩
  · unfold decodeInfoCallback at info
    rw [if_pos (by dsimp only; omega)] at info
    cases info

theorem pngPushStartIDAT_starts (sound : Sound env format output I s)
    (none : s.hdr.mode.haveIDAT = false) (starts : Starts s.hdr) :
    pngPushStartIDAT s = .ok (startedIDAT s format output) := by
  have ihdr : ¬ (!s.hdr.mode.haveIHDR) = true := by
    have : s.hdr.mode.haveIHDR = true := starts.complete.ihdr
    simp [this]
  have plte : ¬ (s.hdr.colorType = colorTypePalette ∧ (!s.hdr.mode.havePLTE) = true) := by
    intro missing
    have : s.hdr.mode.havePLTE = true := starts.complete.plte missing.1
    simp [this] at missing
  have callback : decodeInfoCallback env (startHeader s.hdr) (initRows format output) = _ :=
    decodeInfoCallback_first format output starts.complete starts.small
  unfold startHeader at callback
  unfold pngPushStartIDAT
  dsimp only
  rw [if_neg ihdr, if_neg plte, if_neg (by rw [none]; exact fun early => Bool.false_ne_true early.1),
    pngPushHaveInfo]
  dsimp only
  rw [(sound.start none).1, callback]
  rfl

theorem pngPushStartIDAT_again (sound : Sound env format output I s)
    (idat : s.hdr.mode.haveIDAT = true) (after : s.hdr.mode.afterIDAT = true) :
    pngPushStartIDAT s ≠ .ok s' := by
  intro result
  unfold pngPushStartIDAT at result
  dsimp only at result
  split at result
  · cases result
  split at result
  · cases result
  rw [if_neg (by rw [after, Bool.or_true]; exact fun early => by cases early.2.1)] at result
  obtain ⟨t, info, -⟩ := bind_ok result
  obtain ⟨-, image, -⟩ := sound.image idat
  unfold pngPushHaveInfo at info
  dsimp only at info
  cases again : decodeInfoCallback env (startHeader s.hdr) s.rows with
  | ok hr => exact (decodeInfoCallback_again image.ready.rowInit).result again
  | error e =>
    unfold startHeader at again
    rw [idat] at *
    rw [again] at info
    cases info

def firstRows (env : Env) (h : Header) (format : ColorFormat) (output : List UInt8) : Rows :=
  { configuredRows env h format output with rowBuf := [] }

/-- The gamma correction of the palette has no part in the rows. -/
theorem firstRows_configured (env : Env) (h : Header) (format : ColorFormat) (output : List UInt8) :
    firstRows env (configuredHeader env h) format output = firstRows env h format output := by
  have same : (usedGammaSetup env (configuredHeader env h)).table = (usedGammaSetup env h).table ∧
      (usedGammaSetup env (configuredHeader env h)).gamma = (usedGammaSetup env h).gamma := by
    have gamma : usedGamma env (configuredHeader env h) = usedGamma env h := rfl
    have type : (configuredHeader env h).colorType = h.colorType := rfl
    have depth : (configuredHeader env h).bitDepth = h.bitDepth := rfl
    unfold usedGammaSetup gammaSetup
    rw [gamma, type, depth]
    split
    · by_cases palette : h.colorType = colorTypePalette <;> simp [palette]
    · exact ⟨rfl, rfl⟩
  unfold firstRows configuredRows
  rw [same.1, same.2]
  rfl

theorem startedIDAT_consumed (starts : Starts s.hdr) (going : s.zstream.ended = false) :
    Consumed (startedIDAT s format output).hdr
      (firstRows env (startedIDAT s format output).hdr format output) []
      ((startedIDAT s format output).zstream, (startedIDAT s format output).rows) := by
  have ready : Ready (configuredHeader env (startHeader s.hdr))
      (configuredRows env (startHeader s.hdr) format output) :=
    configuredRows_ready format output starts.complete starts.small
  have ready := ready.buffers [] (configuredRows env (startHeader s.hdr) format output).prevRow
  have reading := reading_start (s := ((startedIDAT s format output).zstream,
    (startedIDAT s format output).rows)) ready rfl rfl rfl rfl
  have first : firstRows env (startedIDAT s format output).hdr format output =
      (startedIDAT s format output).rows := firstRows_configured env (startHeader s.hdr) format output
  rw [first]
  exact consumed_start ready reading rfl going

/-! ## The image data -/

structure Imaged (format : ColorFormat) (output : List UInt8) (f : FileHeader)
    (cs : List FileChunk) (s : Png env) : Prop where
  opened : Opened f s.hdr
  palette : f.ihdr.data.getD 9 0 = 3 → f.HasPLTE
  idat : s.hdr.mode.haveIDAT = true
  after : cs ≠ [] → s.hdr.mode.afterIDAT = true
  names : ∀ c ∈ cs, c.name = chunkIDAT
  fine : ∀ c ∈ cs, c.Fine
  consumed : Consumed s.hdr (firstRows env s.hdr format output) (cs.flatMap FileChunk.data)
    (s.zstream, s.rows)

theorem Reading.setMode {r₀ : Rows} {C out : List UInt8} {image : ImageData env}
    (reading : Reading h r₀ C out image) (mode : Mode) (cache : Nat) :
    Reading { h with mode, userChunkCacheMax := cache } r₀ C out image :=
  ⟨reading.total, fun rest => by
    rw [feedRows_setMode, reading.fed]
    exact (feedRows_setMode h mode cache _ _).symm, reading.same⟩

theorem Stopped.setMode {r₀ : Rows} {B : List UInt8} {image : ImageData env}
    (stopped : Stopped h r₀ B image) (mode : Mode) (cache : Nat) :
    Stopped { h with mode, userChunkCacheMax := cache } r₀ B image :=
  ⟨fun b => by rw [feedRows_setMode]; exact stopped.fed b, stopped.full⟩

theorem Consumed.setMode {r₀ : Rows} {B : List UInt8} {image : ImageData env}
    (consumed : Consumed h r₀ B image) (mode : Mode) (cache : Nat) :
    Consumed { h with mode, userChunkCacheMax := cache } r₀ B image where
  inflating.going unfinished going := by
    obtain ⟨C, out, taken, reading⟩ := consumed.inflating.going unfinished going
    exact ⟨C, out, taken, reading.setMode mode cache⟩
  inflating.stopped stop := (consumed.inflating.stopped stop).setMode mode cache
  rest := consumed.rest

theorem Imaged.setMode (imaged : Imaged format output f cs s) {mode : Mode}
    (ihdr : mode.haveIHDR = s.hdr.mode.haveIHDR) (plte : mode.havePLTE = s.hdr.mode.havePLTE)
    (idat : mode.haveIDAT = s.hdr.mode.haveIDAT)
    (after : s.hdr.mode.afterIDAT = true → mode.afterIDAT = true) (cache : Nat)
    (chunk : ChunkState) :
    Imaged format output f cs { s with hdr := { s.hdr with mode, userChunkCacheMax := cache }, chunk } where
  opened := imaged.opened.setMode ihdr plte cache
  palette := imaged.palette
  idat := idat.trans imaged.idat
  after some := after (imaged.after some)
  names := imaged.names
  fine := imaged.fine
  consumed := imaged.consumed.setMode mode cache

theorem decodeData_consumed {r₀ : Rows} {B data : List UInt8} {image : ImageData env}
    (ready : ImageReady s.hdr (s.zstream, s.rows))
    (consumed : Consumed s.hdr r₀ B (s.zstream, s.rows))
    (decoded : decodeData s data = .ok image) : Consumed s.hdr r₀ (B ++ data) image := by
  unfold decodeData at decoded
  split at decoded
  · next none =>
    cases decoded
    rw [none, List.append_nil]
    exact consumed
  · exact pngProcessIDATData_consumed ready consumed decoded

theorem Imaged.image (imaged : Imaged format output f cs s) (ready : ImageReady s.hdr (s.zstream, s.rows))
    {image : ImageData env} (name : c.name = chunkIDAT) (fine : c.Fine)
    (decoded : decodeData s c.data = .ok image) :
    Imaged format output f (cs ++ [c]) (afterIDAT (afterBytes s c.data image)) where
  opened := imaged.opened.setMode (by rfl) (by rfl) s.hdr.userChunkCacheMax
  palette := imaged.palette
  idat := imaged.idat
  after _ := rfl
  names d member := by
    rcases List.mem_append.mp member with old | new
    · exact imaged.names d old
    · rw [List.mem_singleton.mp new]; exact name
  fine d member := by
    rcases List.mem_append.mp member with old | new
    · exact imaged.fine d old
    · rw [List.mem_singleton.mp new]; exact fine
  consumed := by
    have all : (cs ++ [c]).flatMap FileChunk.data = cs.flatMap FileChunk.data ++ c.data := by simp
    rw [all]
    exact (decodeData_consumed ready imaged.consumed decoded).setMode _ s.hdr.userChunkCacheMax

structure Trailed (format : ColorFormat) (output : List UInt8) (f : FileHeader)
    (cs tr : List FileChunk) (s : Png env) : Prop where
  imaged : Imaged format output f cs s
  some : cs ≠ []
  ended : s.zstream.ended = true
  names : ∀ c ∈ tr, Ordinary c.name
  fine : ∀ c ∈ tr, c.Fine

structure Complete (format : ColorFormat) (output : List UInt8) (f : PngFile) (s : Png env) : Prop where
  describes : Describes f.ihdr.data s.hdr
  fine : ∀ c ∈ f.chunks, c.Fine
  ended : s.zstream.ended = true
  consumed : ∃ r, s.rows = decodeEndCallback r ∧
    Consumed s.hdr (firstRows env s.hdr format output) f.imageData (s.zstream, r)

theorem Trailed.chunk {tr : List FileChunk} {hdr : Header} (trailed : Trailed format output f cs tr s)
    (name : c.name = s.chunk.chunkName) (notIDAT : c.name ≠ chunkIDAT)
    (handled : pngHandleChunk s.hdr c.chunk = .ok hdr) :
    (c.name ≠ chunkIEND ∧ Trailed format output f cs (tr ++ [c]) (afterChunk s hdr)) ∨
      ∃ g : PngFile, g.chunks = f.chunks ++ cs ++ tr ++ [c] ∧
        Complete format output g (afterChunk s hdr) := by
  obtain ⟨imaged, some, ended, names, fine⟩ := trailed
  obtain ⟨notIHDR, keeps⟩ := pngHandleChunk_keepsHeader imaged.opened.ihdr handled
  obtain ⟨afterIDAT, haveIEND, cache, rfl⟩ :=
    pngHandleChunk_sameImage imaged.opened.ihdr imaged.idat handled
  unfold afterChunk
  rw [← name]
  by_cases iend : c.name = chunkIEND
  · rw [if_pos iend]
    refine .inr ⟨⟨f, imaged.palette, cs, tr, c, some, imaged.names, names, iend⟩, rfl,
      (imaged.opened.setMode (by rfl) (by rfl) cache).describes, fun d member => ?_, ended,
      s.rows, rfl, imaged.consumed.setMode _ cache⟩
    have member : d ∈ f.chunks ∨ d ∈ cs ∨ d ∈ tr ∨ d = c := by
      simpa [PngFile.chunks, or_assoc] using member
    rcases member with front | image | trailer | rfl
    · exact imaged.opened.fine d front
    · exact imaged.fine d image
    · exact fine d trailer
    · exact fine_of_handled handled
  · rw [if_neg iend]
    refine .inl ⟨iend, imaged.setMode (by rfl) (by rfl) (by rfl) (by exact keeps.afterIDAT) cache
      s.chunk, some, ended, fun d member => ?_, fun d member => ?_⟩
    · rcases List.mem_append.mp member with old | new
      · exact names d old
      · rw [List.mem_singleton.mp new]; exact ⟨notIHDR, notIDAT, iend⟩
    · rcases List.mem_append.mp member with old | new
      · exact fine d old
      · rw [List.mem_singleton.mp new]; exact fine_of_handled handled

/-! ## A run -/

/-- What the bytes are that have been read. -/
inductive Phase (format : ColorFormat) (output : List UInt8) (s : Png env) : List UInt8 → Prop where
  | signature : s.chunk.processMode = .readSig → s.chunk.sigBytes = 0 →
      s.hdr.mode.haveIDAT = false → s.zstream.ended = false → Opening s.hdr [] →
      Phase format output s []
  | opening {cs : List FileChunk} : s.chunk.processMode = .readChunk →
      s.hdr.mode.haveIDAT = false → s.hdr.mode.haveChunkHeader = false →
      s.zstream.ended = false → Opening s.hdr cs → Phase format output s (fileBytes cs)
  | image {f : FileHeader} {cs : List FileChunk} : s.chunk.processMode = .readIDAT →
      s.hdr.mode.haveChunkHeader = false → cs ≠ [] → Imaged format output f cs s →
      Phase format output s (fileBytes (f.chunks ++ cs))
  | data {f : FileHeader} {cs : List FileChunk} {p : List UInt8} :
      s.chunk.processMode = .readIDAT → Headed s p → s.chunk.chunkName = chunkIDAT →
      s.chunk.idatSize = s.chunk.pushLength → Imaged format output f cs s →
      Phase format output s (fileBytes (f.chunks ++ cs) ++ p)
  | trailer {f : FileHeader} {cs tr : List FileChunk} : s.chunk.processMode = .readChunk →
      s.hdr.mode.haveChunkHeader = false → Trailed format output f cs tr s →
      Phase format output s (fileBytes (f.chunks ++ cs ++ tr))
  | body {f : FileHeader} {cs tr : List FileChunk} {p : List UInt8} :
      s.chunk.processMode = .readChunk → Headed s p → s.chunk.chunkName ≠ chunkIDAT →
      Trailed format output f cs tr s → Phase format output s (fileBytes (f.chunks ++ cs ++ tr) ++ p)
  | done {f : PngFile} : s.chunk.processMode = .readDone → Complete format output f s →
      Phase format output s f.bytes

variable {b : List UInt8}

theorem phase_start : Phase format output (pngCreateReadStruct env format output) [] :=
  .signature rfl rfl rfl rfl (.early rfl rfl rfl nofun)

theorem Trailed.phase {tr : List FileChunk} {hdr : Header} (trailed : Trailed format output f cs tr s)
    (mode : s.chunk.processMode = .readChunk) (name : c.name = s.chunk.chunkName)
    (notIDAT : c.name ≠ chunkIDAT) (handled : pngHandleChunk s.hdr c.chunk = .ok hdr) :
    Phase format output (afterChunk s hdr) (fileBytes (f.chunks ++ cs ++ tr) ++ c.bytes) := by
  rw [← fileBytes_snoc]
  rcases trailed.chunk name notIDAT handled with ⟨notIEND, more⟩ | ⟨g, chunks, complete⟩
  · have same : (afterChunk s hdr).chunk.processMode = .readChunk := by
      unfold afterChunk
      rw [← name, if_neg notIEND]
      exact mode
    rw [List.append_assoc]
    exact .trailer same rfl more
  · have last : (afterChunk s hdr).chunk.processMode = .readDone := by
      have iend := g.iendName
      have tail := congrArg List.getLast? chunks
      simp only [PngFile.chunks, List.getLast?_append, List.getLast?_singleton, Option.some_or,
        Option.some.injEq] at tail
      unfold afterChunk
      rw [← name, ← tail, if_pos iend]
      rfl
    rw [← chunks]
    exact .done last complete

section Cases
variable {u : List UInt8} (kept : RowInvariant env format output I)
  (sound : Sound env format output I s)
include sound

theorem Phase.afterSig (mode : s.chunk.processMode = .readSig) (eight : t.length = 8 - s.chunk.sigBytes)
    (same : pngSigCmp (s.chunk.signature.take s.chunk.sigBytes ++ t) s.chunk.sigBytes t.length =
      false) (phase : Phase format output s b) : Phase format output (afterSig s t) (b ++ t) := by
  cases phase with
  | signature _ fresh none going opening =>
    rw [fresh] at eight same
    have sig : t = pngSignature := by
      simpa [pngSigCmp, eight, List.take_of_length_le, pngSignature] using same
    have reading : (Decoder.afterSig s t).chunk.processMode = .readChunk := by
      unfold Decoder.afterSig
      rw [if_pos (by omega)]
    have file : [] ++ t = fileBytes [] := by rw [sig]; rfl
    rw [file]
    exact .opening reading none (sound.signature mode).2 going opening
  | opening now | image now | data now | trailer now | body now | done now =>
    cases mode.symm.trans now

include kept in
theorem Phase.start (mode : s.chunk.processMode = .readChunk)
    (fresh : s.hdr.mode.haveChunkHeader = false) (eight : t.length = 8) (good : GoodHeader t)
    (idat : pngGetUint32 (t.drop 4) = chunkIDAT) (started : pngPushStartIDAT (headed s t) = .ok s')
    (phase : Phase format output s b) : Phase format output s' (b ++ t) := by
  have sound' : Sound env format output I (headed s t) :=
    (sound.withHeader t).setHaveChunkHeader kept true fun sig => by cases mode.symm.trans sig
  have at' := headed_spec s eight good
  cases phase with
  | @opening cs _ none _ going opening =>
    obtain ⟨starts, rfl⟩ := pngPushStartIDAT_first sound' none started
    cases opening with
    | early ihdr => cases ihdr.symm.trans starts.complete.ihdr
    | @opened f opened =>
      rw [← List.append_nil f.chunks]
      refine .data rfl ⟨rfl, at'.eight, at'.good, at'.length, at'.name, at'.crc⟩ idat rfl
        ⟨⟨opened.ihdr, ?_, opened.plte, opened.fine⟩, fun palette => ?_, rfl,
          fun some => absurd rfl some,
          nofun, nofun, startedIDAT_consumed starts going⟩
      · obtain ⟨w, t, d, k, i⟩ := opened.describes
        exact ⟨w, t, d, k, i⟩
      · refine opened.plte (starts.complete.plte ?_)
        show s.hdr.colorType = colorTypePalette
        rw [opened.describes.colorType, palette]
        rfl
  | trailer _ _ trailed =>
    exact absurd started (pngPushStartIDAT_again sound' trailed.imaged.idat
      (trailed.imaged.after trailed.some))
  | body _ headed => cases fresh.symm.trans headed.header
  | signature now | image now | data now | done now => cases mode.symm.trans now

omit sound in
theorem Imaged.headed (imaged : Imaged format output f cs s) (t : List UInt8) (chunk : ChunkState) :
    Imaged format output f cs { headed s t with chunk } :=
  imaged.setMode (by rfl) (by rfl) (by rfl) (by exact id) s.hdr.userChunkCacheMax chunk

omit sound in
theorem Trailed.headed {tr : List FileChunk} (trailed : Trailed format output f cs tr s) (t : List UInt8) :
    Trailed format output f cs tr (headed s t) :=
  ⟨trailed.imaged.headed t _, trailed.some, trailed.ended, trailed.names, trailed.fine⟩

omit sound in
theorem Phase.chunk (mode : s.chunk.processMode = .readChunk)
    (fresh : s.hdr.mode.haveChunkHeader = false) (eight : t.length = 8) (good : GoodHeader t)
    (body : ChunkBody (headed s t) u s') (phase : Phase format output s b) :
    Phase format output s' (b ++ (t ++ u)) := by
  have notIDAT := body.name
  obtain ⟨c, bytes, name, hdr, handled, rfl⟩ := body.file (headed_spec s eight good)
  rw [← name] at notIDAT
  cases phase with
  | @opening cs _ none _ going opening =>
    have same : hdr.mode.haveIDAT = s.hdr.mode.haveIDAT :=
      (pngHandleChunk_ends (headed s t).hdr c.chunk).result handled
    have notIEND : c.name ≠ chunkIEND := by
      intro iend
      have late : (headed s t).hdr.mode.haveIDAT = true := pngHandleChunk_end (by exact iend) handled
      cases late.symm.trans none
    have opening' : Opening (Decoder.headed s t).hdr cs := opening.setMode (by rfl) (by rfl)
    have more := opening'.chunk notIDAT notIEND handled
    rw [bytes, ← fileBytes_snoc]
    unfold afterChunk
    rw [← name, if_neg notIEND]
    exact .opening mode (same.trans none) rfl going (more.setMode (by rfl) (by rfl))
  | trailer _ _ trailed =>
    rw [bytes]
    exact (trailed.headed t).phase mode name notIDAT handled
  | body _ headed => cases fresh.symm.trans headed.header
  | signature now | image now | data now | done now => cases mode.symm.trans now

omit sound in
theorem Phase.chunkBody (mode : s.chunk.processMode = .readChunk)
    (header : s.hdr.mode.haveChunkHeader = true) (body : ChunkBody s t s') (phase : Phase format output s b) :
    Phase format output s' (b ++ t) := by
  cases phase with
  | body _ at' notIDAT trailed =>
    obtain ⟨c, bytes, name, hdr, handled, rfl⟩ := body.file at'
    rw [List.append_assoc, bytes]
    exact trailed.phase mode name (by rw [name]; exact notIDAT) handled
  | opening _ _ fresh => cases fresh.symm.trans header
  | trailer _ fresh => cases fresh.symm.trans header
  | signature now | image now | data now | done now => cases mode.symm.trans now

omit sound in
theorem Phase.other (mode : s.chunk.processMode = .readIDAT)
    (fresh : s.hdr.mode.haveChunkHeader = false) (eight : t.length = 8) (good : GoodHeader t)
    (name : pngGetUint32 (t.drop 4) ≠ chunkIDAT) (ended : s.zstream.ended = true)
    (phase : Phase format output s b) :
    Phase format output { Decoder.headed s t with
      chunk := { (Decoder.headed s t).chunk with processMode := .readChunk } } (b ++ t) := by
  have at' := headed_spec s eight good
  cases phase with
  | @image f cs _ _ some imaged =>
    have trailed : Trailed format output f cs [] { Decoder.headed s t with
        chunk := { (Decoder.headed s t).chunk with processMode := .readChunk } } :=
      ⟨imaged.headed t _, some, ended, nofun, nofun⟩
    rw [← List.append_nil (f.chunks ++ cs)]
    exact .body rfl ⟨rfl, at'.eight, at'.good, at'.length, at'.name, at'.crc⟩ name trailed
  | data _ headed => cases fresh.symm.trans headed.header
  | signature now | opening now | trailer now | body now | done now => cases mode.symm.trans now

omit sound in
theorem Imaged.phase {image : ImageData env} (imaged : Imaged format output f cs s)
    (ready : ImageReady s.hdr (s.zstream, s.rows)) (mode : s.chunk.processMode = .readIDAT)
    (name : c.name = chunkIDAT) (fine : c.Fine) (decoded : decodeData s c.data = .ok image) :
    Phase format output (afterIDAT (afterBytes s c.data image)) (fileBytes (f.chunks ++ cs) ++ c.bytes) := by
  have some : cs ++ [c] ≠ [] := List.append_ne_nil_of_right_ne_nil cs (List.cons_ne_nil c [])
  rw [← fileBytes_snoc, List.append_assoc]
  exact .image mode rfl some (imaged.image ready name fine decoded)

theorem Phase.nextIDAT (mode : s.chunk.processMode = .readIDAT)
    (fresh : s.hdr.mode.haveChunkHeader = false) (eight : t.length = 8) (good : GoodHeader t)
    (idat : pngGetUint32 (t.drop 4) = chunkIDAT) (body : ImageBody (headedData s t) u s')
    (phase : Phase format output s b) : Phase format output s' (b ++ (t ++ u)) := by
  have first := headed_spec s eight good
  have at' : Headed (headedData s t) t :=
    ⟨first.header, first.eight, first.good, first.length, first.name, first.crc⟩
  have ready : ImageReady (headedData s t).hdr (s.zstream, s.rows) :=
    (sound.image (sound.reading mode)).2.1.setMode { s.hdr.mode with haveChunkHeader := true }
      s.hdr.userChunkCacheMax
  obtain ⟨c, bytes, name, fine, image, decoded, rfl⟩ := body.file at' idat rfl
  cases phase with
  | @image f cs _ _ _ imaged =>
    have imaged' : Imaged format output f cs (headedData s t) := imaged.headed t _
    rw [bytes]
    exact imaged'.phase ready mode name fine decoded
  | data _ headed => cases fresh.symm.trans headed.header
  | signature now | opening now | trailer now | body now | done now => cases mode.symm.trans now

theorem Phase.moreData (mode : s.chunk.processMode = .readIDAT)
    (header : s.hdr.mode.haveChunkHeader = true) (body : ImageBody s t s') (phase : Phase format output s b) :
    Phase format output s' (b ++ t) := by
  cases phase with
  | data _ at' idat size imaged =>
    obtain ⟨c, bytes, name, fine, image, decoded, rfl⟩ := body.file at' idat size
    rw [List.append_assoc, bytes]
    exact imaged.phase (sound.image (sound.reading mode)).2.1 mode name fine decoded
  | image _ fresh => cases fresh.symm.trans header
  | signature now | opening now | trailer now | body now | done now => cases mode.symm.trans now

include kept in
theorem Token.phase (phase : Phase format output s b) (token : Token s t s') :
    Phase format output s' (b ++ t) := by
  cases token with
  | signature mode eight same => exact phase.afterSig sound mode eight same
  | start mode fresh eight good _ idat started =>
    exact phase.start kept sound mode fresh eight good idat started
  | chunk mode fresh eight good _ body => exact phase.chunk mode fresh eight good body
  | body mode header body => exact phase.chunkBody mode header body
  | other mode fresh eight good name ended => exact phase.other mode fresh eight good name ended
  | data mode fresh eight good idat body => exact phase.nextIDAT sound mode fresh eight good idat body
  | moreData mode header body => exact phase.moreData sound mode header body

end Cases

theorem Tokens.phase (kept : RowInvariant env format output I) (tokens : Tokens s t s')
    (sound : Sound env format output I s) (pending : Pending s) (phase : Phase format output s b) :
    Phase format output s' (b ++ t) := by
  induction tokens generalizing b with
  | nil => rw [List.append_nil]; exact phase
  | cons _ token _ ih =>
    obtain ⟨sound', pending'⟩ := token.sound kept sound pending
    rw [← List.append_assoc]
    exact ih sound' pending' (token.phase kept sound phase)

end PngDecode.Decoder
