import PngDecode.Decoder.Runs

/-! # What a step takes from the input

A step of the reader that finds all it needs takes the signature, a chunk, or the part of a chunk
that its mode asks for, whatever comes behind it. A step that does not find all of it stops. -/

namespace PngDecode.Decoder
open PngDecode.Lib PngDecode.Libpng

variable {env : Env} {format : ColorFormat} {output b c p t : List UInt8}
  {I : Header → Rows → Prop} {s s' : Png env}

/-! ## The parts of a file -/

def afterSig (s : Png env) (bytes : List UInt8) : Png env :=
  { s with
    chunk := { s.chunk with
      signature := s.chunk.signature.take s.chunk.sigBytes ++ bytes
      sigBytes := s.chunk.sigBytes + bytes.length
      processMode :=
        if s.chunk.sigBytes + bytes.length ≥ 8 then .readChunk else s.chunk.processMode } }

theorem pngPushReadSig_live (s : Png env) (b : List UInt8) :
    pngPushReadSig (withInput s b) =
      let bytes := b.take (8 - s.chunk.sigBytes)
      let signature := s.chunk.signature.take s.chunk.sigBytes ++ bytes
      let numToCheck := bytes.length
      if pngSigCmp signature s.chunk.sigBytes numToCheck then
        pngError (withInput { s with
          chunk := { s.chunk with signature, sigBytes := s.chunk.sigBytes + numToCheck } }
          (b.drop (8 - s.chunk.sigBytes)))
          (if s.chunk.sigBytes < 4 &&
              pngSigCmp signature s.chunk.sigBytes ((numToCheck + 2 ^ 32 - 4) % 2 ^ 32) then
            "Not a PNG file"
          else "PNG file corrupted by ASCII conversion")
      else .ok (withInput (afterSig s bytes) (b.drop (8 - s.chunk.sigBytes))) := by
  have size : (live b).bufferSize = b.length := rfl
  unfold pngPushReadSig withInput
  dsimp only
  rw [pngPushFillBuffer_live, size, List.length_take]
  dsimp only
  rw [← List.take_eq_take_min, ← List.drop_eq_drop_min]
  split
  · split <;> simp_all
  · unfold afterSig
    rw [List.length_take]
    split <;> simp_all

structure ChunkBody (s : Png env) (t : List UInt8) (s' : Png env) : Prop where
  length : t.length = s.chunk.pushLength + 4
  name : s.chunk.chunkName ≠ chunkIDAT
  ihdr : s.chunk.chunkName = chunkIHDR → s.chunk.pushLength = 13
  handled : ∃ hdr, pngHandleChunk s.hdr (bodyChunk s t) = .ok hdr ∧ s' = afterChunk s hdr

def decodeData (s : Png env) (data : List UInt8) : Fallible (ImageData env) (ImageData env) :=
  if data = [] then .ok (s.zstream, s.rows)
  else pngProcessIDATData s.hdr (s.zstream, s.rows) data

def afterIDAT (s : Png env) : Png env :=
  { s with hdr := { s.hdr with
      mode := { s.hdr.mode with haveChunkHeader := false, afterIDAT := true } } }

structure ImageBody (s : Png env) (t : List UInt8) (s' : Png env) : Prop where
  length : t.length = s.chunk.idatSize + 4
  decoded : ∃ image, decodeData s (t.take s.chunk.idatSize) = .ok image ∧
    (∃ wrong, pngCrcFinish ⟨s.chunk.chunkName, [], pngGetUint32 (t.drop s.chunk.idatSize) ≠
      Zlib.crc32 s.chunk.crc (t.take s.chunk.idatSize)⟩ = .ok wrong) ∧
    s' = afterIDAT (afterBytes s (t.take s.chunk.idatSize) image)

def headed (s : Png env) (t : List UInt8) : Png env := (withHeader s t).setHaveChunkHeader true

def headedData (s : Png env) (t : List UInt8) : Png env :=
  { headed s t with chunk := { (headed s t).chunk with idatSize := (headed s t).chunk.pushLength } }

def GoodHeader (t : List UInt8) : Prop := ¬ (pngGetUint32 t).toNat > 0x7fffffff

/-- What one step takes, with the state behind it. -/
inductive Token : Png env → List UInt8 → Png env → Prop where
  | signature {s : Png env} {t : List UInt8} : s.chunk.processMode = .readSig →
      t.length = 8 - s.chunk.sigBytes →
      pngSigCmp (s.chunk.signature.take s.chunk.sigBytes ++ t) s.chunk.sigBytes t.length = false →
      Token s t (afterSig s t)
  | start {s : Png env} {t : List UInt8} {s' : Png env} : s.chunk.processMode = .readChunk →
      s.hdr.mode.haveChunkHeader = false → t.length = 8 → GoodHeader t →
      pngCheckChunkName (pngGetUint32 (t.drop 4)) = .ok () → pngGetUint32 (t.drop 4) = chunkIDAT →
      pngPushStartIDAT (headed s t) = .ok s' → Token s t s'
  | chunk {s : Png env} {t u : List UInt8} {s' : Png env} : s.chunk.processMode = .readChunk →
      s.hdr.mode.haveChunkHeader = false → t.length = 8 → GoodHeader t →
      pngCheckChunkName (pngGetUint32 (t.drop 4)) = .ok () → ChunkBody (headed s t) u s' →
      Token s (t ++ u) s'
  | body {s : Png env} {t : List UInt8} {s' : Png env} : s.chunk.processMode = .readChunk →
      s.hdr.mode.haveChunkHeader = true → ChunkBody s t s' → Token s t s'
  | other {s : Png env} {t : List UInt8} : s.chunk.processMode = .readIDAT →
      s.hdr.mode.haveChunkHeader = false → t.length = 8 → GoodHeader t →
      pngGetUint32 (t.drop 4) ≠ chunkIDAT → s.zstream.ended = true →
      Token s t { headed s t with chunk := { (headed s t).chunk with processMode := .readChunk } }
  | data {s : Png env} {t u : List UInt8} {s' : Png env} : s.chunk.processMode = .readIDAT →
      s.hdr.mode.haveChunkHeader = false → t.length = 8 → GoodHeader t →
      pngGetUint32 (t.drop 4) = chunkIDAT → ImageBody (headedData s t) u s' → Token s (t ++ u) s'
  | moreData {s : Png env} {t : List UInt8} {s' : Png env} : s.chunk.processMode = .readIDAT →
      s.hdr.mode.haveChunkHeader = true → ImageBody s t s' → Token s t s'

/-! ## A token and what follows it -/

theorem pngGetUint32_append (enough : 4 ≤ t.length) (c : List UInt8) :
    pngGetUint32 (t ++ c) = pngGetUint32 t := by
  rw [← pngGetUint32_take (Nat.le_refl 4), List.take_append_of_le_length enough,
    pngGetUint32_take (Nat.le_refl 4)]

theorem withHeader_append (s : Png env) (eight : t.length = 8) (c : List UInt8) :
    withHeader s (t ++ c) = withHeader s t := by
  have name : (t ++ c).drop 4 = t.drop 4 ++ c := List.drop_append_of_le_length (by omega)
  have four : (t.drop 4).length = 4 := by rw [List.length_drop]; omega
  unfold withHeader
  rw [name, pngGetUint32_append (by omega), pngGetUint32_append (by omega),
    List.take_append_of_le_length (by omega)]

theorem readChunkHeader_whole (s : Png env) (eight : t.length = 8) (good : GoodHeader t)
    (c : List UInt8) :
    readChunkHeader (withInput s (t ++ c)) = .ok (withInput (withHeader s t) c) := by
  rw [readChunkHeader_live, pngGetUint32_append (by omega), if_neg good, withHeader_append s eight,
    List.drop_left' eight]

theorem bodyChunk_append (s : Png env) (long : t.length = s.chunk.pushLength + 4)
    (c : List UInt8) : bodyChunk s (t ++ c) = bodyChunk s t := by
  have crc : (t.drop s.chunk.pushLength).length = 4 := by rw [List.length_drop]; omega
  unfold bodyChunk
  rw [List.take_append_of_le_length (by omega), List.drop_append_of_le_length (by omega),
    pngGetUint32_append (by omega)]

theorem ChunkBody.whole (body : ChunkBody s t s') (c : List UInt8) :
    pngPushReadChunkBody (withInput s (t ++ c)) = .ok (withInput s' c) := by
  obtain ⟨hdr, handled, rfl⟩ := body.handled
  have long := body.length
  have enough : ¬ s.chunk.pushLength + 4 > (t ++ c).length := by
    rw [List.length_append]
    omega
  have ihdr : ¬ (s.chunk.chunkName = chunkIHDR ∧ s.chunk.pushLength ≠ 13) :=
    fun wrong => wrong.2 (body.ihdr wrong.1)
  unfold pngPushReadChunkBody
  rw [if_neg (by exact body.name), if_neg (by exact ihdr), pngPushHandleChunk_live, if_neg enough,
    bodyChunk_append s long, handled, List.drop_left' long]

theorem finishIDAT_whole (done : s.chunk.idatSize = 0) (four : t.length = 4)
    {wrong : Bool}
    (crc : pngCrcFinish ⟨s.chunk.chunkName, [], pngGetUint32 t ≠ s.chunk.crc⟩ = .ok wrong)
    (c : List UInt8) :
    finishIDAT (withInput s (t ++ c)) = .ok (withInput (afterIDAT s) c) := by
  have enough : ¬ (t ++ c).length < 4 := by
    rw [List.length_append]
    omega
  rw [finishIDAT_live, if_neg (by simp [done]), if_neg enough, pngGetUint32_append (by omega), crc,
    List.drop_left' four]
  rfl

theorem ImageBody.whole (body : ImageBody s t s') (c : List UInt8) :
    pngPushReadIDATBytes (withInput s (t ++ c)) = .ok (withInput s' c) := by
  obtain ⟨image, decoded, ⟨wrong, crc⟩, rfl⟩ := body.decoded
  have long := body.length
  have four : (t.drop s.chunk.idatSize).length = 4 := by rw [List.length_drop]; omega
  have taken : (t.take s.chunk.idatSize).length = s.chunk.idatSize := by
    rw [List.length_take]; omega
  have front : (t ++ c).take s.chunk.idatSize = t.take s.chunk.idatSize :=
    List.take_append_of_le_length (by omega)
  have back : (t ++ c).drop s.chunk.idatSize = t.drop s.chunk.idatSize ++ c :=
    List.drop_append_of_le_length (by omega)
  rw [pngPushReadIDATBytes_live]
  by_cases some : s.chunk.idatSize = 0
  · rw [if_neg (by simp [some])]
    have empty : t.take s.chunk.idatSize = [] := by rw [some]; rfl
    rw [empty] at decoded crc ⊢
    rw [some, List.drop_zero, Zlib.crc32_nil] at crc
    cases decoded
    have same : afterBytes s [] (s.zstream, s.rows) = s := by
      unfold afterBytes
      rw [Zlib.crc32_nil]
      rfl
    rw [same]
    rw [some, List.drop_zero] at four
    exact finishIDAT_whole some four crc c
  · have more : t ++ c ≠ [] := by
      intro empty
      have := congrArg List.length empty
      rw [List.length_append, List.length_nil] at this
      omega
    have data : t.take s.chunk.idatSize ≠ [] := by
      intro empty
      rw [empty, List.length_nil] at taken
      omega
    rw [decodeData, if_neg data] at decoded
    rw [if_pos ⟨some, more⟩, front, decoded]
    dsimp only
    rw [back]
    refine finishIDAT_whole ?_ four crc c
    simp only [afterBytes, taken, Nat.sub_self]

theorem pngPushStartIDAT_live (s : Png env) (b : List UInt8) :
    pngPushStartIDAT (withInput s b) =
      ((pngPushStartIDAT s).map fun s => withInput s b).mapError
        fun e => (e.1, withInput e.2 b) := by
  unfold pngPushStartIDAT pngPushHaveInfo withInput
  dsimp only
  by_cases ihdr : (!s.hdr.mode.haveIHDR) = true
  · rw [if_pos ihdr, if_pos ihdr]
    rfl
  rw [if_neg ihdr, if_neg ihdr]
  by_cases plte : s.hdr.colorType = colorTypePalette ∧ (!s.hdr.mode.havePLTE) = true
  · rw [if_pos plte, if_pos plte]
    rfl
  rw [if_neg plte, if_neg plte]
  by_cases empty : s.hdr.mode.haveIDAT = true ∧
      (!(s.hdr.mode.haveChunkAfterIDAT || s.hdr.mode.afterIDAT)) = true ∧ s.chunk.pushLength = 0
  · rw [if_pos empty, if_pos empty]
    rfl
  rw [if_neg empty, if_neg empty]
  cases decodeInfoCallback env _ s.rows <;> rfl

/-! ## A step on a token -/

theorem step_readSig (mode : s.chunk.processMode = .readSig) (b : List UInt8) :
    pngProcessSomeData (withInput s b) = pngPushReadSig (withInput s b) := by
  unfold pngProcessSomeData
  rw [show (withInput s b).chunk.processMode = .readSig from mode]

theorem step_readChunk (mode : s.chunk.processMode = .readChunk) (b : List UInt8) :
    pngProcessSomeData (withInput s b) = pngPushReadChunk (withInput s b) := by
  unfold pngProcessSomeData
  rw [show (withInput s b).chunk.processMode = .readChunk from mode]

theorem step_readIDAT (mode : s.chunk.processMode = .readIDAT) (b : List UInt8) :
    pngProcessSomeData (withInput s b) = pngPushReadIDAT (withInput s b) := by
  unfold pngProcessSomeData
  rw [show (withInput s b).chunk.processMode = .readIDAT from mode]

theorem step_readDone (mode : s.chunk.processMode = .readDone) (b : List UInt8) :
    pngProcessSomeData (withInput s b) =
      .ok { s with input := { live b with bufferSize := 0 } } := by
  unfold pngProcessSomeData
  rw [show (withInput s b).chunk.processMode = .readDone from mode]
  rfl

section Fresh
variable (fresh : s.hdr.mode.haveChunkHeader = false) (eight : t.length = 8) (good : GoodHeader t)
include fresh eight good

theorem pngPushReadChunk_headed (named : pngCheckChunkName (pngGetUint32 (t.drop 4)) = .ok ())
    (c : List UInt8) :
    pngPushReadChunk (withInput s (t ++ c)) = pngPushReadChunkBody (withInput (headed s t) c) := by
  have none : ¬ (withInput s (t ++ c)).hdr.mode.haveChunkHeader = true := by
    intro some
    cases fresh.symm.trans some
  have enough : ¬ (withInput s (t ++ c)).input.bufferSize < 8 := by
    show ¬ (t ++ c).length < 8
    rw [List.length_append]
    omega
  unfold pngPushReadChunk
  rw [if_neg none, if_neg enough, readChunkHeader_whole s eight good, ok_bind,
    show (withInput (withHeader s t) c).chunk.chunkName = pngGetUint32 (t.drop 4) from rfl, named]
  rfl

theorem pngPushReadIDAT_headed (c : List UInt8) :
    pngPushReadIDAT (withInput s (t ++ c)) =
      if pngGetUint32 (t.drop 4) ≠ chunkIDAT then
        let s := { headed s t with
          chunk := { (headed s t).chunk with processMode := .readChunk } }
        if !s.zstream.ended then pngError (withInput s c) "Not enough compressed data"
        else .ok (withInput s c)
      else pngPushReadIDATBytes (withInput (headedData s t) c) := by
  have none : ¬ (withInput s (t ++ c)).hdr.mode.haveChunkHeader = true := by
    intro some
    cases fresh.symm.trans some
  have enough : ¬ (withInput s (t ++ c)).input.bufferSize < 8 := by
    show ¬ (t ++ c).length < 8
    rw [List.length_append]
    omega
  unfold pngPushReadIDAT
  rw [if_neg none, if_neg enough, readChunkHeader_whole s eight good, ok_bind]
  rfl

end Fresh

/-- A token is read the same whatever follows it. -/
theorem Token.whole (token : Token s t s') (c : List UInt8) :
    pngProcessSomeData (withInput s (t ++ c)) = .ok (withInput s' c) := by
  cases token with
  | signature mode length same =>
    have front : (t ++ c).take (8 - s.chunk.sigBytes) = t := List.take_left' length
    rw [step_readSig mode, pngPushReadSig_live, front]
    dsimp only
    rw [same, if_neg Bool.false_ne_true, List.drop_left' length]
  | start mode fresh eight good named idat started =>
    rw [step_readChunk mode, pngPushReadChunk_headed fresh eight good named, pngPushReadChunkBody,
      if_pos (by exact idat), pngPushStartIDAT_live, started]
    rfl
  | chunk mode fresh eight good named body =>
    rw [step_readChunk mode, List.append_assoc, pngPushReadChunk_headed fresh eight good named,
      body.whole]
  | body mode header body =>
    rw [step_readChunk mode, pngPushReadChunk, if_pos (by exact header), body.whole]
  | other mode fresh eight good name ended =>
    rw [step_readIDAT mode, pngPushReadIDAT_headed fresh eight good, if_pos name]
    dsimp only
    rw [if_neg]
    show ¬ (!s.zstream.ended) = true
    rw [ended]
    exact Bool.false_ne_true
  | data mode fresh eight good name body =>
    rw [step_readIDAT mode, List.append_assoc, pngPushReadIDAT_headed fresh eight good,
      if_neg (by simp [name]), body.whole]
  | moreData mode header body =>
    rw [step_readIDAT mode, pngPushReadIDAT, if_pos (by exact header), body.whole]

/-! ## A step on a part of a token -/

/-- The reader has taken all there was, and no image is complete that was not before. -/
structure Stops (s s' : Png env) : Prop where
  empty : s'.input.bufferSize = 0
  done : s'.rows.app.done = s.rows.app.done

theorem ChunkBody.cut (body : ChunkBody s t s') (short : p.length < t.length) :
    ∃ u, pngPushReadChunkBody (withInput s p) = .ok u ∧ Stops s u := by
  have long := body.length
  have ihdr : ¬ (s.chunk.chunkName = chunkIHDR ∧ s.chunk.pushLength ≠ 13) :=
    fun wrong => wrong.2 (body.ihdr wrong.1)
  refine ⟨saveBuffer (withInput s p), ?_, rfl, rfl⟩
  unfold pngPushReadChunkBody
  rw [if_neg (by exact body.name), if_neg (by exact ihdr), pngPushHandleChunk_live,
    if_pos (by omega)]

theorem finishIDAT_cut (short : b.length < 4) (rest : s.chunk.idatSize ≠ 0 → b = []) :
    ∃ u, finishIDAT (withInput s b) = .ok u ∧ u.input.bufferSize = 0 ∧ u.rows = s.rows := by
  rw [finishIDAT_live]
  split
  · next more =>
    rw [rest more]
    exact ⟨_, rfl, rfl, rfl⟩
  · exact ⟨_, rfl, rfl, rfl⟩

theorem ImageBody.cut (ready : ImageReady s.hdr (s.zstream, s.rows)) (body : ImageBody s t s')
    (front : p <+: t) (short : p.length < t.length) :
    ∃ u, pngPushReadIDATBytes (withInput s p) = .ok u ∧ Stops s u := by
  obtain ⟨rest, rfl⟩ := front
  obtain ⟨image, decoded, -, -⟩ := body.decoded
  have long := body.length
  rw [pngPushReadIDATBytes_live]
  split
  · next more =>
    -- the data that is there is decoded as in the whole chunk
    have taken : (p ++ rest).take s.chunk.idatSize =
        p.take s.chunk.idatSize ++ rest.take (s.chunk.idatSize - p.length) := List.take_append
    have data : (p ++ rest).take s.chunk.idatSize ≠ [] := by
      intro empty
      have := congrArg List.length empty
      have := List.length_pos_iff.mpr more.2
      rw [List.length_take, List.length_append, List.length_nil] at *
      omega
    rw [decodeData, if_neg data, taken] at decoded
    obtain ⟨image', part⟩ := pngProcessIDATData_part decoded
    have done := pngProcessIDATData_done ready part
    rw [part]
    dsimp only
    have left : (p.drop s.chunk.idatSize).length < 4 := by rw [List.length_drop]; omega
    obtain ⟨u, finish, empty, rows⟩ :=
      finishIDAT_cut (s := afterBytes s (p.take s.chunk.idatSize) image') left fun more => by
        simp only [afterBytes, List.length_take] at more
        exact List.drop_of_length_le (by omega)
    exact ⟨u, finish, empty, by rw [rows]; exact done⟩
  · next stuck =>
    have few : p.length < 4 ∧ (s.chunk.idatSize ≠ 0 → p = []) := by
      by_cases empty : p = []
      · rw [empty]
        exact ⟨by decide, fun _ => rfl⟩
      · have none : s.chunk.idatSize = 0 := by simpa [empty] using stuck
        exact ⟨by omega, fun some => absurd none some⟩
    obtain ⟨u, finish, empty, rows⟩ := finishIDAT_cut few.1 few.2
    exact ⟨u, finish, empty, by rw [rows]⟩

theorem pngPushReadChunk_short (fresh : s.hdr.mode.haveChunkHeader = false) (few : p.length < 8) :
    pngPushReadChunk (withInput s p) = .ok (saveBuffer (withInput s p)) := by
  have none : ¬ (withInput s p).hdr.mode.haveChunkHeader = true := by
    intro some
    cases fresh.symm.trans some
  unfold pngPushReadChunk
  rw [if_neg none, if_pos (by exact few)]

theorem pngPushReadIDAT_short (fresh : s.hdr.mode.haveChunkHeader = false) (few : p.length < 8) :
    pngPushReadIDAT (withInput s p) = .ok (saveBuffer (withInput s p)) := by
  have none : ¬ (withInput s p).hdr.mode.haveChunkHeader = true := by
    intro some
    cases fresh.symm.trans some
  unfold pngPushReadIDAT
  rw [if_neg none, if_pos (by exact few)]

theorem prefix_append_cases {t u p : List UInt8} (front : p <+: t ++ u)
    (short : p.length < (t ++ u).length) :
    p.length < t.length ∨ ∃ q, p = t ++ q ∧ q <+: u ∧ q.length < u.length := by
  rw [List.length_append] at short
  by_cases few : p.length < t.length
  · exact .inl few
  obtain ⟨q, rfl⟩ := List.prefix_of_prefix_length_le (List.prefix_append t u) front (by omega)
  rw [List.length_append] at short
  exact .inr ⟨q, rfl, (List.prefix_append_right_inj t).mp front, by omega⟩

/-- A step that finds a part of its token stops without an error. -/
theorem Token.cut (sound : Sound env format output I s) (token : Token s t s')
    (body : s.chunk.processMode ≠ .readSig) (front : p <+: t) (short : p.length < t.length) :
    ∃ u, pngProcessSomeData (withInput s p) = .ok u ∧ Stops s u := by
  have image (mode : s.chunk.processMode = .readIDAT) : ImageReady s.hdr (s.zstream, s.rows) :=
    (sound.image (sound.reading mode)).2.1
  cases token with
  | signature mode _ _ => exact absurd mode body
  | start mode fresh eight _ _ _ _ =>
    rw [step_readChunk mode, pngPushReadChunk_short fresh (by omega)]
    exact ⟨_, rfl, rfl, rfl⟩
  | chunk mode fresh eight good named rest =>
    rw [step_readChunk mode]
    rcases prefix_append_cases front short with few | ⟨q, rfl, front, short⟩
    · rw [pngPushReadChunk_short fresh (by omega)]
      exact ⟨_, rfl, rfl, rfl⟩
    · rw [pngPushReadChunk_headed fresh eight good named]
      obtain ⟨u, eq, empty, done⟩ := rest.cut short
      exact ⟨u, eq, empty, done⟩
  | body mode header rest =>
    rw [step_readChunk mode, pngPushReadChunk, if_pos (by exact header)]
    exact rest.cut short
  | other mode fresh eight _ _ _ =>
    rw [step_readIDAT mode, pngPushReadIDAT_short fresh (by omega)]
    exact ⟨_, rfl, rfl, rfl⟩
  | data mode fresh eight good name rest =>
    rw [step_readIDAT mode]
    rcases prefix_append_cases front short with few | ⟨q, rfl, front, short⟩
    · rw [pngPushReadIDAT_short fresh (by omega)]
      exact ⟨_, rfl, rfl, rfl⟩
    · rw [pngPushReadIDAT_headed fresh eight good, if_neg (by simp [name])]
      have ready (t : List UInt8) : ImageReady (headedData s t).hdr (s.zstream, s.rows) :=
        (image mode).setMode { s.hdr.mode with haveChunkHeader := true } s.hdr.userChunkCacheMax
      obtain ⟨u, eq, empty, done⟩ := rest.cut (ready _) front short
      exact ⟨u, eq, empty, done⟩
  | moreData mode header rest =>
    rw [step_readIDAT mode, pngPushReadIDAT, if_pos (by exact header)]
    exact rest.cut (image mode) front short

/-! ## A successful step -/

def TakesToken (s : Png env) (b : List UInt8) (s' : Png env) : Prop :=
  (∃ t c u, b = t ++ c ∧ Token s t u ∧ s' = withInput u c) ∨ Stops s s'

theorem pngPushReadSig_token (mode : s.chunk.processMode = .readSig)
    (result : pngPushReadSig (withInput s b) = .ok s') : TakesToken s b s' := by
  rw [pngPushReadSig_live] at result
  dsimp only at result
  split at result
  · cases result
  next same =>
  cases result
  by_cases enough : 8 - s.chunk.sigBytes ≤ b.length
  · have length : (b.take (8 - s.chunk.sigBytes)).length = 8 - s.chunk.sigBytes := by
      rw [List.length_take]
      omega
    exact .inl ⟨_, _, _, (List.take_append_drop (8 - s.chunk.sigBytes) b).symm,
      .signature mode length (by simpa using same), rfl⟩
  · refine .inr ⟨?_, rfl⟩
    show (b.drop (8 - s.chunk.sigBytes)).length = 0
    rw [List.length_drop]
    omega

theorem pngPushReadChunkBody_token (name : s.chunk.chunkName ≠ chunkIDAT)
    (result : pngPushReadChunkBody (withInput s b) = .ok s') :
    (∃ t c u, b = t ++ c ∧ ChunkBody s t u ∧ s' = withInput u c) ∨ Stops s s' := by
  unfold pngPushReadChunkBody at result
  rw [if_neg (by exact name)] at result
  split at result
  · cases result
  next ihdr =>
  rw [pngPushHandleChunk_live] at result
  split at result
  · cases result
    exact .inr ⟨rfl, rfl⟩
  next enough =>
  have length : (b.take (s.chunk.pushLength + 4)).length = s.chunk.pushLength + 4 := by
    rw [List.length_take]
    omega
  have split := (List.take_append_drop (s.chunk.pushLength + 4) b).symm
  have front := bodyChunk_append s length (b.drop (s.chunk.pushLength + 4))
  rw [← split] at front
  cases handled : pngHandleChunk s.hdr (bodyChunk s b) with
  | error jump => rw [handled] at result; cases result
  | ok hdr =>
    rw [handled] at result
    cases result
    refine .inl ⟨_, _, _, split, ⟨length, name, fun is => ?_, hdr, by rw [← front]; exact handled, rfl⟩,
      rfl⟩
    by_contra other
    exact ihdr ⟨is, other⟩

theorem finishIDAT_token (result : finishIDAT (withInput s b) = .ok s')
    (done : s.chunk.idatSize ≠ 0 → b = []) :
    (∃ t c wrong, b = t ++ c ∧ t.length = 4 ∧
      pngCrcFinish ⟨s.chunk.chunkName, [], pngGetUint32 t ≠ s.chunk.crc⟩ = .ok wrong ∧
      s' = withInput (afterIDAT s) c ∧ s.chunk.idatSize = 0) ∨
      s'.input.bufferSize = 0 ∧ s'.rows = s.rows := by
  rw [finishIDAT_live] at result
  split at result
  · next more =>
    cases result
    exact .inr ⟨congrArg List.length (done more), rfl⟩
  next none =>
  split at result
  · cases result
    exact .inr ⟨rfl, rfl⟩
  next enough =>
  have length : (b.take 4).length = 4 := by
    rw [List.length_take]
    omega
  have split := (List.take_append_drop 4 b).symm
  cases crc : pngCrcFinish ⟨s.chunk.chunkName, [], pngGetUint32 b ≠ s.chunk.crc⟩ with
  | error jump => rw [crc] at result; cases result
  | ok wrong =>
    rw [crc] at result
    cases result
    exact .inl ⟨_, _, wrong, split, length, by rw [pngGetUint32_take (Nat.le_refl 4)]; exact crc,
      rfl, by simpa using none⟩

theorem pngPushReadIDATBytes_token (ready : ImageReady s.hdr (s.zstream, s.rows))
    (result : pngPushReadIDATBytes (withInput s b) = .ok s') :
    (∃ t c u, b = t ++ c ∧ ImageBody s t u ∧ s' = withInput u c) ∨ Stops s s' := by
  rw [pngPushReadIDATBytes_live] at result
  split at result
  · next more =>
    have data : b.take s.chunk.idatSize ≠ [] := by
      simp only [ne_eq, List.take_eq_nil_iff, not_or]
      exact more
    cases loop : pngProcessIDATData s.hdr (s.zstream, s.rows) (b.take s.chunk.idatSize) with
    | error e => rw [loop] at result; cases result
    | ok image =>
      rw [loop] at result
      have done := pngProcessIDATData_done ready loop
      have rest : (afterBytes s (b.take s.chunk.idatSize) image).chunk.idatSize ≠ 0 →
          b.drop s.chunk.idatSize = [] := fun left => by
        simp only [afterBytes, List.length_take] at left
        exact List.drop_of_length_le (by omega)
      rcases finishIDAT_token result rest with ⟨t, c, wrong, split, four, crc, rfl, none⟩ | ⟨empty, rows⟩
      · have long : (b.take s.chunk.idatSize).length = s.chunk.idatSize := by
          simp only [afterBytes, List.length_take] at none ⊢
          omega
        refine .inl ⟨b.take s.chunk.idatSize ++ t, c, _, ?_, ⟨?_, image, ?_, ⟨wrong, ?_⟩, ?_⟩, rfl⟩
        · rw [List.append_assoc, ← split, List.take_append_drop]
        · rw [List.length_append, long, four]
        · rw [List.take_left' long, decodeData, if_neg data]
          exact loop
        · rw [List.drop_left' long, List.take_left' long]
          exact crc
        · rw [List.take_left' long]
      · exact .inr ⟨empty, by rw [rows]; exact done⟩
  · next stuck =>
    have rest : s.chunk.idatSize ≠ 0 → b = [] := fun some => by
      by_contra more
      exact stuck ⟨some, more⟩
    rcases finishIDAT_token result rest with ⟨t, c, wrong, rfl, four, crc, rfl, none⟩ | ⟨empty, rows⟩
    · have same : afterBytes s [] (s.zstream, s.rows) = s := by
        unfold afterBytes
        rw [Zlib.crc32_nil]
        rfl
      refine .inl ⟨t, c, _, rfl, ⟨by omega, (s.zstream, s.rows), ?_, ⟨wrong, ?_⟩, ?_⟩, rfl⟩
      · rw [none, List.take_zero, decodeData, if_pos rfl]
      · rw [none, List.take_zero, List.drop_zero, Zlib.crc32_nil]
        exact crc
      · rw [none, List.take_zero, same]
    · exact .inr ⟨empty, by rw [rows]⟩

theorem readChunkHeader_good (eight : t.length = 8)
    (result : readChunkHeader (withInput s (t ++ c)) = .ok s') : GoodHeader t := by
  intro large
  rw [readChunkHeader_live, pngGetUint32_append (by omega), if_pos large] at result
  cases result

theorem pngPushReadChunk_token (pending : Pending s) (mode : s.chunk.processMode = .readChunk)
    (result : pngPushReadChunk (withInput s b) = .ok s') : TakesToken s b s' := by
  by_cases header : s.hdr.mode.haveChunkHeader = true
  · unfold pngPushReadChunk at result
    rw [if_pos (by exact header)] at result
    rcases pngPushReadChunkBody_token (pending mode header) result with ⟨t, c, u, split, body, eq⟩ | stops
    · exact .inl ⟨t, c, u, split, .body mode header body, eq⟩
    · exact .inr stops
  have fresh : s.hdr.mode.haveChunkHeader = false := (Bool.not_eq_true _).mp header
  by_cases few : b.length < 8
  · rw [pngPushReadChunk_short fresh few] at result
    cases result
    exact .inr ⟨rfl, rfl⟩
  obtain ⟨t, c, rfl, eight⟩ : ∃ t c, b = t ++ c ∧ t.length = 8 :=
    ⟨b.take 8, b.drop 8, (List.take_append_drop 8 b).symm, by rw [List.length_take]; omega⟩
  have good : GoodHeader t := by
    unfold pngPushReadChunk at result
    rw [if_neg (by exact header), if_neg (by exact few)] at result
    obtain ⟨s₁, read, -⟩ := bind_ok result
    exact readChunkHeader_good eight read
  have named : pngCheckChunkName (pngGetUint32 (t.drop 4)) = .ok () := by
    unfold pngPushReadChunk at result
    rw [if_neg (by exact header), if_neg (by exact few), readChunkHeader_whole s eight good,
      ok_bind, show (withInput (withHeader s t) c).chunk.chunkName = pngGetUint32 (t.drop 4)
        from rfl] at result
    cases check : pngCheckChunkName (pngGetUint32 (t.drop 4)) with
    | error jump => rw [check] at result; cases result
    | ok _ => rfl
  rw [pngPushReadChunk_headed fresh eight good named] at result
  by_cases idat : pngGetUint32 (t.drop 4) = chunkIDAT
  · unfold pngPushReadChunkBody at result
    rw [if_pos (by exact idat), pngPushStartIDAT_live] at result
    cases started : pngPushStartIDAT (headed s t) with
    | error e => rw [started] at result; cases result
    | ok u =>
      rw [started] at result
      cases result
      exact .inl ⟨t, c, u, rfl, .start mode fresh eight good named idat started, rfl⟩
  · rcases pngPushReadChunkBody_token idat result with ⟨d, e, u, rfl, body, eq⟩ | ⟨empty, done⟩
    · exact .inl ⟨t ++ d, e, u, (List.append_assoc ..).symm,
        .chunk mode fresh eight good named body, eq⟩
    · exact .inr ⟨empty, done⟩

theorem pngPushReadIDAT_token (sound : Sound env format output I s)
    (mode : s.chunk.processMode = .readIDAT)
    (result : pngPushReadIDAT (withInput s b) = .ok s') : TakesToken s b s' := by
  have image := (sound.image (sound.reading mode)).2.1
  by_cases header : s.hdr.mode.haveChunkHeader = true
  · unfold pngPushReadIDAT at result
    rw [if_pos (by exact header)] at result
    rcases pngPushReadIDATBytes_token image result with ⟨t, c, u, split, body, eq⟩ | stops
    · exact .inl ⟨t, c, u, split, .moreData mode header body, eq⟩
    · exact .inr stops
  have fresh : s.hdr.mode.haveChunkHeader = false := (Bool.not_eq_true _).mp header
  by_cases few : b.length < 8
  · rw [pngPushReadIDAT_short fresh few] at result
    cases result
    exact .inr ⟨rfl, rfl⟩
  obtain ⟨t, c, rfl, eight⟩ : ∃ t c, b = t ++ c ∧ t.length = 8 :=
    ⟨b.take 8, b.drop 8, (List.take_append_drop 8 b).symm, by rw [List.length_take]; omega⟩
  have good : GoodHeader t := by
    unfold pngPushReadIDAT at result
    rw [if_neg (by exact header), if_neg (by exact few)] at result
    obtain ⟨s₁, read, -⟩ := bind_ok result
    exact readChunkHeader_good eight read
  rw [pngPushReadIDAT_headed fresh eight good] at result
  split at result
  · next other =>
    dsimp only at result
    split at result
    · cases result
    · next ended =>
      cases result
      have ended : ¬ (!s.zstream.ended) = true := ended
      have ended : s.zstream.ended = true := by simpa using ended
      exact .inl ⟨t, c, _, rfl, .other mode fresh eight good other ended, rfl⟩
  · next idat =>
    have idat : pngGetUint32 (t.drop 4) = chunkIDAT := by simpa using idat
    have ready : ImageReady (headedData s t).hdr (s.zstream, s.rows) :=
      image.setMode { s.hdr.mode with haveChunkHeader := true } s.hdr.userChunkCacheMax
    rcases pngPushReadIDATBytes_token (s := headedData s t) ready result with
      ⟨d, e, u, rfl, body, eq⟩ | ⟨empty, done⟩
    · exact .inl ⟨t ++ d, e, u, (List.append_assoc ..).symm,
        .data mode fresh eight good idat body, eq⟩
    · exact .inr ⟨empty, done⟩

theorem step_token (sound : Sound env format output I s) (pending : Pending s)
    (going : s.chunk.processMode ≠ .readDone)
    (result : pngProcessSomeData (withInput s b) = .ok s') : TakesToken s b s' := by
  cases mode : s.chunk.processMode with
  | readSig => exact pngPushReadSig_token mode (by rw [← step_readSig mode]; exact result)
  | readChunk =>
    exact pngPushReadChunk_token pending mode (by rw [← step_readChunk mode]; exact result)
  | readIDAT => exact pngPushReadIDAT_token sound mode (by rw [← step_readIDAT mode]; exact result)
  | readDone => exact absurd mode going

/-! ## Tokens in a row -/

inductive Tokens : Png env → List UInt8 → Png env → Prop where
  | nil (s : Png env) : Tokens s [] s
  | cons {s u v : Png env} {t c : List UInt8} : s.chunk.processMode ≠ .readDone → Token s t u →
      Tokens u c v → Tokens s (t ++ c) v

theorem Token.some (sound : Sound env format output I s) (token : Token s t s') : t ≠ [] := by
  intro empty
  have length := congrArg List.length empty
  rw [List.length_nil] at length
  cases token with
  | signature mode eight _ => have := (sound.signature mode).1; omega
  | start _ _ eight _ _ _ _ => omega
  | chunk _ _ eight _ _ _ => rw [List.length_append] at length; omega
  | body _ _ body => have := body.length; omega
  | other _ _ eight _ _ _ => omega
  | data _ _ eight _ _ _ => rw [List.length_append] at length; omega
  | moreData _ _ body => have := body.length; omega

theorem Token.sound (kept : RowInvariant env format output I) (sound : Sound env format output I s)
    (pending : Pending s) (token : Token s t s') :
    Sound env format output I s' ∧ Pending s' := by
  have step := token.whole []
  rw [List.append_nil] at step
  obtain ⟨sound', pending', -⟩ :=
    (pngProcessSomeData_ends kept sound pending (token.some sound)).result step
  exact ⟨sound'.setInput s'.input, pending'⟩

theorem ChunkBody.mode (body : ChunkBody s t s') :
    s'.chunk.processMode = .readDone ∨ s'.chunk.processMode = s.chunk.processMode := by
  obtain ⟨hdr, -, rfl⟩ := body.handled
  unfold afterChunk
  split
  · exact .inl rfl
  · exact .inr rfl

theorem ImageBody.mode (body : ImageBody s t s') :
    s'.chunk.processMode = s.chunk.processMode := by
  obtain ⟨image, -, -, rfl⟩ := body.decoded
  rfl

theorem Token.pastSignature (kept : RowInvariant env format output I) (sound : Sound env format output I s)
    (token : Token s t s') : s'.chunk.processMode ≠ .readSig := by
  intro sig
  cases token with
  | signature mode eight _ =>
    have few := (sound.signature mode).1
    simp only [afterSig] at sig
    rw [if_pos (by omega)] at sig
    cases sig
  | @start _ _ mode fresh _ _ _ _ started =>
    have headed := (sound.withHeader t).setHaveChunkHeader kept true
      fun unread => by cases mode.symm.trans unread
    have reading := ((pngPushStartIDAT_ends kept headed mode).result started).2.2.2
    rw [reading] at sig
    cases sig
  | chunk mode _ _ _ _ body =>
    rcases body.mode with done | same
    · rw [done] at sig; cases sig
    · rw [same] at sig; cases mode.symm.trans sig
  | body mode _ body =>
    rcases body.mode with done | same
    · rw [done] at sig; cases sig
    · rw [same] at sig; cases mode.symm.trans sig
  | other => cases sig
  | data mode _ _ _ _ body => cases mode.symm.trans (body.mode.symm.trans sig)
  | moreData mode _ body => cases mode.symm.trans (body.mode.symm.trans sig)

theorem Tokens.sound (kept : RowInvariant env format output I) (tokens : Tokens s t s')
    (sound : Sound env format output I s) (pending : Pending s) :
    Sound env format output I s' ∧ Pending s' := by
  induction tokens with
  | nil => exact ⟨sound, pending⟩
  | cons _ token _ ih =>
    obtain ⟨sound', pending'⟩ := token.sound kept sound pending
    exact ih sound' pending'

theorem Tokens.snoc {u v : Png env} (tokens : Tokens s t u)
    (more : u.chunk.processMode ≠ .readDone) (token : Token u c v) : Tokens s (t ++ c) v := by
  induction tokens with
  | nil =>
    rw [List.nil_append]
    have one := Tokens.cons more token (.nil v)
    rwa [List.append_nil] at one
  | cons going first _ ih =>
    rw [List.append_assoc]
    exact .cons going first (ih more token)

theorem bufferEmpty_some (some : b ≠ []) : bufferEmpty (withInput s b) = false := by
  rw [bufferEmpty, decide_eq_false_iff_not]
  intro none
  exact some (List.length_eq_zero_iff.mp none)

theorem Tokens.whole (kept : RowInvariant env format output I) (tokens : Tokens s t s')
    (sound : Sound env format output I s) (pending : Pending s) (c : List UInt8) :
    Reaches bufferEmpty pngProcessSomeData (withInput s (t ++ c)) (withInput s' c) := by
  induction tokens with
  | nil => exact .refl _
  | @cons s u v t rest _ token _ ih =>
    obtain ⟨sound', pending'⟩ := token.sound kept sound pending
    rw [List.append_assoc]
    have some : t ++ (rest ++ c) ≠ [] := List.append_ne_nil_of_left_ne_nil (token.some sound) _
    exact .step (bufferEmpty_some some) (token.whole _) (ih sound' pending')

theorem Tokens.cut (kept : RowInvariant env format output I) (tokens : Tokens s t s')
    (sound : Sound env format output I s) (pending : Pending s)
    (body : s.chunk.processMode ≠ .readSig) (front : p <+: t) (short : p.length < t.length) :
    ∃ u, Reaches bufferEmpty pngProcessSomeData (withInput s p) u ∧ bufferEmpty u = true ∧
      u.rows.app.done = false := by
  induction tokens generalizing p with
  | nil => simp at short
  | @cons s u v t rest going token _ ih =>
    have fresh : s.rows.app.done = false := sound.going rfl going
    by_cases none : p = []
    · rw [none]
      exact ⟨_, .refl _, rfl, fresh⟩
    rcases prefix_append_cases front short with few | ⟨q, rfl, front, short⟩
    · have front : p <+: t := List.prefix_of_prefix_length_le front (List.prefix_append t rest)
        (Nat.le_of_lt few)
      obtain ⟨u, step, empty, done⟩ := token.cut sound body front few
      exact ⟨u, .step (bufferEmpty_some none) step (.refl u), decide_eq_true empty, done.trans fresh⟩
    · obtain ⟨sound', pending'⟩ := token.sound kept sound pending
      obtain ⟨v, reaches, empty, done⟩ := ih sound' pending' (token.pastSignature kept sound) front short
      exact ⟨v, .step (bufferEmpty_some none) (token.whole q) reaches, empty, done⟩

/-! ## The tokens of a complete file -/

theorem reaches_empty {u v : Png env} (reaches : Reaches bufferEmpty pngProcessSomeData u v)
    (empty : bufferEmpty u = true) : v = u := by
  cases reaches with
  | refl => rfl
  | step more _ _ => cases empty.symm.trans more

theorem reaches_readDone {u : Png env}
    (reaches : Reaches bufferEmpty pngProcessSomeData (withInput s b) u)
    (mode : s.chunk.processMode = .readDone) : u.hdr = s.hdr ∧ u.rows = s.rows := by
  cases reaches with
  | refl => exact ⟨rfl, rfl⟩
  | step _ step rest =>
    rw [step_readDone mode] at step
    cases step
    rw [reaches_empty rest rfl]
    exact ⟨rfl, rfl⟩

/-- A run that ends with the image complete takes tokens up to the one that completes it. -/
theorem run_tokens (kept : RowInvariant env format output I) (sound : Sound env format output I s)
    (pending : Pending s) (going : s.chunk.processMode ≠ .readDone)
    (run : Reaches bufferEmpty pngProcessSomeData (withInput s b) s')
    (done : s'.rows.app.done = true) :
    ∃ t c u, b = t ++ c ∧ Tokens s t u ∧ u.chunk.processMode = .readDone ∧
      s'.hdr = u.hdr ∧ s'.rows = u.rows := by
  generalize start : withInput s b = a at run
  induction run generalizing s b with
  | refl =>
    subst start
    rw [show (withInput s b).rows.app.done = false from sound.going rfl going] at done
    cases done
  | @step _ m _ more step rest ih =>
    subst start
    rcases step_token sound pending going step with ⟨t, c, u, rfl, token, rfl⟩ | ⟨empty, same⟩
    · obtain ⟨sound', pending'⟩ := token.sound kept sound pending
      by_cases last : u.chunk.processMode = .readDone
      · exact ⟨t, c, u, rfl, by simpa using Tokens.cons going token (.nil u), last,
          reaches_readDone rest last⟩
      · obtain ⟨t', c', v, rfl, tokens, mode, rows⟩ := ih sound' pending' last done rfl
        exact ⟨t ++ t', c', v, (List.append_assoc ..).symm, .cons going token tokens, mode, rows⟩
    · rw [reaches_empty rest (decide_eq_true empty), same, sound.going rfl going] at done
      cases done

end PngDecode.Decoder
