import PngDecode.Decoder.ImageData
import PngDecode.Decoder.Decode

/-! # The reader on the input of `Decode`

`Decode` gives libpng the whole input at once, so nothing is saved while there is input to read.
What the functions of the reader do with such an input is written out here as equations. -/

namespace PngDecode.Decoder
open PngDecode.Lib PngDecode.Libpng

variable {env : Env} {b : List UInt8} {s : Png env}

/-! ## Input that has not been saved -/

def live (b : List UInt8) : Input := { saveBuffer := [], currentBuffer := b, bufferSize := b.length }

def withInput (s : Png env) (b : List UInt8) : Png env := { s with input := live b }

theorem pngPushFillBuffer_live (b : List UInt8) (n : Nat) :
    pngPushFillBuffer (live b) n = (b.take n, live (b.drop n)) := by
  simp only [pngPushFillBuffer, live, List.take_nil, List.length_nil, Nat.sub_zero,
    List.nil_append, List.drop_nil, Prod.mk.injEq, true_and, Input.mk.injEq, List.length_drop]
  constructor
  · rw [List.length_take]
    by_cases short : n ≤ b.length
    · rw [Nat.min_eq_left short]
    · rw [Nat.min_eq_right (by omega), List.drop_length, List.drop_of_length_le (by omega)]
  · rw [List.length_take]
    omega

/-! ## Chunks -/

def withHeader (s : Png env) (b : List UInt8) : Png env :=
  { s with
    chunk := { s.chunk with
      pushLength := (pngGetUint32 b).toNat
      crc := Zlib.crc32 0 ((b.drop 4).take 4)
      chunkName := pngGetUint32 (b.drop 4) } }

theorem readChunkHeader_live (s : Png env) (b : List UInt8) :
    readChunkHeader (withInput s b) =
      if (pngGetUint32 b).toNat > 0x7fffffff then
        .error (.pngError none "PNG unsigned integer out of range", withInput s (b.drop 4))
      else .ok (withInput (withHeader s b) (b.drop 8)) := by
  unfold readChunkHeader withInput
  dsimp only
  rw [pngPushFillBuffer_live]
  dsimp only
  unfold pngGetUint31
  rw [pngGetUint32_take (by decide)]
  by_cases large : (pngGetUint32 b).toNat > 0x7fffffff
  · rw [if_pos large, if_pos large]
  · rw [if_neg large, if_neg large]
    dsimp only
    rw [pngPushFillBuffer_live, List.drop_drop]
    dsimp only
    rw [pngGetUint32_take (by decide)]
    rfl

def bodyChunk (s : Png env) (b : List UInt8) : Chunk where
  name := s.chunk.chunkName
  data := b.take s.chunk.pushLength
  crcError := pngGetUint32 (b.drop s.chunk.pushLength) ≠
    Zlib.crc32 s.chunk.crc (b.take s.chunk.pushLength)

def afterChunk (s : Png env) (hdr : Header) : Png env :=
  Png.setHaveChunkHeader
    (if s.chunk.chunkName = chunkIEND then
      { s with
        hdr, chunk := { s.chunk with processMode := .readDone }, rows := decodeEndCallback s.rows }
    else { s with hdr }) false

theorem pngPushHandleChunk_live (s : Png env) (b : List UInt8) :
    pngPushHandleChunk (withInput s b) =
      if s.chunk.pushLength + 4 > b.length then .ok (saveBuffer (withInput s b))
      else
        match pngHandleChunk s.hdr (bodyChunk s b) with
        | .error jump => .error (jump, withInput s (b.drop (s.chunk.pushLength + 4)))
        | .ok hdr => .ok (withInput (afterChunk s hdr) (b.drop (s.chunk.pushLength + 4))) := by
  unfold pngPushHandleChunk withInput
  dsimp only
  by_cases short : s.chunk.pushLength + 4 > b.length
  · rw [if_pos short, if_pos (by exact short)]
  rw [if_neg short, if_neg (by exact short), pngPushFillBuffer_live]
  dsimp only
  rw [pngPushFillBuffer_live, List.drop_drop]
  dsimp only
  rw [pngGetUint32_take (by decide)]
  unfold bodyChunk
  cases pngHandleChunk s.hdr _ with
  | error jump => rfl
  | ok hdr =>
    dsimp only
    unfold afterChunk
    split <;> rfl

/-! ## Image data -/

theorem finishIDAT_live (s : Png env) (b : List UInt8) :
    finishIDAT (withInput s b) =
      if s.chunk.idatSize ≠ 0 then .ok (withInput s b)
      else if b.length < 4 then .ok (saveBuffer (withInput s b))
      else
        match pngCrcFinish ⟨s.chunk.chunkName, [], pngGetUint32 b ≠ s.chunk.crc⟩ with
        | .error jump => .error (jump, withInput s (b.drop 4))
        | .ok _ =>
          .ok (withInput { s with
            hdr := { s.hdr with
              mode := { s.hdr.mode with haveChunkHeader := false, afterIDAT := true } } }
            (b.drop 4)) := by
  unfold finishIDAT withInput
  dsimp only
  rw [pngPushFillBuffer_live]
  dsimp only
  rw [pngGetUint32_take (by decide)]
  rfl

def afterBytes (s : Png env) (bytes : List UInt8) (image : ImageData env) : Png env :=
  { s with
    zstream := image.1
    rows := image.2
    chunk := { s.chunk with
      crc := Zlib.crc32 s.chunk.crc bytes, idatSize := s.chunk.idatSize - bytes.length } }

theorem pngPushReadIDATBytes_live (s : Png env) (b : List UInt8) :
    pngPushReadIDATBytes (withInput s b) =
      if s.chunk.idatSize ≠ 0 ∧ b ≠ [] then
        match pngProcessIDATData s.hdr (s.zstream, s.rows) (b.take s.chunk.idatSize) with
        | .error (jump, image) => .error (jump, { withInput s b with
            zstream := image.1
            rows := image.2
            chunk := { s.chunk with crc := Zlib.crc32 s.chunk.crc (b.take s.chunk.idatSize) } })
        | .ok image =>
          finishIDAT (withInput (afterBytes s (b.take s.chunk.idatSize) image)
            (b.drop s.chunk.idatSize))
      else finishIDAT (withInput s b) := by
  have left : b.length - min s.chunk.idatSize b.length = b.length - s.chunk.idatSize := by omega
  unfold pngPushReadIDATBytes onlyIf withInput live
  dsimp only
  rw [if_neg (by simp), ok_bind]
  dsimp only
  simp only [ne_eq, List.length_eq_zero_iff]
  split
  · unfold readCurrentIDAT processIDATBytes
    dsimp only
    rw [← List.take_eq_take_min, ← List.drop_eq_drop_min, left, ← List.length_drop]
    cases pngProcessIDATData s.hdr (s.zstream, s.rows) (b.take s.chunk.idatSize) <;> rfl
  · rfl

end PngDecode.Decoder
