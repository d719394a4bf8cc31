import PngDecode.Lib.Fallible
import PngDecode.Libpng.Chunks
import PngDecode.Libpng.ProcessRow
import PngDecode.Zlib.Crc32

/-! # The progressive reader of `pngpread.c`

Input is taken from the save buffer and the current buffer; what a step cannot use yet goes to
the save buffer and ends the call. -/

namespace PngDecode.Libpng
open PngDecode.Lib PngDecode.Decoder PngDecode.Zlib

variable {env : Env}

/-! ## Input -/

def pngPushFillBuffer (i : Input) (length : Nat) : List UInt8 × Input :=
  let saved := i.saveBuffer.take length
  let current := i.currentBuffer.take (length - saved.length)
  (saved ++ current,
    { saveBuffer := i.saveBuffer.drop saved.length
      currentBuffer := i.currentBuffer.drop current.length
      bufferSize := i.bufferSize - saved.length - current.length })

def pngPushSaveBuffer (i : Input) : Input :=
  { saveBuffer := i.saveBuffer ++ i.currentBuffer, currentBuffer := [], bufferSize := 0 }

def pngPushRestoreBuffer (i : Input) (buffer : List UInt8) : Input :=
  { i with currentBuffer := buffer, bufferSize := buffer.length + i.saveBuffer.length }

/-! ## The image data -/

def Rows.finished (r : Rows) : Bool := r.rowNumber ≥ r.numRows || r.pass > 6

abbrev ImageData (env : Env) := Zstream env.inflate × Rows

def prepareRow (h : Header) (s : ImageData env) : ImageData env :=
  if s.1.availOut > 0 then s
  else
    ({ s.1 with availOut := rowbytes h.pixelDepth s.2.iwidth + 1 }, { s.2 with rowBuf := [] })

/-- What `inflate` has put out is taken; `ended` says whether the stream has ended. -/
def takeRow (h : Header) (s : ImageData env) (ended : Bool) :
    Fallible (ImageData env) (ImageData env) :=
  let (z, r) := s
  if r.rowBuf ≠ [] then
    if r.finished then .ok ({ z with ended := true }, r)
    else if z.availOut = 0 then
      match pngPushProcessRow h r with
      | .ok r => .ok ({ z with ended }, r)
      | .error (jump, r) => .error (jump, (z, r))
    else .ok ({ z with ended }, r)
  else .ok ({ z with ended }, r)

def takeInflated (h : Header) (s : ImageData env) (ret : StreamDecoder.Ret) :
    Fallible (ImageData env) (ImageData env) :=
  match ret with
  | .error _ =>
    let s : ImageData env := ({ s.1 with ended := true }, s.2)
    if s.2.finished then .ok s else pngError s "Decompression error in IDAT"
  | .streamEnd => takeRow h s true
  | .ok => takeRow h s s.1.ended

def pngInflateIDAT (h : Header) (s : ImageData env) : Fallible (ImageData env) (ImageData env) :=
  let (z, r) := prepareRow h s
  let call := env.inflate.run z.inflate z.nextIn z.availOut
  takeInflated h
    ({ z with
        inflate := call.state, nextIn := call.rest, availOut := z.availOut - call.out.length },
      { r with rowBuf := r.rowBuf ++ call.out }) call.ret

def imageDataDone (s : ImageData env) : Bool := s.1.nextIn.isEmpty || s.1.ended

/-- `png_process_IDAT_data`; a round that does not end the loop processes a row. -/
def pngProcessIDATData (h : Header) (s : ImageData env) (buffer : List UInt8) :
    Fallible (ImageData env) (ImageData env) :=
  let s : ImageData env := ({ s.1 with nextIn := buffer }, s.2)
  iterate imageDataDone (pngInflateIDAT h) (fun s => (Jump.outOfFuel, s)) (7 * s.2.numRows + 1) s

def processIDATBytes (s : Png env) (input : Input) (bytes : List UInt8) :
    Fallible (Png env) (Png env) :=
  let chunk := { s.chunk with crc := crc32 s.chunk.crc bytes }
  match pngProcessIDATData s.hdr (s.zstream, s.rows) bytes with
  | .ok (zstream, rows) =>
    .ok { s with
      zstream, rows, input, chunk := { chunk with idatSize := chunk.idatSize - bytes.length } }
  | .error (jump, zstream, rows) => .error (jump, { s with zstream, rows, chunk })

/-! ## Chunks -/

def saveBuffer (s : Png env) : Png env := { s with input := pngPushSaveBuffer s.input }

def readChunkHeader (s : Png env) : Fallible (Png env) (Png env) :=
  let (chunkLength, input) := pngPushFillBuffer s.input 4
  match pngGetUint31 chunkLength with
  | .error jump => .error (jump, { s with input })
  | .ok pushLength =>
    let (chunkTag, input) := pngPushFillBuffer input 4
    .ok { s with
      input
      chunk := { s.chunk with
        pushLength, crc := crc32 0 chunkTag, chunkName := pngGetUint32 chunkTag } }

def Png.setHaveChunkHeader (s : Png env) (have' : Bool) : Png env :=
  { s with hdr := { s.hdr with mode := { s.hdr.mode with haveChunkHeader := have' } } }

/-- `png_crc_finish` of an `IDAT` chunk, and the end of the chunk. -/
def finishIDAT (s : Png env) : Fallible (Png env) (Png env) :=
  if s.chunk.idatSize ≠ 0 then .ok s
  else if s.input.bufferSize < 4 then .ok (saveBuffer s)
  else
    let (crc, input) := pngPushFillBuffer s.input 4
    let c : Chunk := ⟨s.chunk.chunkName, [], pngGetUint32 crc ≠ s.chunk.crc⟩
    match pngCrcFinish c with
    | .error jump => .error (jump, { s with input })
    | .ok _ =>
      .ok { s with
        input
        hdr := { s.hdr with
          mode := { s.hdr.mode with haveChunkHeader := false, afterIDAT := true } } }

def readSavedIDAT (s : Png env) : Fallible (Png env) (Png env) :=
  let saveSize := min s.chunk.idatSize s.input.saveBuffer.length
  processIDATBytes s
    { s.input with
      saveBuffer := s.input.saveBuffer.drop saveSize
      bufferSize := s.input.bufferSize - saveSize }
    (s.input.saveBuffer.take saveSize)

def readCurrentIDAT (s : Png env) : Fallible (Png env) (Png env) :=
  let saveSize := min s.chunk.idatSize s.input.currentBuffer.length
  processIDATBytes s
    { s.input with
      currentBuffer := s.input.currentBuffer.drop saveSize
      bufferSize := s.input.bufferSize - saveSize }
    (s.input.currentBuffer.take saveSize)

/-- `png_push_read_IDAT` behind the header of the chunk. -/
def pngPushReadIDATBytes (s : Png env) : Fallible (Png env) (Png env) := do
  let s ← onlyIf (s.chunk.idatSize ≠ 0 ∧ s.input.saveBuffer.length ≠ 0) readSavedIDAT s
  let s ← onlyIf (s.chunk.idatSize ≠ 0 ∧ s.input.currentBuffer.length ≠ 0) readCurrentIDAT s
  finishIDAT s

def pngPushReadIDAT (s : Png env) : Fallible (Png env) (Png env) :=
  if s.hdr.mode.haveChunkHeader then pngPushReadIDATBytes s
  else if s.input.bufferSize < 8 then .ok (saveBuffer s)
  else do
    let s ← readChunkHeader s
    let s := s.setHaveChunkHeader true
    if s.chunk.chunkName ≠ chunkIDAT then
      let s := { s with chunk := { s.chunk with processMode := .readChunk } }
      if !s.zstream.ended then pngError s "Not enough compressed data" else .ok s
    else
      pngPushReadIDATBytes { s with chunk := { s.chunk with idatSize := s.chunk.pushLength } }

/-- The info callback, which ends in `png_read_update_info` and so claims the zlib stream. -/
def pngPushHaveInfo (s : Png env) : Fallible (Png env) (Png env) :=
  match decodeInfoCallback env s.hdr s.rows with
  | .error (jump, rows) => .error (jump, { s with rows })
  | .ok (hdr, rows) =>
    .ok { s with
      hdr, rows
      zstream := { s.zstream with inflate := env.inflate.init, nextIn := [], availOut := 0 } }

/-- The branch of `png_push_read_chunk` for an `IDAT` chunk. -/
def pngPushStartIDAT (s : Png env) : Fallible (Png env) (Png env) :=
  let s := { s with
    hdr := { s.hdr with
      mode := { s.hdr.mode with
        haveChunkAfterIDAT := s.hdr.mode.haveChunkAfterIDAT || s.hdr.mode.afterIDAT } } }
  if !s.hdr.mode.haveIHDR then pngError s "Missing IHDR before IDAT"
  else if s.hdr.colorType = colorTypePalette ∧ !s.hdr.mode.havePLTE then
    pngError s "Missing PLTE before IDAT"
  else
    let s := { s with chunk := { s.chunk with processMode := .readIDAT } }
    if s.hdr.mode.haveIDAT ∧ !s.hdr.mode.haveChunkAfterIDAT ∧ s.chunk.pushLength = 0 then .ok s
    else do
      -- "Too many IDATs found" is a benign error
      let s := { s with
        hdr := { s.hdr with mode := { s.hdr.mode with haveIDAT := true } }
        chunk := { s.chunk with idatSize := s.chunk.pushLength } }
      let s ← pngPushHaveInfo s
      .ok { s with
        zstream := { s.zstream with
          availOut := rowbytes s.hdr.pixelDepth s.rows.iwidth + 1 }
        rows := { s.rows with rowBuf := [] } }

/-- `PNG_PUSH_SAVE_BUFFER_IF_FULL` and the handler of a chunk that is not `IDAT`. -/
def pngPushHandleChunk (s : Png env) : Fallible (Png env) (Png env) :=
  if s.chunk.pushLength + 4 > s.input.bufferSize then .ok (saveBuffer s)
  else
    let (data, input) := pngPushFillBuffer s.input s.chunk.pushLength
    let (crc, input) := pngPushFillBuffer input 4
    let c : Chunk := ⟨s.chunk.chunkName, data, pngGetUint32 crc ≠ crc32 s.chunk.crc data⟩
    let s := { s with input }
    match pngHandleChunk s.hdr c with
    | .error jump => .error (jump, s)
    | .ok hdr =>
      let s := { s with hdr }
      let s :=
        if c.name = chunkIEND then
          { s with
            chunk := { s.chunk with processMode := .readDone }, rows := decodeEndCallback s.rows }
        else s
      .ok (s.setHaveChunkHeader false)

def pngPushReadChunkBody (s : Png env) : Fallible (Png env) (Png env) :=
  if s.chunk.chunkName = chunkIDAT then pngPushStartIDAT s
  else if s.chunk.chunkName = chunkIHDR ∧ s.chunk.pushLength ≠ 13 then
    pngError s "Invalid IHDR length"
  else pngPushHandleChunk s

def pngPushReadChunk (s : Png env) : Fallible (Png env) (Png env) :=
  if s.hdr.mode.haveChunkHeader then pngPushReadChunkBody s
  else if s.input.bufferSize < 8 then .ok (saveBuffer s)
  else do
    let s ← readChunkHeader s
    match pngCheckChunkName s.chunk.chunkName with
    | .error jump => .error (jump, s)
    | .ok _ => pngPushReadChunkBody (s.setHaveChunkHeader true)

/-! ## The signature -/

def pngSignature : List UInt8 := [137, 80, 78, 71, 13, 10, 26, 10]

def pngSigCmp (sig : List UInt8) (start count : Nat) : Bool :=
  let count := if count > 8 then 8 else count
  if count < 1 ∨ start > 7 then true
  else
    let count := if start + count > 8 then 8 - start else count
    (sig.drop start).take count ≠ (pngSignature.drop start).take count

def pngPushReadSig (s : Png env) : Fallible (Png env) (Png env) :=
  let numChecked := s.chunk.sigBytes
  let numToCheck := min (8 - numChecked) s.input.bufferSize
  let (bytes, input) := pngPushFillBuffer s.input numToCheck
  let signature := s.chunk.signature.take numChecked ++ bytes
  let s := { s with
    input, chunk := { s.chunk with signature, sigBytes := s.chunk.sigBytes + numToCheck } }
  if pngSigCmp signature numChecked numToCheck then
    -- the difference is unsigned
    if numChecked < 4 && pngSigCmp signature numChecked ((numToCheck + 2 ^ 32 - 4) % 2 ^ 32) then
      pngError s "Not a PNG file"
    else pngError s "PNG file corrupted by ASCII conversion"
  else if s.chunk.sigBytes ≥ 8 then
    .ok { s with chunk := { s.chunk with processMode := .readChunk } }
  else .ok s

/-! ## Processing data -/

def pngProcessSomeData (s : Png env) : Fallible (Png env) (Png env) :=
  match s.chunk.processMode with
  | .readSig => pngPushReadSig s
  | .readChunk => pngPushReadChunk s
  | .readIDAT => pngPushReadIDAT s
  | .readDone => .ok { s with input := { s.input with bufferSize := 0 } }

def bufferEmpty (s : Png env) : Bool := s.input.bufferSize = 0

/-- `png_process_data`; every step takes a byte at least, or saves them all. -/
def pngProcessData (s : Png env) (buffer : List UInt8) : Fallible (Png env) (Png env) :=
  let s := { s with input := pngPushRestoreBuffer s.input buffer }
  iterate bufferEmpty pngProcessSomeData (fun s => (Jump.outOfFuel, s)) s.input.bufferSize s

end PngDecode.Libpng
