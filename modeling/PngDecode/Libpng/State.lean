import PngDecode.Lib.StreamDecoder
import PngDecode.Libpng.Types

/-! # The state of the reader

What `png_struct`, `png_info` and `PngDecoderState` hold between two calls, in the parts that the
reader keeps apart: the header chunks, the buffered input, the chunk being read, the zlib stream,
and the rows with the decoder they are handed to. -/

namespace PngDecode.Libpng
open PngDecode.Lib

/-! ## Leaving the reader early -/

inductive Jump where
  | pngError (chunk : Option UInt32) (message : String)
  | longjmp
  | outOfFuel
deriving DecidableEq, Repr

/-- A call that returns, or jumps back to `setjmp` and leaves a state behind. -/
abbrev Fallible (σ α : Type) := Except (Jump × σ) α

def pngError {σ α : Type} (s : σ) (message : String) : Fallible σ α :=
  .error (.pngError none message, s)

def onlyIf {σ : Type} (c : Prop) [Decidable c] (f : σ → Fallible σ σ) (s : σ) : Fallible σ σ :=
  if c then f s else .ok s

/-! ## Header chunks -/

structure Mode where
  haveIHDR : Bool
  havePLTE : Bool
  haveIDAT : Bool
  afterIDAT : Bool
  haveIEND : Bool
  haveChunkAfterIDAT : Bool
  haveChunkHeader : Bool
deriving DecidableEq, Repr

/-- A colour space chunk (`gAMA`, `cHRM`, `sRGB`, `iCCP`) that reached the colour space code. -/
structure ColorChunk where
  name : UInt32
  data : List UInt8
deriving DecidableEq, Repr

structure Header where
  mode : Mode
  width : Nat
  height : Nat
  bitDepth : Nat
  colorType : Nat
  interlaced : Nat
  channels : Nat
  pixelDepth : Nat
  rowbytes : Nat
  palette : Option (List PngColor)
  numTrans : Nat
  transAlpha : List UInt8
  transColor : PngColor16
  infoValidTRNS : Bool
  userChunkCacheMax : Nat
  colorspace : List ColorChunk
deriving DecidableEq, Repr

/-! ## Input -/

structure Input where
  saveBuffer : List UInt8
  currentBuffer : List UInt8
  bufferSize : Nat
deriving DecidableEq, Repr

inductive ProcessMode where
  | readSig
  | readChunk
  | readIDAT
  | readDone
deriving DecidableEq, Repr

structure ChunkState where
  sigBytes : Nat
  signature : List UInt8
  processMode : ProcessMode
  pushLength : Nat
  chunkName : UInt32
  crc : UInt32
  idatSize : Nat
deriving DecidableEq, Repr

/-! ## The zlib stream -/

structure Zstream (D : StreamDecoder) where
  inflate : D.State
  nextIn : List UInt8
  availOut : Nat
  ended : Bool

/-! ## Rows -/

/-- The bits of `png_ptr->transformations` that `DecodeInfoCallback` can set. -/
structure Transformations where
  expand : Bool
  expandTRNS : Bool
  chop16 : Bool
  grayToRGB : Bool
  gamma : Bool
  bgr : Bool
  filler : Bool
  addAlpha : Bool
  userTransform : Bool
  interlace : Bool
deriving DecidableEq, Repr

inductive GammaTable where
  | bits8 (table : UInt8 → UInt8)
  | bits16 (table : UInt8 → UInt8 → UInt16)

inductive ColorFormat where
  | rgba
  | bgra
  | skBitmap
deriving DecidableEq, Repr

/-- `PngDecoderState`; `Decode` never passes a null `output`. -/
structure PngDecoderState where
  outputFormat : ColorFormat
  outputChannels : Int
  isOpaque : Bool
  output : List UInt8
  width : Int
  height : Int
  done : Bool
deriving DecidableEq, Repr

/-- What the callbacks do that the decoder's user could observe: the exact products of signed
multiplications, the rows handed over with their width, and the bytes of `output` written. -/
inductive Event where
  | product (value : Int)
  | resize (size : Int)
  | userTransform (rowInfo : PngRowInfo) (bytes : Nat)
  | row (rowNum pass : Nat) (row : Option (Nat × Nat))
  | write (rowNum offset bytes : Nat)
deriving DecidableEq, Repr

structure Rows where
  rowInit : Bool
  detectUninitialized : Bool
  fillerAfter : Bool
  transformations : Transformations
  filler : Nat
  screenGamma : Int
  fileGamma : Int
  gammaTable : Option GammaTable
  maximumPixelDepth : Nat
  transformedPixelDepth : Nat
  infoRowbytes : Nat
  rowNumber : Nat
  pass : Nat
  numRows : Nat
  iwidth : Nat
  rowBuf : List UInt8
  prevRow : List UInt8
  app : PngDecoderState
  trace : List Event

/-! ## The reader -/

/-- The code the reader rests on: `inflate`, the file gamma that the colour space chunks give, and
the gamma tables built for a file and a screen gamma. -/
structure Env where
  inflate : StreamDecoder
  colorspaceGamma : List ColorChunk → Option Int
  gammaTable : Int → Int → UInt8 → UInt8
  gamma16Table : Int → Int → UInt8 → UInt8 → UInt16

structure Png (env : Env) where
  hdr : Header
  input : Input
  chunk : ChunkState
  zstream : Zstream env.inflate
  rows : Rows

end PngDecode.Libpng
