import PngDecode.Libpng.Push
import PngDecode.Zlib.Stored

/-! # `PngDecoder::Decode` -/

namespace PngDecode.Decoder
open PngDecode.Lib PngDecode.Libpng

variable (env : Env)

/-! ## The structures before any data -/

def initMode : Mode where
  haveIHDR := false
  havePLTE := false
  haveIDAT := false
  afterIDAT := false
  haveIEND := false
  haveChunkAfterIDAT := false
  haveChunkHeader := false

def initHeader : Header where
  mode := initMode
  width := 0
  height := 0
  bitDepth := 0
  colorType := 0
  interlaced := 0
  channels := 0
  pixelDepth := 0
  rowbytes := 0
  palette := none
  numTrans := 0
  transAlpha := []
  transColor := default
  infoValidTRNS := false
  userChunkCacheMax := 128
  colorspace := []

def initTransformations : Transformations where
  expand := false
  expandTRNS := false
  chop16 := false
  grayToRGB := false
  gamma := false
  bgr := false
  filler := false
  addAlpha := false
  userTransform := false
  interlace := false

def initDecoderState (format : ColorFormat) (output : List UInt8) : PngDecoderState where
  outputFormat := format
  outputChannels := 0
  isOpaque := true
  output := output
  width := 0
  height := 0
  done := false

def initRows (format : ColorFormat) (output : List UInt8) : Rows where
  rowInit := false
  detectUninitialized := false
  fillerAfter := false
  transformations := initTransformations
  filler := 0
  screenGamma := 0
  fileGamma := 0
  gammaTable := none
  maximumPixelDepth := 0
  transformedPixelDepth := 0
  infoRowbytes := 0
  rowNumber := 0
  pass := 0
  numRows := 0
  iwidth := 0
  rowBuf := []
  prevRow := []
  app := initDecoderState format output
  trace := []

/-- What `png_create_read_struct` and `png_set_progressive_read_fn` leave behind. -/
def pngCreateReadStruct (format : ColorFormat) (output : List UInt8) : Png env where
  hdr := initHeader
  input := { saveBuffer := [], currentBuffer := [], bufferSize := 0 }
  chunk := {
    sigBytes := 0
    signature := []
    processMode := .readSig
    pushLength := 0
    chunkName := 0
    crc := 0
    idatSize := 0 }
  zstream := { inflate := env.inflate.init, nextIn := [], availOut := 0, ended := false }
  rows := initRows format output

/-! ## `Decode` -/

/-- `PngReadStructInfo::Build`, when there is memory for the two structures. -/
def build (input : List UInt8) : Bool :=
  if input.length < 8 then false else !pngSigCmp input 0 8

/-- The reader when `png_process_data` has returned or has jumped out. -/
def processInput (input : List UInt8) (format : ColorFormat) (output : List UInt8) :
    Fallible (Png env) (Png env) :=
  pngProcessData (pngCreateReadStruct env format output) input

structure Decoded where
  result : Bool
  output : List UInt8
  w : Int
  h : Int
deriving DecidableEq, Repr

/-- `PngDecoder::Decode`, with the values of `*output`, `*w` and `*h` before and after. -/
def decode (input : List UInt8) (format : ColorFormat) (output : List UInt8) (w h : Int) :
    Decoded :=
  if !build input then ⟨false, output, w, h⟩
  else
    match processInput env input format output with
    | .error (_, s) => ⟨false, s.rows.app.output, w, h⟩
    | .ok s =>
      if !s.rows.app.done then ⟨false, [], w, h⟩
      else ⟨true, s.rows.app.output, s.rows.app.width, s.rows.app.height⟩

/-! ## An image of one pixel -/

def storedEnv : Env where
  inflate := Zlib.stored
  colorspaceGamma _ := none
  gammaTable _ _ := id
  gamma16Table _ _ _ _ := 0

def pngHeader : List UInt8 := pngSignature ++
  [0, 0, 0, 13, 73, 72, 68, 82, 0, 0, 0, 1, 0, 0, 0, 1, 8, 6, 0, 0, 0, 31, 21, 196, 137]

def pngData : List UInt8 :=
  [0, 0, 0, 16, 73, 68, 65, 84, 120, 1, 1, 5, 0, 250, 255, 0, 10, 20, 30, 40, 0, 205, 0, 101, 123,
    39, 84, 186]

def pngEnd : List UInt8 := [0, 0, 0, 0, 73, 69, 78, 68, 174, 66, 96, 130]

/-- A file whose one pixel is (10, 20, 30, 40). -/
def pixelPng : List UInt8 := pngHeader ++ pngData ++ pngEnd

example : decode storedEnv pixelPng .bgra [] 0 0 = ⟨true, [30, 20, 10, 40], 1, 1⟩ := by
  decide +kernel

end PngDecode.Decoder
