/-! # Values of libpng

Colour types are the bit sets of the source (1 palette, 2 colour, 4 alpha); lengths and counters
are natural numbers, as no accepted image reaches a bound of their C types. -/

namespace PngDecode.Libpng

def colorMaskColor : Nat := 2
def colorMaskAlpha : Nat := 4
def colorTypeGray : Nat := 0
def colorTypePalette : Nat := 3
def colorTypeRGB : Nat := 2
def colorTypeRGBAlpha : Nat := 6
def colorTypeGrayAlpha : Nat := 4

def rowbytes (pixelBits width : Nat) : Nat :=
  if pixelBits ≥ 8 then width * (pixelBits >>> 3) else (width * pixelBits + 7) >>> 3

structure PngRowInfo where
  width : Nat
  rowbytes : Nat
  colorType : Nat
  bitDepth : Nat
  channels : Nat
  pixelDepth : Nat
deriving DecidableEq, Repr

structure PngColor where
  red : UInt8
  green : UInt8
  blue : UInt8
deriving DecidableEq, Repr, Inhabited

structure PngColor16 where
  red : UInt16
  green : UInt16
  blue : UInt16
  gray : UInt16
deriving DecidableEq, Repr, Inhabited

end PngDecode.Libpng
