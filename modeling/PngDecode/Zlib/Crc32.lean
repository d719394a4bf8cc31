import Mathlib.Data.List.Basic

/-! # CRC-32 of zlib -/

namespace PngDecode.Zlib

def crcBit (c : UInt32) : UInt32 :=
  if c &&& 1 = 1 then (0xedb88320 : UInt32) ^^^ (c >>> (1 : UInt32)) else c >>> (1 : UInt32)

def crcByte (c : UInt32) (b : UInt8) : UInt32 :=
  crcBit (crcBit (crcBit (crcBit (crcBit (crcBit (crcBit (crcBit (c ^^^ b.toUInt32))))))))

def crc32 (crc : UInt32) (buf : List UInt8) : UInt32 :=
  buf.foldl crcByte (crc ^^^ 0xffffffff) ^^^ 0xffffffff

theorem crc32_nil (crc : UInt32) : crc32 crc [] = crc := by
  simp only [crc32, List.foldl_nil, UInt32.xor_assoc, UInt32.xor_self, UInt32.xor_zero]

end PngDecode.Zlib
