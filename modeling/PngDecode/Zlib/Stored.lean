import PngDecode.Lib.StreamDecoder
import PngDecode.Zlib.Adler32

/-! # zlib streams of stored blocks

`inflate` on the streams whose blocks are stored, which is enough to decode an image of any size.
A block of another type is an error here. -/

namespace PngDecode.Zlib
open PngDecode.Lib

inductive StoredState where
  | head
  | flags (cmf : UInt8)
  | type (adler : UInt32)
  | stored (last : Bool) (bytes : List UInt8) (adler : UInt32)
  | copy (last : Bool) (length : Nat) (adler : UInt32)
  | check (bytes : List UInt8) (adler : UInt32)
  | done
  | bad
deriving DecidableEq, Repr

def storedLength (bytes : List UInt8) : Option Nat :=
  let length := (bytes.getD 0 0).toNat + 256 * (bytes.getD 1 0).toNat
  let complement := (bytes.getD 2 0).toNat + 256 * (bytes.getD 3 0).toNat
  if length + complement = 0xffff then some length else none

def bigEndian (bytes : List UInt8) : Nat := bytes.foldl (fun n b => 256 * n + b.toNat) 0

def blockEnd (last : Bool) (adler : UInt32) : StoredState :=
  if last then .check [] adler else .type adler

def storedStep : StoredState → Micro StoredState
  | .head => .need .flags
  | .flags cmf => .need fun flg =>
    if (256 * cmf.toNat + flg.toNat) % 31 ≠ 0 ∨ cmf.toNat % 16 ≠ 8 ∨ cmf.toNat / 16 > 7 ∨
        flg.toNat / 32 % 2 = 1 then .bad
    else .type 1
  | .type adler => .need fun b =>
    if b.toNat / 2 % 4 = 0 then .stored (b.toNat % 2 = 1) [] adler else .bad
  | .stored last bytes adler => .need fun b =>
    let bytes := bytes ++ [b]
    if bytes.length < 4 then .stored last bytes adler
    else
      match storedLength bytes with
      | none => .bad
      | some 0 => blockEnd last adler
      | some length => .copy last length adler
  | .copy last length adler => .copy fun b =>
    let adler := adler32Z false adler (some [b])
    if length = 1 then blockEnd last adler else .copy last (length - 1) adler
  | .check bytes adler => .need fun b =>
    let bytes := bytes ++ [b]
    if bytes.length < 4 then .check bytes adler
    else if bigEndian bytes = adler.toNat then .done else .bad
  | .done => .stop
  | .bad => .bad (-3)

def stored : StreamDecoder := ⟨StoredState, .head, storedStep⟩

end PngDecode.Zlib
