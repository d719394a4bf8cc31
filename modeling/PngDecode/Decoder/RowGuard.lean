import PngDecode.Decoder.HandedRows

/-! # The guard of the row callback

`DecodeRowCallback` compares the row number, cast to `int`, with the height. The guard on its own
lets through the row right below the image and every row number that is negative as an `int`. -/

namespace PngDecode.Decoder
open PngDecode.Lib PngDecode.Libpng

variable {h : Header} {r : Rows} {row : List UInt8} {rowNum : UInt32}

def Ignored (h : Header) (r : Rows) (row : List UInt8) (rowNum : UInt32) : Prop :=
  decodeRowCallback h r (some row) rowNum = .ok r

def WritesAt (h : Header) (r : Rows) (row : List UInt8) (rowNum : UInt32) (offset : Nat) : Prop :=
  ∃ r', decodeRowCallback h r (some row) rowNum = .ok r' ∧
    r'.trace = r.trace ++ [.product (h.width * 4), .write rowNum.toNat offset (4 * h.width)]

/-! ## What passes the guard -/

/-- `static_cast<int>(row_num) > state->height` is false. -/
def passesGuard (h : Header) (rowNum : UInt32) : Prop :=
  rowNum.toNat ≤ h.height ∨ 2 ^ 31 ≤ rowNum.toNat

theorem decodeRowCallback_ignored (configured : Configured h r)
    (stopped : ¬ passesGuard h rowNum) : Ignored h r row rowNum := by
  have heightMax := configured.heightMax
  have high : rowNum.toInt32.toInt > r.app.height := by
    rw [passesGuard] at stopped
    rw [rowNum_toInt, configured.appHeight, if_pos (by omega)]
    omega
  unfold Ignored decodeRowCallback
  exact if_pos high

theorem decodeRowCallback_writesAt (configured : Configured h r)
    (depth : r.transformedPixelDepth = 32) (passes : passesGuard h rowNum) :
    WritesAt h r row rowNum (4 * h.width * rowNum.toNat % 2 ^ 32) := by
  have heightMax := configured.heightMax
  have low : ¬ rowNum.toInt32.toInt > r.app.height := by
    have small := rowNum.toNat_lt
    rw [passesGuard] at passes
    rw [rowNum_toInt, configured.appHeight]
    split <;> omega
  have ready := configured.combineReady depth
  obtain ⟨combined, eq⟩ := pngCombineRow_ready (h := h)
    (r := { r with trace := r.trace ++ [.product (r.app.width * r.app.outputChannels)] })
    ⟨ready.width, ready.interlace, ready.infoRowbytes, ready.depth⟩
    ((r.app.output.drop (4 * h.width * rowNum.toNat % 2 ^ 32)).take (4 * h.width))
  have dest : (UInt32.ofInt (r.app.width * r.app.outputChannels) * rowNum).toNat =
      4 * h.width * rowNum.toNat % 2 ^ 32 := by
    rw [configured.appWidth, configured.appChannels, dest_toNat]
  have bytes : rowbytes r.transformedPixelDepth h.width = 4 * h.width := by
    rw [depth, rowbytes_32]
  have product : r.app.width * r.app.outputChannels = h.width * 4 := by
    rw [configured.appWidth, configured.appChannels]
  refine ⟨{ r with
    app := { r.app with
      output := overwrite r.app.output (4 * h.width * rowNum.toNat % 2 ^ 32) combined }
    trace := r.trace ++ [.product (r.app.width * r.app.outputChannels)] ++
      [.write rowNum.toNat (4 * h.width * rowNum.toNat % 2 ^ 32) (4 * h.width)] }, ?_, ?_⟩
  · unfold decodeRowCallback
    dsimp only
    rw [if_neg low]
    unfold pngProgressiveCombineRow
    dsimp only
    rw [dest, bytes, eq]
  · rw [product, List.append_assoc, List.singleton_append]

theorem WritesAt.not_ignored {offset : Nat} (writes : WritesAt h r row rowNum offset) :
    ¬ Ignored h r row rowNum := by
  obtain ⟨r', result, trace⟩ := writes
  intro ignored
  rw [Ignored, result] at ignored
  rw [Except.ok.inj ignored] at trace
  have longer := congrArg List.length trace
  simp at longer

theorem WritesAt.unique {offset offset' : Nat} (first : WritesAt h r row rowNum offset)
    (second : WritesAt h r row rowNum offset') : offset = offset' := by
  obtain ⟨a, resultA, traceA⟩ := first
  obtain ⟨b, resultB, traceB⟩ := second
  rw [resultA] at resultB
  rw [← Except.ok.inj resultB, traceA] at traceB
  simpa using traceB

/-! ## When the callback is safe -/

def StaysInside (h : Header) (r : Rows) (row : List UInt8) (rowNum : UInt32) : Prop :=
  Ignored h r row rowNum ∨
    ∃ offset, WritesAt h r row rowNum offset ∧ offset + 4 * h.width ≤ r.app.output.length

/-- What the guard is there for: the write stays inside, and a row at or past the height is rejected. -/
structure GuardHolds (h : Header) (r : Rows) (row : List UInt8) (rowNum : UInt32) : Prop where
  inside : StaysInside h r row rowNum
  rejected : h.height ≤ rowNum.toNat → Ignored h r row rowNum

section Safe
variable (configured : Configured h r) (depth : r.transformedPixelDepth = 32)
include configured depth

theorem ignored_iff : Ignored h r row rowNum ↔ ¬ passesGuard h rowNum :=
  ⟨fun ignored passes =>
    (decodeRowCallback_writesAt configured depth passes).not_ignored ignored,
    decodeRowCallback_ignored configured⟩

theorem staysInside_iff : StaysInside h r row rowNum ↔
    ¬ passesGuard h rowNum ∨
      4 * h.width * rowNum.toNat % 2 ^ 32 + 4 * h.width ≤ 4 * h.width * h.height := by
  rw [StaysInside, ignored_iff configured depth, configured.output]
  constructor
  · rintro (ignored | ⟨offset, writes, inside⟩)
    · exact .inl ignored
    · by_cases passes : passesGuard h rowNum
      · rw [writes.unique (decodeRowCallback_writesAt configured depth passes)] at inside
        exact .inr inside
      · exact .inl passes
  · rintro (ignored | inside)
    · exact .inl ignored
    · by_cases passes : passesGuard h rowNum
      · exact .inr ⟨_, decodeRowCallback_writesAt configured depth passes, inside⟩
      · exact .inl passes

theorem staysInside_of_lt (above : rowNum.toNat < h.height) : StaysInside h r row rowNum := by
  have area := configured.area
  have rowEnd := rowEnd_le above
  refine (staysInside_iff configured depth).mpr (.inr ?_)
  rw [Nat.mod_eq_of_lt (by omega)]
  exact rowEnd

theorem not_staysInside_height (below : rowNum.toNat = h.height) :
    ¬ StaysInside h r row rowNum := by
  have area := configured.area
  have wide := configured.valid.widthPos
  rw [staysInside_iff configured depth, below, Nat.mod_eq_of_lt (by omega), not_or, not_not]
  exact ⟨.inl (Nat.le_of_eq below), by omega⟩

/-- The callback stays inside `output` for the rows of the image and for those that it ignores, and
also for the rows from 2^31 on whose offset wraps into `output`; of the rows at or past the height
it lets through the first one and those from 2^31 on. -/
theorem decodeRowCallback_inside (row : List UInt8) (rowNum : UInt32) :
    (StaysInside h r row rowNum ↔
      rowNum.toNat < h.height ∨ h.height < rowNum.toNat ∧ rowNum.toNat < 2 ^ 31 ∨
        2 ^ 31 ≤ rowNum.toNat ∧
          4 * h.width * rowNum.toNat % 2 ^ 32 + 4 * h.width ≤ 4 * h.width * h.height) ∧
    (h.height ≤ rowNum.toNat → (Ignored h r row rowNum ↔
      rowNum.toNat ≠ h.height ∧ rowNum.toNat < 2 ^ 31)) ∧
    (rowNum.toNat = 2 ^ 31 → WritesAt h r row rowNum 0) := by
  have guard : passesGuard h rowNum ↔ rowNum.toNat ≤ h.height ∨ 2 ^ 31 ≤ rowNum.toNat := Iff.rfl
  have heightMax := configured.heightMax
  refine ⟨⟨fun inside => ?_, ?_⟩, fun below => ?_, fun half => ?_⟩
  · by_cases height : rowNum.toNat = h.height
    · exact absurd inside (not_staysInside_height configured depth height)
    rw [staysInside_iff configured depth, guard] at inside
    rcases inside with ignored | inside
    · exact .inr (.inl (by omega))
    · omega
  · rintro (above | ignored | wrapped)
    · exact staysInside_of_lt configured depth above
    · exact (staysInside_iff configured depth).mpr (.inl (by rw [guard]; omega))
    · exact (staysInside_iff configured depth).mpr (.inr wrapped.2)
  · rw [ignored_iff configured depth, guard]
    omega
  · have writes : WritesAt h r row rowNum (4 * h.width * rowNum.toNat % 2 ^ 32) :=
      decodeRowCallback_writesAt configured depth (guard.mpr (by omega))
    rwa [half, show 4 * h.width * 2 ^ 31 = 2 ^ 32 * (2 * h.width) by omega,
      Nat.mul_mod_right] at writes

/-- The guard does what it is there for exactly for the rows other than the one right below the image
and those from 2^31 on. -/
theorem decodeRowCallback_guard (row : List UInt8) (rowNum : UInt32) :
    GuardHolds h r row rowNum ↔
      rowNum.toNat < h.height ∨ h.height < rowNum.toNat ∧ rowNum.toNat < 2 ^ 31 := by
  have guard : passesGuard h rowNum ↔ rowNum.toNat ≤ h.height ∨ 2 ^ 31 ≤ rowNum.toNat := Iff.rfl
  constructor
  · intro holds
    by_contra outside
    have passes : passesGuard h rowNum := guard.mpr (by omega)
    exact (ignored_iff configured depth).mp (holds.rejected (by omega)) passes
  · rintro (above | below)
    · exact ⟨staysInside_of_lt configured depth above, fun _ => by omega⟩
    · have ignored : Ignored h r row rowNum := (ignored_iff configured depth).mpr (by
        rw [guard]; omega)
      exact ⟨.inl ignored, fun _ => ignored⟩

end Safe

/-! ## An image of one pixel -/

def onePixel : Header := { initHeader with
  mode := { initMode with haveIHDR := true, haveIDAT := true }
  width := 1
  height := 1
  bitDepth := 8
  colorType := colorTypeRGBAlpha
  channels := 4
  pixelDepth := 32
  rowbytes := 4 }

def onePixelRows : Rows := { initRows .rgba [0, 0, 0, 0] with
  rowInit := true
  maximumPixelDepth := 32
  transformedPixelDepth := 32
  infoRowbytes := 4
  numRows := 1
  iwidth := 1
  rowBuf := [0, 1, 2, 3, 4]
  app := { initDecoderState .rgba [0, 0, 0, 0] with outputChannels := 4, width := 1, height := 1 } }

theorem onePixel_configured : Configured onePixel onePixelRows where
  valid := by constructor <;> decide
  transparency := by decide
  noAlpha := by decide
  small := by decide
  rowInit := rfl
  samples := ⟨⟨by decide, by decide⟩, rfl, rfl⟩
  format := ⟨rfl, rfl, rfl, by decide⟩
  interlace := rfl
  infoRowbytes := rfl
  maximumPixelDepth := by decide
  numRows := rfl
  appWidth := rfl
  appHeight := rfl
  appChannels := rfl
  output := rfl
  depth := .inr rfl

theorem decodeRowCallback_inside_onePixel :
    StaysInside onePixel onePixelRows [1, 2, 3, 4] 0 ∧
    ¬ StaysInside onePixel onePixelRows [1, 2, 3, 4] 1 ∧
    Ignored onePixel onePixelRows [1, 2, 3, 4] 2 ∧
    WritesAt onePixel onePixelRows [1, 2, 3, 4] 0x80000000 0 := by
  have inside := decodeRowCallback_inside onePixel_configured rfl [1, 2, 3, 4]
  exact ⟨(inside 0).1.mpr (.inl (by decide)), fun stays => absurd ((inside 1).1.mp stays) (by decide),
    ((inside 2).2.1 (by decide)).mpr (by decide), (inside 0x80000000).2.2 rfl⟩

theorem decodeRowCallback_guard_onePixel : GuardHolds onePixel onePixelRows [1, 2, 3, 4] 0 :=
  (decodeRowCallback_guard onePixel_configured rfl [1, 2, 3, 4] 0).mpr (.inl (by decide))

theorem not_guardHolds_onePixel : Configured onePixel onePixelRows ∧
    onePixelRows.transformedPixelDepth = 32 ∧ WritesAt onePixel onePixelRows [1, 2, 3, 4] 1 4 ∧
    onePixelRows.app.output.length = 4 ∧ ¬ GuardHolds onePixel onePixelRows [1, 2, 3, 4] 1 := by
  have writes : WritesAt onePixel onePixelRows [1, 2, 3, 4] 1 4 := ⟨_, rfl, rfl⟩
  exact ⟨onePixel_configured, rfl, writes, rfl, fun holds =>
    writes.not_ignored (holds.rejected (by decide))⟩

end PngDecode.Decoder
