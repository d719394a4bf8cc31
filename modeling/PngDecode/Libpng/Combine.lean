import PngDecode.Libpng.Rows

/-! # Merging a row into the image

For the four bytes a pixel of the decoder's rows, `png_combine_row` takes each pixel of the image
row either from the new row or from the old one. -/

namespace PngDecode.Libpng
open PngDecode.Lib

/-! ## Blocks -/

theorem pixelAt_copied {k copy n : Nat} {dp sp : List UInt8} (full : dp.length = k * n)
    (long : k * min copy n ≤ sp.length) {x : Nat} (hx : x < n) :
    pixelAt k (overwrite dp 0 (sp.take (min (k * copy) dp.length))) x =
      if x < copy then pixelAt k sp x else pixelAt k dp x := by
  have front : (sp.take (k * min copy n)).length = k * min copy n := by
    rw [List.length_take]; omega
  have written : overwrite dp 0 (sp.take (min (k * copy) dp.length)) =
      sp.take (k * min copy n) ++ dp.drop (k * min copy n) := by
    have short := Nat.mul_le_mul_left k (Nat.min_le_right copy n)
    rw [full, Nat.mul_min_mul_left, overwrite, List.take_zero, List.nil_append, Nat.sub_zero,
      Nat.zero_add, front, List.take_of_length_le (by rw [front, full]; exact short)]
  rw [written, pixelAt_append front]
  by_cases inside : x < copy
  · rw [if_pos (by omega), if_pos inside, pixelAt_take sp (by omega)]
  · rw [if_neg (by omega), if_neg inside, pixelAt_drop, Nat.add_sub_cancel' (by omega)]

theorem copyBlocks_length (copy jump rounds : Nat) (dp sp : List UInt8) :
    (copyBlocks copy jump rounds dp sp).length = dp.length := by
  induction rounds generalizing dp sp with
  | zero => rfl
  | succ rounds ih =>
    unfold copyBlocks
    dsimp only
    split
    · exact overwrite_length ..
    · rw [List.length_append, List.length_take, overwrite_length, ih, List.length_drop]
      omega

theorem pixelAt_copyBlocks {k copy jump : Nat} (positive : 0 < k) (forward : 0 < jump)
    (rounds n : Nat) {dp sp : List UInt8} (full : dp.length = k * n)
    (long : ∀ x < n, x % jump < copy → k * (x + 1) ≤ sp.length)
    (enough : n ≤ rounds) {x : Nat} (hx : x < n) :
    pixelAt k (copyBlocks (k * copy) (k * jump) rounds dp sp) x =
      if x % jump < copy then pixelAt k sp x else pixelAt k dp x := by
  induction rounds generalizing n dp sp x with
  | zero => omega
  | succ rounds ih =>
    -- the last pixel of the first block is the last one that has to be there
    have block : k * min copy n ≤ sp.length := by
      by_cases empty : copy = 0
      · rw [empty, Nat.zero_min, Nat.mul_zero]
        exact Nat.zero_le _
      · have last : (min copy n - 1) % jump < copy := by
          have := Nat.mod_le (min copy n - 1) jump
          omega
        have := long (min copy n - 1) (by omega) last
        rwa [Nat.sub_add_cancel (by omega)] at this
    unfold copyBlocks
    dsimp only
    split
    · next last =>
      have : n ≤ jump := Nat.le_of_mul_le_mul_left (full ▸ last) positive
      rw [Nat.mod_eq_of_lt (by omega)]
      exact pixelAt_copied full block hx
    · next more =>
      have wider : jump < n := Nat.lt_of_mul_lt_mul_left (a := k) (by omega)
      have front : ((overwrite dp 0 (sp.take (min (k * copy) dp.length))).take
          (k * jump)).length = k * jump := by
        rw [List.length_take, overwrite_length]; omega
      have split : k * n = k * jump + k * (n - jump) := by
        rw [← Nat.mul_add, Nat.add_sub_cancel' (by omega)]
      rw [pixelAt_append front]
      by_cases inside : x < jump
      · rw [if_pos inside, pixelAt_take _ inside, pixelAt_copied full block hx,
          Nat.mod_eq_of_lt inside]
      · have longRest : ∀ y < n - jump, y % jump < copy →
            k * (y + 1) ≤ (sp.drop (k * jump)).length := by
          intro y hy copied
          have := long (jump + y) (by omega) (by rwa [Nat.add_mod_left])
          rw [Nat.add_assoc, Nat.mul_add] at this
          rw [List.length_drop]
          omega
        rw [if_neg inside, ih (n - jump) (by rw [List.length_drop]; omega) longRest (by omega)
          (by omega), pixelAt_drop, pixelAt_drop, Nat.add_sub_cancel' (by omega),
          ← Nat.mod_eq_sub_mod (by omega)]

/-! ## The decoder's rows -/

/-- Pixel `x` of the image row is taken from the row of pass `pass`. -/
def copiedPixel (h : Header) (pass x : Nat) : Bool :=
  if h.interlaced ≠ 0 ∧ pass < 6 ∧ pass % 2 = 1 then
    pngPassStartCol pass ≤ x && (x - pngPassStartCol pass) % pngPassColOffset pass < pngPassBlock pass
  else true

def Covers (h : Header) (pass : Nat) (rowBuf : List UInt8) : Prop :=
  ∀ x < h.width, copiedPixel h pass x = true → 4 * (x + 1) ≤ (rowBuf.drop 1).length

structure CombineReady (h : Header) (r : Rows) : Prop where
  width : 0 < h.width
  interlace : h.interlaced ≠ 0 → r.transformations.interlace = true
  infoRowbytes : r.infoRowbytes = 4 * h.width
  depth : r.transformedPixelDepth = 32

theorem rowbytes_32 (n : Nat) : rowbytes 32 n = 4 * n := by
  simp [rowbytes, Nat.mul_comm]

theorem pngCombineRow_ready {h : Header} {r : Rows} (ready : CombineReady h r) (dp : List UInt8) :
    ∃ combined, pngCombineRow h r dp = .ok combined := by
  have positive := ready.width
  unfold pngCombineRow
  dsimp only
  rw [ready.depth, ready.infoRowbytes, rowbytes_32, if_neg (by omega), if_neg (by omega),
    if_neg (by omega)]
  split
  · split
    · exact ⟨_, rfl⟩
    · rw [if_neg (by omega), if_neg (by decide)]
      exact ⟨_, rfl⟩
  · exact ⟨_, rfl⟩

theorem pngCombineRow_pixels {h : Header} {r : Rows} (ready : CombineReady h r)
    (dp : List UInt8) (full : dp.length = 4 * h.width)
    (covers : Covers h r.pass r.rowBuf) :
    ∃ combined, pngCombineRow h r dp = .ok combined ∧ combined.length = 4 * h.width ∧
      ∀ x < h.width, pixelAt 4 combined x =
        if copiedPixel h r.pass x then pixelAt 4 (r.rowBuf.drop 1) x else pixelAt 4 dp x := by
  have whole : ∀ old new : List UInt8, restoreEnd (32 * h.width) old new = new := by
    intro old new
    rw [restoreEnd, if_pos (by omega)]
  have odd : ¬ (r.pass &&& 1 = 0) ↔ r.pass % 2 = 1 := by
    rw [Nat.and_one_is_mod]; omega
  unfold pngCombineRow
  have positive := ready.width
  dsimp only
  rw [ready.depth, ready.infoRowbytes, rowbytes_32, if_neg (by omega), if_neg (by omega),
    if_neg (by omega)]
  by_cases interlaced : h.interlaced ≠ 0 ∧ r.pass < 6 ∧ r.pass % 2 = 1
  · have copied (x : Nat) : copiedPixel h r.pass x = (pngPassStartCol r.pass ≤ x &&
        (x - pngPassStartCol r.pass) % pngPassColOffset r.pass < pngPassBlock r.pass) :=
      if_pos interlaced
    rw [if_pos ⟨interlaced.1, ready.interlace interlaced.1, interlaced.2.1, odd.mpr interlaced.2.2⟩]
    split
    · next narrow =>
      refine ⟨dp, rfl, full, fun x hx => ?_⟩
      rw [copied, if_neg (by simp only [Bool.and_eq_true, decide_eq_true_eq]; omega)]
    next wide =>
    rw [if_neg (by omega), if_neg (by decide)]
    have start : (dp.take (4 * pngPassStartCol r.pass)).length = 4 * pngPassStartCol r.pass := by
      rw [List.length_take]; omega
    have forward : 0 < pngPassColOffset r.pass := by
      rw [pngPassColOffset, Nat.shiftLeft_eq, Nat.one_mul]
      exact Nat.two_pow_pos _
    refine ⟨_, rfl, ?_, fun x hx => ?_⟩
    · rw [List.length_append, copyBlocks_length, List.length_take, List.length_drop]
      omega
    · rw [copied, show 32 >>> 3 = 4 from rfl, Nat.mul_comm _ 4, Nat.mul_comm _ 4, Nat.mul_comm _ 4,
        pixelAt_append start]
      by_cases before : x < pngPassStartCol r.pass
      · rw [if_pos before, if_neg (by simp only [Bool.and_eq_true, decide_eq_true_eq]; omega),
          pixelAt_take _ before]
      · have long : ∀ y < h.width - pngPassStartCol r.pass,
            y % pngPassColOffset r.pass < pngPassBlock r.pass →
            4 * (y + 1) ≤ ((r.rowBuf.drop 1).drop (4 * pngPassStartCol r.pass)).length := by
          intro y hy block
          have := covers (pngPassStartCol r.pass + y) (by omega) (by
            rw [copied, Nat.add_sub_cancel_left]
            simp only [Nat.le_add_right, decide_true, Bool.true_and, block])
          rw [List.length_drop (i := 4 * _)]
          omega
        rw [if_neg before, pixelAt_copyBlocks (by omega) forward _ (h.width - pngPassStartCol r.pass)
            (by rw [List.length_drop]; omega) long (by omega) (by omega),
          pixelAt_drop, pixelAt_drop, Nat.add_sub_cancel' (by omega)]
        simp only [Nat.le_of_not_lt before, decide_true, Bool.true_and, decide_eq_true_eq]
  · have copied (x : Nat) : copiedPixel h r.pass x = true := if_neg interlaced
    rw [if_neg (fun all => interlaced ⟨all.1, all.2.2.1, odd.mp all.2.2.2⟩), whole]
    have long := covers (h.width - 1) (by omega) (copied _)
    refine ⟨_, rfl, by rw [List.length_take]; omega, fun x hx => ?_⟩
    rw [copied, if_pos rfl, pixelAt_take _ hx]

end PngDecode.Libpng
