import Mathlib.Data.BitVec
import Mathlib.Data.Nat.Bitwise
import PngDecode.Libpng.Filters

/-! # The SSE2 filters

The vector forms of three filters for pixels of three and four bytes undo the same filters as the
scalar ones. A pixel is in the low four lanes of a register; of a pixel of three bytes the last
lane holds a byte of the next one and is never stored. -/

namespace PngDecode.Libpng
open PngDecode.Lib

/-! ## Lanes -/

/-- `_mm_avg_epu8`, which rounds up, less one if it did. -/
def avgLane (a b : UInt8) : UInt8 :=
  UInt8.ofNat ((a.toNat + b.toNat + 1) / 2) - ((a ^^^ b) &&& 1)

/-- `abs_i16` without `_mm_abs_epi16`: the bits of a negative lane are flipped, and one is added. -/
def absI16 (x : BitVec 16) : BitVec 16 :=
  let isNegative : BitVec 16 := if x.slt 0 then BitVec.allOnes 16 else 0
  (x ^^^ isNegative) + (isNegative >>> 15)

def minI16 (x y : BitVec 16) : BitVec 16 := if x.slt y then x else y

def paethLane (left above aboveLeft : UInt8) : UInt8 :=
  let a : BitVec 16 := left.toBitVec.setWidth 16
  let b : BitVec 16 := above.toBitVec.setWidth 16
  let c : BitVec 16 := aboveLeft.toBitVec.setWidth 16
  let pa := b - c
  let pb := a - c
  let pc := pa + pb
  let pa := absI16 pa
  let pb := absI16 pb
  let pc := absI16 pc
  let smallest := minI16 pc (minI16 pa pb)
  let nearest := if smallest = pa then a else if smallest = pb then b else c
  ⟨nearest.setWidth 8⟩

/-! ## Pixels -/

/-- `load4` and `load3`; `rb` are the bytes that are left of the row. -/
def loadPixel (k rb : Nat) (p : List UInt8) : List UInt8 :=
  if k = 4 ∨ 4 ≤ rb then [p.getD 0 0, p.getD 1 0, p.getD 2 0, p.getD 3 0]
  else [p.getD 0 0, p.getD 1 0, p.getD 2 0, 0]

def nextPixel (predict : UInt8 → UInt8 → UInt8 → UInt8) (a b c d : List UInt8) : List UInt8 :=
  (List.range 4).map fun i => d.getD i 0 + predict (a.getD i 0) (b.getD i 0) (c.getD i 0)

/-- The loops over the pixels of a row; `b` and `d` are those of the last one. -/
def filterPixels (k : Nat) (predict : UInt8 → UInt8 → UInt8 → UInt8) :
    Nat → List UInt8 → List UInt8 → List UInt8 → List UInt8 → List UInt8
  | 0, _, _, _, _ => []
  | rounds + 1, b, d, row, prev =>
    let c := b
    let b := loadPixel k row.length prev
    let a := d
    let d := nextPixel predict a b c (loadPixel k row.length row)
    d.take k ++ filterPixels k predict rounds b d (row.drop k) (prev.drop k)

/-- The `int` of the bytes that are left does not overflow: by `png_check_IHDR` a row has at most
8,000,000 bytes. -/
def sse2Filter (k : Nat) (predict : UInt8 → UInt8 → UInt8 → UInt8) (row prev : List UInt8) :
    List UInt8 :=
  filterPixels k predict ((row.length + k - 1) / k) [0, 0, 0, 0] [0, 0, 0, 0] row prev

def pngReadFilterRowSub3Sse2 := sse2Filter 3 fun left _ _ => left
def pngReadFilterRowSub4Sse2 := sse2Filter 4 fun left _ _ => left
def pngReadFilterRowAvg3Sse2 := sse2Filter 3 fun left above _ => avgLane left above
def pngReadFilterRowAvg4Sse2 := sse2Filter 4 fun left above _ => avgLane left above
def pngReadFilterRowPaeth3Sse2 := sse2Filter 3 paethLane
def pngReadFilterRowPaeth4Sse2 := sse2Filter 4 paethLane

def pngReadFilterRowSse2 (ri : PngRowInfo) (row prev : List UInt8) (filter : UInt8) :
    List UInt8 :=
  let bpp := (ri.pixelDepth + 7) >>> 3
  if bpp = 3 ∧ filter = 1 then pngReadFilterRowSub3Sse2 row prev
  else if bpp = 3 ∧ filter = 3 then pngReadFilterRowAvg3Sse2 row prev
  else if bpp = 3 ∧ filter = 4 then pngReadFilterRowPaeth3Sse2 row prev
  else if bpp = 4 ∧ filter = 1 then pngReadFilterRowSub4Sse2 row prev
  else if bpp = 4 ∧ filter = 3 then pngReadFilterRowAvg4Sse2 row prev
  else if bpp = 4 ∧ filter = 4 then pngReadFilterRowPaeth4Sse2 row prev
  else pngReadFilterRow ri row prev filter

/-! ## One lane -/

theorem avgLane_eq (a b : UInt8) : avgLane a b = halfSum b a := by
  have ha := a.toNat_lt
  have hb := b.toNat_lt
  have odd : ((a ^^^ b) &&& 1).toNat = (a.toNat + b.toNat) % 2 := by
    rw [UInt8.toNat_and, UInt8.toNat_xor]
    have one : (1 : UInt8).toNat = 2 ^ 1 - 1 := rfl
    rw [one, Nat.and_two_pow_sub_one_eq_mod, pow_one, Nat.xor_mod_two_eq]
  apply UInt8.toNat_inj.mp
  rw [avgLane, halfSum, UInt8.toNat_sub, odd, UInt8.toNat_ofNat', UInt8.toNat_ofNat']
  omega

theorem absI16_eq (x : BitVec 16) : absI16 x = x.abs := by
  have one : BitVec.allOnes 16 >>> 15 = 1 := by decide
  have sign : x.slt 0 = x.msb := BitVec.slt_zero_eq_msb
  unfold absI16 BitVec.abs
  rw [sign]
  dsimp only
  cases x.msb with
  | true =>
    rw [if_pos rfl, if_pos rfl, one, BitVec.xor_allOnes]
    exact (BitVec.neg_eq_not_add x).symm
  | false =>
    rw [if_neg Bool.false_ne_true, if_neg Bool.false_ne_true]
    simp

theorem absI16_toNat {x : BitVec 16} {k : Int} (value : (x.toNat : Int) = k % 0x10000)
    (low : -0x8000 < k) (high : k < 0x8000) : (absI16 x).toNat = k.natAbs := by
  rw [absI16_eq, BitVec.toNat_abs, BitVec.msb_eq_decide]
  split
  · next negative =>
    have := of_decide_eq_true negative
    omega
  · next positive =>
    have := of_decide_eq_false (Bool.not_eq_true _ ▸ positive)
    omega

theorem minI16_toNat {x y : BitVec 16} (hx : x.toNat < 0x8000) (hy : y.toNat < 0x8000) :
    (minI16 x y).toNat = min x.toNat y.toNat := by
  have less : x.slt y = true ↔ x.toNat < y.toNat := by
    rw [BitVec.slt_iff_toInt_lt, BitVec.toInt_eq_toNat_of_lt (by omega),
      BitVec.toInt_eq_toNat_of_lt (by omega)]
    exact Int.ofNat_lt
  unfold minI16
  by_cases first : x.toNat < y.toNat
  · rw [if_pos (less.mpr first)]
    omega
  · rw [if_neg (fun second => first (less.mp second))]
    omega

theorem paethLane_eq (left above aboveLeft : UInt8) :
    paethLane left above aboveLeft = paethPredictor left above aboveLeft := by
  have lane (v : UInt8) : (v.toBitVec.setWidth 16).toNat = v.toNat ∧
      (⟨(v.toBitVec.setWidth 16).setWidth 8⟩ : UInt8) = v := by
    refine ⟨?_, congrArg UInt8.ofBitVec ?_⟩
    · rw [BitVec.toNat_setWidth]
      exact Nat.mod_eq_of_lt (Nat.lt_trans v.toNat_lt (by decide))
    · rw [BitVec.setWidth_setWidth_of_le _ (by decide), BitVec.setWidth_eq]
  obtain ⟨a, nearA⟩ := lane left
  obtain ⟨b, nearB⟩ := lane above
  obtain ⟨c, nearC⟩ := lane aboveLeft
  have ha := left.toNat_lt
  have hb := above.toNat_lt
  have hc := aboveLeft.toNat_lt
  rw [← paethChoice_eq]
  unfold paethLane paethChoice
  dsimp only
  generalize left.toBitVec.setWidth 16 = A at *
  generalize above.toBitVec.setWidth 16 = B at *
  generalize aboveLeft.toBitVec.setWidth 16 = C at *
  have pa : (absI16 (B - C)).toNat = ((above.toNat : Int) - aboveLeft.toNat).natAbs :=
    absI16_toNat (by rw [BitVec.toNat_sub, b, c]; omega) (by omega) (by omega)
  have pb : (absI16 (A - C)).toNat = ((left.toNat : Int) - aboveLeft.toNat).natAbs :=
    absI16_toNat (by rw [BitVec.toNat_sub, a, c]; omega) (by omega) (by omega)
  have pc : (absI16 (B - C + (A - C))).toNat =
      ((above.toNat : Int) - aboveLeft.toNat + (left.toNat - aboveLeft.toNat)).natAbs :=
    absI16_toNat (by rw [BitVec.toNat_add, BitVec.toNat_sub, BitVec.toNat_sub, a, b, c]; omega)
      (by omega) (by omega)
  rw [← pa, ← pb, ← pc]
  have small : (absI16 (B - C)).toNat < 0x8000 ∧ (absI16 (A - C)).toNat < 0x8000 ∧
      (absI16 (B - C + (A - C))).toNat < 0x8000 := by omega
  clear pa pb pc
  generalize absI16 (B - C) = PA at *
  generalize absI16 (A - C) = PB at *
  generalize absI16 (B - C + (A - C)) = PC at *
  obtain ⟨smallA, smallB, smallC⟩ := small
  have inner := minI16_toNat smallA smallB
  have least : (minI16 PC (minI16 PA PB)).toNat = min PC.toNat (min PA.toNat PB.toNat) := by
    rw [minI16_toNat smallC (by omega), inner]
  by_cases first : PA.toNat ≤ PB.toNat ∧ PA.toNat ≤ PC.toNat
  · have same : minI16 PC (minI16 PA PB) = PA := BitVec.toNat_inj.mp (by omega)
    rw [if_pos first, if_pos same]
    exact nearA
  have other : minI16 PC (minI16 PA PB) ≠ PA := fun same => first (by
    rw [same] at least
    omega)
  rw [if_neg first, if_neg other]
  by_cases second : PB.toNat ≤ PC.toNat
  · have same : minI16 PC (minI16 PA PB) = PB := BitVec.toNat_inj.mp (by omega)
    rw [if_pos second, if_pos same]
    exact nearB
  · have last : minI16 PC (minI16 PA PB) ≠ PB := fun same => second (by
      rw [same] at least
      omega)
    rw [if_neg second, if_neg last]
    exact nearC

/-! ## A row -/

section Row
variable {k j : Nat} {first : UInt8 → UInt8} {next : UInt8 → UInt8 → UInt8 → UInt8}
  {prev seen : List UInt8}

def laneBefore (k j : Nat) (bytes : List UInt8) (i : Nat) : UInt8 :=
  if j = 0 then 0 else bytes.getD (k * (j - 1) + i) 0

theorem prediction_lane (start : ∀ above, first above = next 0 above 0)
    (pixels : seen.length = k * j) (done : List UInt8) (inside : done.length < k) :
    prediction k first next prev (seen ++ done) = next (laneBefore k j seen done.length)
      (prev.getD (k * j + done.length) 0) (laneBefore k j prev done.length) := by
  have length : (seen ++ done).length = k * j + done.length := by rw [List.length_append, pixels]
  unfold prediction laneBefore
  rw [length]
  cases j with
  | zero =>
    rw [if_pos rfl, if_pos rfl, if_pos (by rw [Nat.mul_zero]; omega)]
    exact start _
  | succ j =>
    rw [Nat.mul_succ] at pixels ⊢
    have back : k * j + k + done.length - k = k * j + done.length := by omega
    have old : (seen ++ done).getD (k * j + done.length) 0 = seen.getD (k * j + done.length) 0 := by
      simp only [List.getD_eq_getElem?_getD]
      rw [List.getElem?_append_left (by omega)]
    rw [if_neg (by omega), if_neg (Nat.succ_ne_zero j), if_neg (Nat.succ_ne_zero j), back, old,
      Nat.add_sub_cancel]

theorem restoredFrom_pixel {predict : List UInt8 → UInt8} (lane : Nat → UInt8)
    (lanes : ∀ done : List UInt8, done.length < k → predict (seen ++ done) = lane done.length)
    (xs rest done : List UInt8) (fits : done.length + xs.length ≤ k) :
    restoredFrom predict (seen ++ done) (xs ++ rest) =
      (xs.zipIdx done.length).map (fun p => p.1 + lane p.2) ++
        restoredFrom predict (seen ++ done ++ (xs.zipIdx done.length).map fun p => p.1 + lane p.2)
          rest := by
  induction xs generalizing done with
  | nil => simp
  | cons x xs ih =>
    rw [List.length_cons] at fits
    have next := ih (done ++ [x + lane done.length])
      (by rw [List.length_append, List.length_singleton]; omega)
    rw [List.length_append, List.length_singleton] at next
    rw [List.cons_append, restoredFrom, lanes done (by omega), List.append_assoc, next,
      List.zipIdx_cons]
    simp

def restoredPixel (k j : Nat) (next : UInt8 → UInt8 → UInt8 → UInt8)
    (prev seen row : List UInt8) : List UInt8 :=
  (List.range k).map fun i => row.getD i 0 +
    next (laneBefore k j seen i) (prev.getD (k * j + i) 0) (laneBefore k j prev i)

theorem restoredPixel_length (row : List UInt8) :
    (restoredPixel k j next prev seen row).length = k := by
  rw [restoredPixel, List.length_map, List.length_range]

theorem restoredFrom_firstPixel (start : ∀ above, first above = next 0 above 0)
    (pixels : seen.length = k * j) {row : List UInt8} (inRow : k ≤ row.length) :
    restoredFrom (prediction k first next prev) seen row =
      restoredPixel k j next prev seen row ++ restoredFrom (prediction k first next prev)
        (seen ++ restoredPixel k j next prev seen row) (row.drop k) := by
  have taken : (row.take k).length = k := by
    rw [List.length_take]
    omega
  have predicted (done : List UInt8) (inside : done.length < k) :
      prediction k first next prev (seen ++ done) = next (laneBefore k j seen done.length)
        (prev.getD (k * j + done.length) 0) (laneBefore k j prev done.length) :=
    prediction_lane start pixels done inside
  have step := restoredFrom_pixel (fun i => next (laneBefore k j seen i)
    (prev.getD (k * j + i) 0) (laneBefore k j prev i)) predicted (row.take k) (row.drop k) []
    (by rw [taken]; exact Nat.le_of_eq (Nat.zero_add k))
  have same : ((row.take k).zipIdx ([] : List UInt8).length).map (fun p => p.1 + next
      (laneBefore k j seen p.2) (prev.getD (k * j + p.2) 0) (laneBefore k j prev p.2)) =
      restoredPixel k j next prev seen row := by
    apply List.ext_getElem
    · rw [List.length_map, List.length_zipIdx, taken, restoredPixel_length]
    · intro i inside _
      have inRow : i < row.length := by
        rw [List.length_map, List.length_zipIdx, taken] at inside
        omega
      simp [restoredPixel, inRow]
  rw [same, List.take_append_drop, List.append_nil] at step
  exact step

theorem getD_drop (bytes : List UInt8) (n i : Nat) :
    (bytes.drop n).getD i 0 = bytes.getD (n + i) 0 := by
  rw [List.getD_eq_getElem?_getD, List.getElem?_drop, ← List.getD_eq_getElem?_getD]

theorem getD_map_range {n i : Nat} {f : Nat → UInt8} (inside : i < n) :
    ((List.range n).map f).getD i 0 = f i := by
  simp [inside]

theorem loadPixel_getD {rb i : Nat} (wide : k = 3 ∨ k = 4) (inside : i < k) (p : List UInt8) :
    (loadPixel k rb p).getD i 0 = p.getD i 0 := by
  unfold loadPixel
  split
  · have : i < 4 := by omega
    interval_cases i <;> rfl
  · have : i < 3 := by omega
    interval_cases i <;> rfl

def LastPixel (k j : Nat) (bytes register : List UInt8) : Prop :=
  ∀ i < k, register.getD i 0 = laneBefore k j bytes i

/-- The register holds the restored pixel, whatever is in its other lanes. -/
theorem nextPixel_restored (wide : k = 3 ∨ k = 4) {b d row : List UInt8}
    (above : LastPixel k j prev b) (left : LastPixel k j seen d) {i : Nat} (inside : i < k) :
    (nextPixel next d (loadPixel k row.length (prev.drop (k * j))) b
      (loadPixel k row.length row)).getD i 0 = (restoredPixel k j next prev seen row).getD i 0 := by
  rw [nextPixel, restoredPixel, getD_map_range (by omega), getD_map_range inside,
    loadPixel_getD wide inside, loadPixel_getD wide inside, left i inside, above i inside,
    getD_drop]

theorem nextPixel_take (wide : k = 3 ∨ k = 4) {b d row : List UInt8}
    (above : LastPixel k j prev b) (left : LastPixel k j seen d) :
    (nextPixel next d (loadPixel k row.length (prev.drop (k * j))) b
      (loadPixel k row.length row)).take k = restoredPixel k j next prev seen row := by
  have four : (nextPixel next d (loadPixel k row.length (prev.drop (k * j))) b
      (loadPixel k row.length row)).length = 4 := by
    rw [nextPixel, List.length_map, List.length_range]
  apply List.ext_getElem
  · rw [List.length_take, restoredPixel_length, four]
    omega
  · intro i short inside
    rw [restoredPixel_length] at inside
    have lane : _ = (restoredPixel k j next prev seen row).getD i 0 :=
      nextPixel_restored wide above left inside
    rw [List.getD_eq_getElem _ _ (by omega),
      List.getD_eq_getElem _ _ (by rw [restoredPixel_length]; exact inside)] at lane
    rw [List.getElem_take]
    exact lane

theorem filterPixels_restored (wide : k = 3 ∨ k = 4)
    (start : ∀ above, first above = next 0 above 0) (n : Nat) {b d row : List UInt8}
    (pixels : seen.length = k * j) (whole : row.length = k * n) (above : LastPixel k j prev b)
    (left : LastPixel k j seen d) :
    filterPixels k next n b d row (prev.drop (k * j)) =
      restoredFrom (prediction k first next prev) seen row := by
  induction n generalizing seen j b d row with
  | zero =>
    rw [List.length_eq_zero_iff.mp (by omega : row.length = 0)]
    rfl
  | succ n ih =>
    rw [Nat.mul_succ] at whole
    rw [filterPixels, nextPixel_take wide above left,
      restoredFrom_firstPixel start pixels (by omega), List.drop_drop, ← Nat.mul_succ]
    congr 1
    -- the registers for the pixel behind it
    refine ih (by rw [List.length_append, pixels, restoredPixel_length, Nat.mul_succ])
      (by rw [List.length_drop]; omega) (fun i inside => ?_) (fun i inside => ?_)
    · rw [loadPixel_getD wide inside, laneBefore, if_neg (Nat.succ_ne_zero j), Nat.succ_sub_one,
        getD_drop]
    · rw [nextPixel_restored wide above left inside, laneBefore, if_neg (Nat.succ_ne_zero j),
        Nat.succ_sub_one, ← pixels]
      simp only [List.getD_eq_getElem?_getD]
      rw [List.getElem?_append_right (Nat.le_add_right _ _), Nat.add_sub_cancel_left]

theorem sse2Filter_eq (wide : k = 3 ∨ k = 4) (start : ∀ above, first above = next 0 above 0)
    {row : List UInt8} (whole : k ∣ row.length) :
    sse2Filter k next row prev = unfilterRow k first next row prev := by
  obtain ⟨n, length⟩ := whole
  have rounds : (row.length + k - 1) / k = n := by
    rcases wide with rfl | rfl <;> omega
  have zero (bytes : List UInt8) : LastPixel k 0 bytes [0, 0, 0, 0] := fun i inside => by
    rw [laneBefore, if_pos rfl]
    have : i < 4 := by omega
    interval_cases i <;> rfl
  have empty : ([] : List UInt8).length = k * 0 := rfl
  have loop := filterPixels_restored wide start n empty length (zero prev) (zero [])
  rw [Nat.mul_zero, List.drop_zero] at loop
  rw [sse2Filter, rounds, loop, unfilterRow_restored]

end Row

theorem halfSum_zero (above : UInt8) : above / 2 = halfSum above 0 := by
  apply UInt8.toNat_inj.mp
  rw [halfSum, UInt8.toNat_div, UInt8.toNat_ofNat']
  have := above.toNat_lt
  change above.toNat / 2 = (above.toNat + 0) / 2 % 2 ^ 8
  omega

theorem paethPredictor_zero (above : UInt8) : id above = paethPredictor 0 above 0 := by
  rw [← paethChoice_eq]
  unfold paethChoice
  have zero : ((0 : UInt8).toNat : Int) = 0 := rfl
  dsimp only
  rw [zero]
  by_cases none : above.toNat = 0
  · rw [if_pos (by omega)]
    exact UInt8.toNat_inj.mp none
  · rw [if_neg (by omega), if_pos (by omega)]
    rfl

/-- Whichever of the two is installed, a row of whole pixels is unfiltered to the same bytes. -/
theorem pngReadFilterRowSse2_eq (ri : PngRowInfo) (row prev : List UInt8) (filter : UInt8)
    (whole : (ri.pixelDepth + 7) >>> 3 ∣ row.length) :
    pngReadFilterRowSse2 ri row prev filter = pngReadFilterRow ri row prev filter := by
  have average : (fun left above _ => avgLane left above : UInt8 → UInt8 → UInt8 → UInt8) =
      fun left above _ => halfSum above left := by
    funext left above _
    exact avgLane_eq left above
  have nearest : paethLane = paethPredictor := by
    funext left above aboveLeft
    exact paethLane_eq left above aboveLeft
  have sub {k : Nat} (wide : k = 3 ∨ k = 4) (pixels : k ∣ row.length) :
      sse2Filter k (fun left _ _ => left) row prev = pngReadFilterRowSub k row prev :=
    sse2Filter_eq wide (fun _ => rfl) pixels
  have avg {k : Nat} (wide : k = 3 ∨ k = 4) (pixels : k ∣ row.length) :
      sse2Filter k (fun left above _ => avgLane left above) row prev =
        pngReadFilterRowAvg k row prev := by
    rw [average]
    exact sse2Filter_eq wide halfSum_zero pixels
  have paeth {k : Nat} (wide : k = 3 ∨ k = 4) (pixels : k ∣ row.length) :
      sse2Filter k paethLane row prev = pngReadFilterRowPaeth k row prev := by
    rw [nearest]
    exact sse2Filter_eq wide paethPredictor_zero pixels
  unfold pngReadFilterRowSse2 pngReadFilterRow
  dsimp only
  generalize (ri.pixelDepth + 7) >>> 3 = k at whole ⊢
  by_cases sub3 : k = 3 ∧ filter = 1
  · rw [if_pos sub3]
    obtain ⟨rfl, rfl⟩ := sub3
    exact sub (.inl rfl) whole
  by_cases avg3 : k = 3 ∧ filter = 3
  · rw [if_pos avg3]
    obtain ⟨rfl, rfl⟩ := avg3
    exact avg (.inl rfl) whole
  by_cases paeth3 : k = 3 ∧ filter = 4
  · rw [if_pos paeth3]
    obtain ⟨rfl, rfl⟩ := paeth3
    exact paeth (.inl rfl) whole
  by_cases sub4 : k = 4 ∧ filter = 1
  · rw [if_pos sub4]
    obtain ⟨rfl, rfl⟩ := sub4
    exact sub (.inr rfl) whole
  by_cases avg4 : k = 4 ∧ filter = 3
  · rw [if_pos avg4]
    obtain ⟨rfl, rfl⟩ := avg4
    exact avg (.inr rfl) whole
  by_cases paeth4 : k = 4 ∧ filter = 4
  · rw [if_pos paeth4]
    obtain ⟨rfl, rfl⟩ := paeth4
    exact paeth (.inr rfl) whole
  rw [if_neg sub3, if_neg avg3, if_neg paeth3, if_neg sub4, if_neg avg4, if_neg paeth4]

theorem pngReadFilterRowSse2_rgb :
    pngReadFilterRowSse2 ⟨2, 6, 2, 8, 3, 24⟩ [1, 2, 3, 4, 5, 6] [10, 20, 30, 40, 50, 60] 4 =
      pngReadFilterRow ⟨2, 6, 2, 8, 3, 24⟩ [1, 2, 3, 4, 5, 6] [10, 20, 30, 40, 50, 60] 4 :=
  pngReadFilterRowSse2_eq _ _ _ _ (by decide)

end PngDecode.Libpng
