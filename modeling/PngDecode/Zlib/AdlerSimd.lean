import PngDecode.Zlib.AdlerSums
import Mathlib.Data.List.GetD
import Mathlib.Data.Fin.VecNotation
import Mathlib.Data.UInt
import Mathlib.Tactic

/-! # `adler32_simd_` (SSSE3)

A 128-bit register is a function of its lanes, in the width the intrinsic reads it with. -/

namespace PngDecode.Zlib
open PngDecode.Lib

/-! ## The intrinsics -/

abbrev Epi8 := Fin 16 → UInt8
abbrev Epi16 := Fin 8 → Int16
abbrev Epi32 := Fin 4 → UInt32

def mmLoaduSi128 (buf : List UInt8) : Epi8 := fun i => buf.getD i 0

def mmSetEpi32 (e3 e2 e1 e0 : UInt32) : Epi32 := ![e0, e1, e2, e3]

def mmAddEpi32 (a b : Epi32) : Epi32 := fun i => a i + b i

def mmSlliEpi32 (a : Epi32) (count : UInt32) : Epi32 := fun i => a i <<< count

def absDiff (a b : UInt8) : Nat := (a.toNat - b.toNat) + (b.toNat - a.toNat)

/-- Sums of absolute differences, one in each 64-bit half. -/
def mmSadEpu8 (a b : Epi8) : Epi32 :=
  let d i := absDiff (a i) (b i)
  ![UInt32.ofNat (d 0 + d 1 + d 2 + d 3 + d 4 + d 5 + d 6 + d 7), 0,
    UInt32.ofNat (d 8 + d 9 + d 10 + d 11 + d 12 + d 13 + d 14 + d 15), 0]

def saturate16 (x : Int) : Int16 := Int16.ofInt (max (-32768) (min 32767 x))

/-- Unsigned times signed bytes, with adjacent products added and saturated to 16 bits. -/
def mmMaddubsEpi16 (a b : Epi8) : Epi16 :=
  let p i := (a i).toNat * (b i).toInt8.toInt
  ![saturate16 (p 0 + p 1), saturate16 (p 2 + p 3), saturate16 (p 4 + p 5), saturate16 (p 6 + p 7),
    saturate16 (p 8 + p 9), saturate16 (p 10 + p 11), saturate16 (p 12 + p 13),
    saturate16 (p 14 + p 15)]

def mmMaddEpi16 (a b : Epi16) : Epi32 :=
  let p i := (a i).toInt * (b i).toInt
  ![(Int32.ofInt (p 0 + p 1)).toUInt32, (Int32.ofInt (p 2 + p 3)).toUInt32,
    (Int32.ofInt (p 4 + p 5)).toUInt32, (Int32.ofInt (p 6 + p 7)).toUInt32]

def mmShuffleEpi32 (a : Epi32) (z y x w : Fin 4) : Epi32 := ![a w, a x, a y, a z]

def mmCvtsi128Si32 (a : Epi32) : UInt32 := a 0

/-! ## The code -/

def tap1 : Epi8 := ![32, 31, 30, 29, 28, 27, 26, 25, 24, 23, 22, 21, 20, 19, 18, 17]
def tap2 : Epi8 := ![16, 15, 14, 13, 12, 11, 10, 9, 8, 7, 6, 5, 4, 3, 2, 1]
def zero8 : Epi8 := fun _ => 0
def ones16 : Epi16 := fun _ => 1

structure SimdSums where
  ps : Epi32
  s2 : Epi32
  s1 : Epi32

def simdBlock (v : SimdSums) (buf : List UInt8) : SimdSums :=
  let bytes1 := mmLoaduSi128 buf
  let bytes2 := mmLoaduSi128 (buf.drop 16)
  let ps := mmAddEpi32 v.ps v.s1
  let s1 := mmAddEpi32 v.s1 (mmSadEpu8 bytes1 zero8)
  let mad1 := mmMaddubsEpi16 bytes1 tap1
  let s2 := mmAddEpi32 v.s2 (mmMaddEpi16 mad1 ones16)
  let s1 := mmAddEpi32 s1 (mmSadEpu8 bytes2 zero8)
  let mad2 := mmMaddubsEpi16 bytes2 tap2
  let s2 := mmAddEpi32 s2 (mmMaddEpi16 mad2 ones16)
  ⟨ps, s2, s1⟩

def simdLoop : Nat → SimdSums → List UInt8 → SimdSums
  | 0, v, _ => v
  | n + 1, v, buf => simdLoop n (simdBlock v buf) (buf.drop 32)

/-- The two shuffles that gather the sum of the four lanes in each of them. -/
def gather (v : Epi32) : Epi32 :=
  let v := mmAddEpi32 v (mmShuffleEpi32 v 2 3 0 1)
  mmAddEpi32 v (mmShuffleEpi32 v 1 0 3 2)

def simdRound (n : Nat) (s : AdlerSums) (buf : List UInt8) : AdlerSums :=
  let v := simdLoop n
    ⟨mmSetEpi32 0 0 0 (s.adler * UInt32.ofNat n), mmSetEpi32 0 0 0 s.sum2, mmSetEpi32 0 0 0 0⟩ buf
  let vs2 := mmAddEpi32 v.s2 (mmSlliEpi32 v.ps 5)
  let s1 := s.adler + mmCvtsi128Si32 (gather v.s1)
  let s2 := mmCvtsi128Si32 (gather vs2)
  modBase ⟨s1, s2⟩

def roundsLoop : Nat → Nat → AdlerSums → List UInt8 → AdlerSums × List UInt8
  | 0, _, s, buf => (s, buf)
  | fuel + 1, blocks, s, buf =>
    if blocks = 0 then (s, buf)
    else
      let n := min (nmax / 32) blocks
      roundsLoop fuel (blocks - n) (simdRound n s buf) (buf.drop (32 * n))

/-- The leftover data: sixteen unrolled sums, then one at a time. -/
def simdTail (s : AdlerSums) (buf : List UInt8) : AdlerSums :=
  if buf.length = 0 then s
  else
    let (s, rest) := if buf.length ≥ 16 then ((buf.take 16).foldl do1 s, buf.drop 16) else (s, buf)
    let s := rest.foldl do1 s
    ⟨subtractBase s.adler, s.sum2 % adlerBase⟩

def adler32Simd (adler : UInt32) (buf : List UInt8) : UInt32 :=
  let (s, rest) := roundsLoop (buf.length / 32) (buf.length / 32) ⟨adler &&& 0xffff, adler >>> 16⟩ buf
  recombine (simdTail s rest)

/-! ## Lanes -/

def lanes (v : Epi32) : UInt32 := v 0 + v 1 + v 2 + v 3

open scoped UInt32.CommRing

theorem gather_lanes (v : Epi32) : mmCvtsi128Si32 (gather v) = lanes v := by
  simp only [mmCvtsi128Si32, gather, mmAddEpi32, mmShuffleEpi32, lanes, Matrix.cons_val_zero,
    Matrix.cons_val, Fin.isValue]
  ring

theorem lanes_add (a b : Epi32) : lanes (mmAddEpi32 a b) = lanes a + lanes b := by
  simp only [lanes, mmAddEpi32]
  ring

theorem shiftLeft_five (x : UInt32) : x <<< 5 = 32 * x := by
  apply UInt32.toNat_inj.mp
  rw [UInt32.toNat_shiftLeft, UInt32.toNat_mul, show (5 : UInt32).toNat % 32 = 5 from rfl,
    show (32 : UInt32).toNat = 32 from rfl, Nat.shiftLeft_eq, Nat.mul_comm]

theorem lanes_slli (v : Epi32) : lanes (mmSlliEpi32 v 5) = 32 * lanes v := by
  simp only [lanes, mmSlliEpi32, shiftLeft_five]
  ring

theorem lanes_set (x : UInt32) : lanes (mmSetEpi32 0 0 0 x) = x := by
  simp [lanes, mmSetEpi32]

def bytesOf (a : Epi8) : List UInt8 :=
  [a 0, a 1, a 2, a 3, a 4, a 5, a 6, a 7, a 8, a 9, a 10, a 11, a 12, a 13, a 14, a 15]

theorem bytesOf_load (bs rest : List UInt8) (sixteen : bs.length = 16) :
    bytesOf (mmLoaduSi128 (bs ++ rest)) = bs := by
  match bs, sixteen with
  | [b0, b1, b2, b3, b4, b5, b6, b7, b8, b9, b10, b11, b12, b13, b14, b15], _ => rfl

theorem lanes_sad (a : Epi8) : lanes (mmSadEpu8 a zero8) =
    UInt32.ofNat ((bytesOf a).map UInt8.toNat).sum := by
  simp only [lanes, mmSadEpu8, absDiff, zero8, UInt8.toNat_zero, Nat.sub_zero, Nat.zero_sub,
    Nat.add_zero, Matrix.cons_val, bytesOf, List.map_cons, List.map_nil, List.sum_cons,
    List.sum_nil, UInt32.ofNat_add]
  ring

theorem saturate16_toInt (n : Nat) (small : n ≤ 32767) : (saturate16 n).toInt = n := by
  unfold saturate16
  rw [Int16.toInt_ofInt_of_le (by omega) (by omega)]
  omega

theorem madd_pair (x y : Nat) (hx : x ≤ 32767) (hy : y ≤ 32767) :
    (Int32.ofInt ((saturate16 x).toInt * 1 + (saturate16 y).toInt * 1)).toUInt32 =
      UInt32.ofNat (x + y) := by
  rw [saturate16_toInt x hx, saturate16_toInt y hy, mul_one, mul_one, ← Nat.cast_add,
    Int32.ofInt_eq_ofNat, Int32.toUInt32_ofNat']

/-- The multiply-adds with taps `t`, none of which is larger than 32: 16 bits never saturate. -/
theorem lanes_madd (a : Epi8) (t : Epi8) (c : Fin 16 → Nat) (taps : ∀ i, (t i).toInt8.toInt = c i)
    (bounded : ∀ i, c i ≤ 32) :
    lanes (mmMaddEpi16 (mmMaddubsEpi16 a t) ones16) = UInt32.ofNat
      ((a 0).toNat * c 0 + (a 1).toNat * c 1 + (a 2).toNat * c 2 + (a 3).toNat * c 3 +
       (a 4).toNat * c 4 + (a 5).toNat * c 5 + (a 6).toNat * c 6 + (a 7).toNat * c 7 +
       (a 8).toNat * c 8 + (a 9).toNat * c 9 + (a 10).toNat * c 10 + (a 11).toNat * c 11 +
       (a 12).toNat * c 12 + (a 13).toNat * c 13 + (a 14).toNat * c 14 +
       (a 15).toNat * c 15) := by
  have product (i : Fin 16) : (a i).toNat * c i ≤ 255 * 32 :=
    Nat.mul_le_mul (by have := (a i).toNat_lt; omega) (bounded i)
  have pair (i j : Fin 16) : (a i).toNat * c i + (a j).toNat * c j ≤ 32767 := by
    have := product i
    have := product j
    omega
  have one : (1 : Int16).toInt = 1 := rfl
  simp only [lanes, mmMaddEpi16, mmMaddubsEpi16, ones16, taps, one, Matrix.cons_val,
    ← Nat.cast_mul, ← Nat.cast_add]
  rw [madd_pair _ _ (pair 0 1) (pair 2 3), madd_pair _ _ (pair 4 5) (pair 6 7),
    madd_pair _ _ (pair 8 9) (pair 10 11), madd_pair _ _ (pair 12 13) (pair 14 15)]
  simp only [UInt32.ofNat_add]
  ring

theorem lanes_tap1 (a : Epi8) : lanes (mmMaddEpi16 (mmMaddubsEpi16 a tap1) ones16) =
    UInt32.ofNat (ramp ((bytesOf a).map UInt8.toNat) +
      16 * ((bytesOf a).map UInt8.toNat).sum) := by
  rw [lanes_madd a tap1 ![32, 31, 30, 29, 28, 27, 26, 25, 24, 23, 22, 21, 20, 19, 18, 17]
    (by decide) (by decide)]
  simp only [bytesOf, List.map_cons, List.map_nil, List.sum_cons, List.sum_nil, ramp,
    List.length_cons, List.length_nil, Matrix.cons_val]
  congr 1
  ring

theorem lanes_tap2 (a : Epi8) : lanes (mmMaddEpi16 (mmMaddubsEpi16 a tap2) ones16) =
    UInt32.ofNat (ramp ((bytesOf a).map UInt8.toNat)) := by
  rw [lanes_madd a tap2 ![16, 15, 14, 13, 12, 11, 10, 9, 8, 7, 6, 5, 4, 3, 2, 1]
    (by decide) (by decide)]
  simp only [bytesOf, List.map_cons, List.map_nil, ramp, List.length_cons, List.length_nil,
    Matrix.cons_val]
  congr 1
  ring

/-! ## Blocks -/

theorem simdBlock_lanes (v : SimdSums) (block rest : List UInt8) (full : block.length = 32) :
    let r := simdBlock v (block ++ rest)
    lanes r.ps = lanes v.ps + lanes v.s1 ∧
    lanes r.s1 = lanes v.s1 + UInt32.ofNat (block.map UInt8.toNat).sum ∧
    lanes r.s2 = lanes v.s2 + UInt32.ofNat (ramp (block.map UInt8.toNat)) := by
  obtain ⟨first, second, rfl, left, right⟩ : ∃ first second : List UInt8,
      block = first ++ second ∧ first.length = 16 ∧ second.length = 16 :=
    ⟨block.take 16, block.drop 16, (List.take_append_drop 16 block).symm,
      by rw [List.length_take]; omega, by rw [List.length_drop]; omega⟩
  have upper : (first ++ second ++ rest).drop 16 = second ++ rest := by
    rw [List.append_assoc, List.drop_left' left]
  refine ⟨lanes_add _ _, ?_, ?_⟩
  · simp only [simdBlock, lanes_add, lanes_sad, upper, bytesOf_load second rest right]
    rw [List.append_assoc, bytesOf_load first _ left]
    simp only [List.map_append, List.sum_append, UInt32.ofNat_add]
    ring
  · simp only [simdBlock, lanes_add, lanes_tap1, lanes_tap2, upper,
      bytesOf_load second rest right]
    rw [List.append_assoc, bytesOf_load first _ left, List.map_append, ramp_append,
      List.length_map, right]
    simp only [UInt32.ofNat_add]
    ring

/-- The prefix sums kept in `v_ps` carry the factor 32 of every later block. -/
theorem simdLoop_lanes (n : Nat) (v : SimdSums) (data rest : List UInt8)
    (full : data.length = 32 * n) :
    let r := simdLoop n v (data ++ rest)
    lanes r.s1 = lanes v.s1 + UInt32.ofNat (data.map UInt8.toNat).sum ∧
    lanes r.s2 + 32 * lanes r.ps = lanes v.s2 + 32 * lanes v.ps +
      UInt32.ofNat (32 * n) * lanes v.s1 + UInt32.ofNat (ramp (data.map UInt8.toNat)) := by
  induction n generalizing v data with
  | zero =>
    obtain rfl := List.length_eq_zero_iff.mp full
    simp [simdLoop, ramp]
  | succ n ih =>
    obtain ⟨block, later, rfl, head, tail⟩ : ∃ block later : List UInt8,
        data = block ++ later ∧ block.length = 32 ∧ later.length = 32 * n :=
      ⟨data.take 32, data.drop 32, (List.take_append_drop 32 data).symm,
        by rw [List.length_take]; omega, by rw [List.length_drop]; omega⟩
    obtain ⟨ps, s1, s2⟩ := simdBlock_lanes v block (later ++ rest) head
    obtain ⟨total, ramps⟩ := ih (simdBlock v (block ++ (later ++ rest))) later tail
    have next : simdLoop (n + 1) v (block ++ later ++ rest) =
        simdLoop n (simdBlock v (block ++ (later ++ rest))) (later ++ rest) := by
      rw [simdLoop, List.append_assoc, List.drop_left' head]
    simp only [next]
    refine ⟨?_, ?_⟩
    · rw [total, s1, List.map_append, List.sum_append, UInt32.ofNat_add]
      ring
    · rw [ramps, ps, s1, s2, List.map_append, ramp_append, List.length_map, tail, Nat.mul_succ]
      simp only [UInt32.ofNat_add, UInt32.ofNat_mul, show UInt32.ofNat 32 = 32 from rfl]
      ring

theorem simdRound_foldl (n : Nat) (s : Nat × Nat) (data rest : List UInt8)
    (full : data.length = 32 * n) :
    simdRound n (ofSums s) (data ++ rest) = modBase (data.foldl do1 (ofSums s)) := by
  obtain ⟨total, ramps⟩ := simdLoop_lanes n ⟨mmSetEpi32 0 0 0 ((ofSums s).adler * UInt32.ofNat n),
    mmSetEpi32 0 0 0 (ofSums s).sum2, mmSetEpi32 0 0 0 0⟩ data rest full
  unfold simdRound
  simp only [gather_lanes, lanes_add, lanes_slli, total, ramps, lanes_set]
  rw [foldl_do1, full]
  simp only [ofSums, UInt32.ofNat_add, UInt32.ofNat_mul, show UInt32.ofNat 32 = 32 from rfl]
  congr 2
  · ring
  · ring

theorem roundsLoop_reference (fuel blocks : Nat) (s : Nat × Nat) (data rest : List UInt8)
    (reduced : Reduced s) (full : data.length = 32 * blocks) (enough : blocks ≤ fuel) :
    roundsLoop fuel blocks (ofSums s) (data ++ rest) = (ofSums (referenceSums s data), rest) := by
  induction fuel generalizing blocks s data with
  | zero =>
    obtain rfl := List.length_eq_zero_iff.mp (show data.length = 0 by omega)
    rfl
  | succ fuel ih =>
    rw [roundsLoop]
    by_cases none : blocks = 0
    · obtain rfl := List.length_eq_zero_iff.mp (show data.length = 0 by omega)
      rw [if_pos none]
      rfl
    · have rounds : min (nmax / 32) blocks ≤ 173 := Nat.min_le_left ..
      have some : 0 < min (nmax / 32) blocks := by simp only [nmax]; omega
      have most : min (nmax / 32) blocks ≤ blocks := Nat.min_le_right ..
      rw [if_neg none]
      generalize min (nmax / 32) blocks = n at rounds some most
      obtain ⟨now, later, rfl, head, tail⟩ : ∃ now later : List UInt8,
          data = now ++ later ∧ now.length = 32 * n ∧ later.length = 32 * (blocks - n) :=
        ⟨data.take (32 * n), data.drop (32 * n), (List.take_append_drop _ data).symm,
          by rw [List.length_take]; omega, by rw [List.length_drop]; omega⟩
      simp only [List.append_assoc]
      rw [simdRound_foldl n s now (later ++ rest) head, List.drop_left' head,
        modBase_foldl s now reduced (by unfold nmax; omega),
        ih (blocks - n) _ later (referenceSums_reduced s now reduced) tail (by omega),
        referenceSums_append]

theorem simdTail_reference (s : Nat × Nat) (rest : List UInt8) (reduced : Reduced s)
    (short : rest.length < 32) :
    simdTail (ofSums s) rest = ofSums (referenceSums s rest) := by
  unfold simdTail
  by_cases none : rest.length = 0
  · obtain rfl := List.length_eq_zero_iff.mp none
    rfl
  · rw [if_neg none, ← subtractBase_foldl s rest reduced short]
    by_cases unrolled : rest.length ≥ 16
    · simp only [if_pos unrolled]
      rw [← List.foldl_append, List.take_append_drop]
    · simp only [if_neg unrolled]

theorem adler32Simd_reference (adler : UInt32) (buf : List UInt8)
    (reduced : Reduced (lowHalf adler, highHalf adler)) :
    adler32Simd adler buf = referenceAdler32 adler buf := by
  obtain ⟨data, rest, split, full, short⟩ : ∃ data rest : List UInt8,
      buf = data ++ rest ∧ data.length = 32 * (buf.length / 32) ∧ rest.length < 32 :=
    ⟨buf.take (32 * (buf.length / 32)), buf.drop (32 * (buf.length / 32)),
      (List.take_append_drop _ buf).symm, by rw [List.length_take]; omega,
      by rw [List.length_drop]; omega⟩
  have sums : (⟨adler &&& 0xffff, adler >>> 16⟩ : AdlerSums) =
      ofSums (lowHalf adler, highHalf adler) := by
    rw [low_ofSums, high_ofSums]
    rfl
  have rounds := roundsLoop_reference (buf.length / 32) _ _ data rest reduced full (Nat.le_refl _)
  unfold adler32Simd
  rw [sums]
  generalize buf.length / 32 = blocks at rounds
  rw [split, rounds]
  simp only
  rw [simdTail_reference _ rest (referenceSums_reduced _ data reduced) short,
    ← referenceSums_append, recombine_reference]

end PngDecode.Zlib
