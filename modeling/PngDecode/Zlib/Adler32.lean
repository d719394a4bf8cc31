import PngDecode.Zlib.AdlerSimd

/-! # `adler32_z` -/

namespace PngDecode.Zlib
open PngDecode.Lib

/-! ## The code -/

def do16Loop : Nat → AdlerSums → List UInt8 → AdlerSums × List UInt8
  | 0, s, buf => (s, buf)
  | n + 1, s, buf => do16Loop n ((buf.take 16).foldl do1 s) (buf.drop 16)

def nmaxLoop : Nat → AdlerSums → List UInt8 → AdlerSums × List UInt8
  | 0, s, buf => (s, buf)
  | blocks + 1, s, buf =>
    let (s, buf) := do16Loop (nmax / 16) s buf
    nmaxLoop blocks (modBase s) buf

/-- `adler32_z` below the dispatch. -/
def adler32Scalar (adler : UInt32) (buf : List UInt8) : UInt32 :=
  let s : AdlerSums := ⟨adler &&& 0xffff, (adler >>> 16) &&& 0xffff⟩
  if buf.length = 1 then
    let adler := subtractBase (s.adler + (buf.getD 0 0).toUInt32)
    recombine ⟨adler, subtractBase (s.sum2 + adler)⟩
  else if buf.length < 16 then
    let s := buf.foldl do1 s
    recombine ⟨subtractBase s.adler, s.sum2 % adlerBase⟩
  else
    let (s, rest) := nmaxLoop (buf.length / nmax) s buf
    if rest.length = 0 then recombine s
    else
      let (s, rest) := do16Loop (rest.length / 16) s rest
      recombine (modBase (rest.foldl do1 s))

def adler32Z (x86CpuEnableSsse3 : Bool) (adler : UInt32) (buf : Option (List UInt8)) : UInt32 :=
  match buf with
  | none => 1
  | some buf =>
    if x86CpuEnableSsse3 ∧ buf.length ≥ 64 then adler32Simd adler buf else adler32Scalar adler buf

/-! ## The scalar path -/

theorem do16Loop_foldl (n : Nat) (s : AdlerSums) (data rest : List UInt8)
    (full : data.length = 16 * n) : do16Loop n s (data ++ rest) = (data.foldl do1 s, rest) := by
  induction n generalizing s data with
  | zero =>
    obtain rfl := List.length_eq_zero_iff.mp full
    rfl
  | succ n ih =>
    obtain ⟨now, later, rfl, head, tail⟩ : ∃ now later : List UInt8,
        data = now ++ later ∧ now.length = 16 ∧ later.length = 16 * n :=
      ⟨data.take 16, data.drop 16, (List.take_append_drop 16 data).symm,
        by rw [List.length_take]; omega, by rw [List.length_drop]; omega⟩
    rw [do16Loop, List.append_assoc, List.take_left' head, List.drop_left' head, ih _ later tail,
      List.foldl_append]

theorem nmaxLoop_reference (blocks : Nat) (s : Nat × Nat) (data rest : List UInt8)
    (reduced : Reduced s) (full : data.length = nmax * blocks) :
    nmaxLoop blocks (ofSums s) (data ++ rest) = (ofSums (referenceSums s data), rest) := by
  induction blocks generalizing s data with
  | zero =>
    obtain rfl := List.length_eq_zero_iff.mp full
    rfl
  | succ blocks ih =>
    obtain ⟨now, later, rfl, head, tail⟩ : ∃ now later : List UInt8,
        data = now ++ later ∧ now.length = nmax ∧ later.length = nmax * blocks :=
      ⟨data.take nmax, data.drop nmax, (List.take_append_drop _ data).symm,
        by rw [List.length_take, full, Nat.mul_succ]; omega,
        by rw [List.length_drop, full, Nat.mul_succ]; omega⟩
    have block := do16Loop_foldl (nmax / 16) (ofSums s) now (later ++ rest) (by rw [head]; rfl)
    rw [nmaxLoop, List.append_assoc, block]
    simp only
    rw [modBase_foldl s now reduced (Nat.le_of_eq head),
      ih _ later (referenceSums_reduced s now reduced) tail, referenceSums_append]

theorem oneByte_reference (s : Nat × Nat) (b : UInt8) (reduced : Reduced s) :
    (⟨subtractBase ((ofSums s).adler + b.toUInt32),
      subtractBase ((ofSums s).sum2 + subtractBase ((ofSums s).adler + b.toUInt32))⟩ : AdlerSums) =
      ofSums (referenceSums s [b]) := by
  obtain ⟨first, second⟩ := reduced
  have byte := b.toNat_lt
  have widen : b.toUInt32 = UInt32.ofNat b.toNat := by
    apply UInt32.toNat_inj.mp
    rw [UInt8.toNat_toUInt32, UInt32.toNat_ofNat', Nat.mod_eq_of_lt (by omega)]
  have sum : subtractBase ((ofSums s).adler + b.toUInt32) =
      UInt32.ofNat ((s.1 + b.toNat) % 65521) := by
    rw [widen, ofSums, ← UInt32.ofNat_add, subtractBase_ofNat _ (by omega)]
  rw [sum]
  simp only [ofSums, ← UInt32.ofNat_add]
  rw [subtractBase_ofNat _ (by omega)]
  rfl

theorem adler32Scalar_reference (adler : UInt32) (buf : List UInt8)
    (reduced : Reduced (lowHalf adler, highHalf adler)) :
    adler32Scalar adler buf = referenceAdler32 adler buf := by
  have masked : adler >>> (16 : UInt32) &&& (0xffff : UInt32) = adler >>> (16 : UInt32) := by
    apply UInt32.toNat_inj.mp
    have := adler.toNat_lt
    rw [UInt32.toNat_and, show (0xffff : UInt32).toNat = 2 ^ 16 - 1 from rfl,
      Nat.and_two_pow_sub_one_eq_mod, UInt32.toNat_shiftRight,
      show (16 : UInt32).toNat % 32 = 16 from rfl, Nat.shiftRight_eq_div_pow]
    omega
  have sums : (⟨adler &&& 0xffff, (adler >>> 16) &&& 0xffff⟩ : AdlerSums) =
      ofSums (lowHalf adler, highHalf adler) := by
    rw [masked, low_ofSums, high_ofSums]
    rfl
  unfold adler32Scalar
  rw [sums, ← recombine_reference]
  generalize (lowHalf adler, highHalf adler) = s at reduced
  by_cases one : buf.length = 1
  · obtain ⟨b, rfl⟩ := List.length_eq_one_iff.mp one
    rw [if_pos one, ← oneByte_reference s b reduced]
    rfl
  by_cases short : buf.length < 16
  · rw [if_neg one, if_pos short]
    simp only
    rw [subtractBase_foldl s buf reduced (by omega)]
  · obtain ⟨data, rest, split, full, left⟩ : ∃ data rest : List UInt8, buf = data ++ rest ∧
        data.length = nmax * (buf.length / nmax) ∧ rest.length < nmax := by
      have positive : 0 < nmax := by decide
      have whole := Nat.div_add_mod buf.length nmax
      have remainder := Nat.mod_lt buf.length positive
      exact ⟨buf.take (nmax * (buf.length / nmax)), buf.drop (nmax * (buf.length / nmax)),
        (List.take_append_drop _ buf).symm, by rw [List.length_take]; omega,
        by rw [List.length_drop]; omega⟩
    have blocks := nmaxLoop_reference _ s data rest reduced full
    have middle := referenceSums_reduced s data reduced
    rw [if_neg one, if_neg short]
    generalize buf.length / nmax = count at blocks
    rw [split, blocks, referenceSums_append]
    simp only
    by_cases none : rest.length = 0
    · obtain rfl := List.length_eq_zero_iff.mp none
      rfl
    · obtain ⟨now, later, rest_eq, head⟩ : ∃ now later : List UInt8,
          rest = now ++ later ∧ now.length = 16 * (rest.length / 16) :=
        ⟨rest.take (16 * (rest.length / 16)), rest.drop (16 * (rest.length / 16)),
          (List.take_append_drop _ rest).symm, by rw [List.length_take]; omega⟩
      have sixteens := do16Loop_foldl _ (ofSums (referenceSums s data)) now later head
      rw [← rest_eq] at sixteens
      rw [if_neg none, sixteens]
      simp only
      rw [← List.foldl_append, ← rest_eq, modBase_foldl _ rest middle (by omega)]

/-! ## Every way of cutting the string -/

theorem adler32Z_reference (ssse3 : Bool) (adler : UInt32) (buf : List UInt8)
    (reduced : Reduced (lowHalf adler, highHalf adler)) :
    adler32Z ssse3 adler (some buf) = referenceAdler32 adler buf := by
  unfold adler32Z
  simp only
  by_cases dispatched : ssse3 = true ∧ buf.length ≥ 64
  · rw [if_pos dispatched, adler32Simd_reference adler buf reduced]
  · rw [if_neg dispatched, adler32Scalar_reference adler buf reduced]

/-- Folding `adler32_z` over any chunks, with the vector code switched on or off for each of them,
gives the Adler-32 of the whole string; and where the vector code is used, it returns what the
scalar code returns. -/
theorem adler32Z_chunks (start : UInt32) (low : lowHalf start < 65521)
    (high : highHalf start < 65521) :
    (∀ chunks : List (Bool × List UInt8),
      chunks.foldl (fun adler chunk => adler32Z chunk.1 adler (some chunk.2)) start =
        referenceAdler32 start (chunks.flatMap Prod.snd)) ∧
    ∀ buf : List UInt8, 64 ≤ buf.length →
      adler32Z true start (some buf) = adler32Simd start buf ∧
      adler32Simd start buf = adler32Scalar start buf ∧
      adler32Scalar start buf = adler32Z false start (some buf) := by
  have reduced : Reduced (lowHalf start, highHalf start) := ⟨low, high⟩
  refine ⟨fun chunks => ?_, fun buf long => ⟨?_, ?_, ?_⟩⟩
  · have run (s : Nat × Nat) (reduced : Reduced s) :
        chunks.foldl (fun adler chunk => adler32Z chunk.1 adler (some chunk.2))
          (recombine (ofSums s)) =
          recombine (ofSums (referenceSums s (chunks.flatMap Prod.snd))) := by
      induction chunks generalizing s with
      | nil => rfl
      | cons chunk chunks ih =>
        have call : adler32Z chunk.1 (recombine (ofSums s)) (some chunk.2) =
            recombine (ofSums (referenceSums s chunk.2)) := by
          rw [adler32Z_reference _ _ _ (by rw [halves_recombine s reduced]; exact reduced),
            ← recombine_reference, halves_recombine s reduced]
        rw [List.foldl_cons, call, ih _ (referenceSums_reduced s chunk.2 reduced),
          List.flatMap_cons, referenceSums_append]
    have whole : start = recombine (ofSums (lowHalf start, highHalf start)) := by
      apply UInt32.toNat_inj.mp
      rw [recombine_toNat _ reduced]
      unfold lowHalf highHalf
      omega
    have all := run _ reduced
    rw [← whole, recombine_reference] at all
    exact all
  · exact if_pos ⟨rfl, long⟩
  · rw [adler32Simd_reference start buf reduced, adler32Scalar_reference start buf reduced]
  · simp [adler32Z]

theorem adler32Z_chunks_two :
    [(true, [72, 101, 108, 108]), (false, [111, 32, 112, 110, 103, 33])].foldl
      (fun adler chunk => adler32Z chunk.1 adler (some chunk.2)) 1 = 0x13ee037b ∧
    adler32Z true 1 (some (List.replicate 70 255)) =
      adler32Z false 1 (some (List.replicate 70 255)) := by
  have whole := adler32Z_chunks 1 (by decide) (by decide)
  obtain ⟨first, second, third⟩ := whole.2 (List.replicate 70 255) (by decide)
  refine ⟨?_, first.trans (second.trans third)⟩
  rw [whole.1]
  decide

end PngDecode.Zlib
