import PngDecode.Lib.Bytes
import PngDecode.Libpng.Types
import Mathlib.Algebra.Order.Round
import Mathlib.Data.Rat.Floor
import Mathlib.Tactic

/-! # The Skia row conversion of `png_decoder.cpp` -/

namespace PngDecode.Decoder
open PngDecode.Lib PngDecode.Libpng

/-! ## The code -/

def skMulDiv255Round (a b : UInt32) : UInt32 :=
  let prod := a * b + 128
  (prod + (prod >>> 8)) >>> 8

def skPackARGB32 (a r g b : UInt32) : UInt32 :=
  (a <<< 24) ||| (r <<< 16) ||| (g <<< 8) ||| (b <<< 0)

def skPremultiplyARGBInline (a r g b : UInt32) : UInt32 :=
  if a ≠ 255 then
    skPackARGB32 a (skMulDiv255Round r a) (skMulDiv255Round g a) (skMulDiv255Round b a)
  else skPackARGB32 a r g b

def skPreMultiplyARGB (a r g b : UInt32) : UInt32 := skPremultiplyARGBInline a r g b

/-- The loop of `ConvertRGBARowToSkia`, with at most as many rounds as the row has bytes. -/
def convertLoop (channels rowEnd : Nat) : Nat → Nat → List UInt8 → Bool → List UInt8 × Bool
  | 0, _, mem, isOpaque => (mem, isOpaque)
  | fuel + 1, p, mem, isOpaque =>
    if p < rowEnd then
      let alpha := mem.getD (p + channels - 1) 0
      let r := (mem.getD p 0).toUInt32
      let g := (mem.getD (p + 1) 0).toUInt32
      let b := (mem.getD (p + 2) 0).toUInt32
      if alpha ≠ 255 then
        convertLoop channels rowEnd fuel (p + channels)
          (overwrite mem p (word32le (skPreMultiplyARGB alpha.toUInt32 r g b))) false
      else
        convertLoop channels rowEnd fuel (p + channels)
          (overwrite mem p (word32le (skPackARGB32 alpha.toUInt32 r g b))) isOpaque
    else (mem, isOpaque)

def convertRGBARowToSkia (rowInfo : PngRowInfo) (mem : List UInt8) (data : Nat)
    (isOpaque : Bool) : List UInt8 × Bool :=
  convertLoop rowInfo.channels (data + rowInfo.rowbytes) rowInfo.rowbytes data mem isOpaque

/-! ## Rounding -/

def premul (x a : UInt8) : UInt8 := (skMulDiv255Round x.toUInt32 a.toUInt32).toUInt8

theorem skMulDiv255Round_toNat (x a : UInt8) :
    (skMulDiv255Round x.toUInt32 a.toUInt32).toNat =
      (x.toNat * a.toNat + 128 + (x.toNat * a.toNat + 128) / 256) / 256 := by
  have small : x.toNat * a.toNat ≤ 255 * 255 :=
    Nat.mul_le_mul (by have := x.toNat_lt; omega) (by have := a.toNat_lt; omega)
  simp only [skMulDiv255Round, UInt32.toNat_shiftRight, UInt32.toNat_add, UInt32.toNat_mul,
    UInt8.toNat_toUInt32, UInt32.toNat_ofNat, Nat.shiftRight_eq_div_pow, Nat.reducePow,
    Nat.reduceMod]
  omega

theorem premul_toNat (x a : UInt8) :
    (premul x a).toNat =
      (x.toNat * a.toNat + 128 + (x.toNat * a.toNat + 128) / 256) / 256 := by
  have small : x.toNat * a.toNat ≤ 255 * 255 :=
    Nat.mul_le_mul (by have := x.toNat_lt; omega) (by have := a.toNat_lt; omega)
  rw [premul, UInt32.toNat_toUInt8, skMulDiv255Round_toNat]
  omega

theorem premul_toUInt32 (x a : UInt8) :
    (premul x a).toUInt32 = skMulDiv255Round x.toUInt32 a.toUInt32 := by
  apply UInt32.toNat_inj.mp
  rw [UInt8.toNat_toUInt32, premul_toNat, skMulDiv255Round_toNat]

theorem premul_full (x : UInt8) : premul x 255 = x := by
  apply UInt8.toNat_inj.mp
  have := x.toNat_lt
  rw [premul_toNat, show (255 : UInt8).toNat = 255 from rfl]
  omega

theorem premul_le_alpha (x a : UInt8) : premul x a ≤ a := by
  have small : x.toNat * a.toNat ≤ 255 * a.toNat :=
    Nat.mul_le_mul_right _ (by have := x.toNat_lt; omega)
  have := a.toNat_lt
  rw [UInt8.le_iff_toNat_le, premul_toNat]
  omega

theorem premul_round (x a : UInt8) :
    ((premul x a).toNat : ℤ) = round ((x.toNat * a.toNat : ℚ) / 255) := by
  have small : x.toNat * a.toNat ≤ 255 * 255 :=
    Nat.mul_le_mul (by have := x.toNat_lt; omega) (by have := a.toNat_lt; omega)
  rw [premul_toNat, round_eq, eq_comm, Int.floor_eq_iff]
  generalize product : x.toNat * a.toNat = n at small
  have exact : (x.toNat : ℚ) * a.toNat = n := by rw [← product]; push_cast; rfl
  have lower : 510 * ((n + 128 + (n + 128) / 256) / 256) ≤ 2 * n + 255 := by omega
  have upper : 2 * n + 255 < 510 * ((n + 128 + (n + 128) / 256) / 256) + 510 := by omega
  generalize (n + 128 + (n + 128) / 256) / 256 = q at lower upper
  have lower : (510 * q : ℚ) ≤ 2 * n + 255 := by exact_mod_cast lower
  have upper : (2 * n + 255 : ℚ) < 510 * q + 510 := by exact_mod_cast upper
  rw [exact, Int.cast_natCast]
  constructor <;> linarith

/-! ## One pixel -/

def skPixel (r g b a : UInt8) : UInt32 :=
  if a ≠ 255 then skPreMultiplyARGB a.toUInt32 r.toUInt32 g.toUInt32 b.toUInt32
  else skPackARGB32 a.toUInt32 r.toUInt32 g.toUInt32 b.toUInt32

theorem skPixel_eq (r g b a : UInt8) : skPixel r g b a =
    skPackARGB32 a.toUInt32 (premul r a).toUInt32 (premul g a).toUInt32
      (premul b a).toUInt32 := by
  have word : a.toUInt32 = 255 ↔ a = 255 := by
    rw [← UInt32.toNat_inj, ← UInt8.toNat_inj, UInt8.toNat_toUInt32]
    rfl
  unfold skPixel
  by_cases full : a = 255
  · subst full
    simp only [premul_full, ne_eq, not_true_eq_false, if_false]
  · simp only [skPreMultiplyARGB, skPremultiplyARGBInline, ne_eq, word, full, not_false_eq_true,
      if_true, premul_toUInt32]

theorem word32le_pack (a r g b : UInt8) :
    word32le (skPackARGB32 a.toUInt32 r.toUInt32 g.toUInt32 b.toUInt32) = [b, g, r, a] := by
  simp only [word32le, skPackARGB32, List.cons.injEq, and_true]
  refine ⟨?_, ?_, ?_, ?_⟩
  all_goals
    apply UInt8.eq_of_toBitVec_eq
    ext i hi
    simp
    try interval_cases i <;> simp

def skiaPixel (px : List UInt8) : List UInt8 :=
  let a := px.getD 3 0
  [premul (px.getD 2 0) a, premul (px.getD 1 0) a, premul (px.getD 0 0) a, a]

theorem word32le_skPixel (r g b a : UInt8) :
    word32le (skPixel r g b a) = skiaPixel [r, g, b, a] := by
  rw [skPixel_eq, word32le_pack]
  rfl

/-! ## One row -/

theorem convertLoop_succ (rowEnd fuel p : Nat) (mem : List UInt8) (isOpaque : Bool)
    (inside : p < rowEnd) :
    convertLoop 4 rowEnd (fuel + 1) p mem isOpaque =
      convertLoop 4 rowEnd fuel (p + 4)
        (overwrite mem p (word32le (skPixel (mem.getD p 0) (mem.getD (p + 1) 0)
          (mem.getD (p + 2) 0) (mem.getD (p + 3) 0))))
        (isOpaque && mem.getD (p + 3) 0 == 255) := by
  rw [convertLoop, if_pos inside]
  simp only [skPixel, show p + 4 - 1 = p + 3 by omega]
  generalize mem.getD (p + 3) 0 = alpha
  by_cases full : alpha = 255
  · simp [full]
  · simp [full, beq_eq_false_iff_ne.mpr full]

theorem convertLoop_row (n fuel : Nat) (pre row post : List UInt8) (isOpaque : Bool)
    (full : row.length = 4 * n) (enough : n < fuel ∨ n = fuel) :
    convertLoop 4 (pre.length + 4 * n) fuel pre.length (pre ++ row ++ post) isOpaque =
      (pre ++ mapPixels 4 skiaPixel n row ++ post,
        isOpaque && decide (∀ k < n, row.getD (4 * k + 3) 0 = 255)) := by
  induction n generalizing fuel pre row isOpaque with
  | zero =>
    obtain rfl := List.length_eq_zero_iff.mp full
    cases fuel <;> simp [convertLoop, mapPixels]
  | succ n ih =>
    obtain ⟨r, g, b, a, rest, rfl⟩ : ∃ r g b a rest, row = r :: g :: b :: a :: rest := by
      rcases row with _ | ⟨r, _ | ⟨g, _ | ⟨b, _ | ⟨a, rest⟩⟩⟩⟩ <;>
        simp only [List.length_cons, List.length_nil] at full <;> try omega
      exact ⟨r, g, b, a, rest, rfl⟩
    obtain ⟨fuel, rfl⟩ : ∃ m, fuel = m + 1 := ⟨fuel - 1, by omega⟩
    have rest_full : rest.length = 4 * n := by simp only [List.length_cons] at full; omega
    have read (i : Nat) (hi : i < 4) : (pre ++ (r :: g :: b :: a :: rest) ++ post).getD
        (pre.length + i) 0 = [r, g, b, a].getD i 0 := by
      rw [List.append_assoc, List.getD_append_right _ _ _ _ (by omega), Nat.add_sub_cancel_left]
      interval_cases i <;> rfl
    have stored : overwrite (pre ++ (r :: g :: b :: a :: rest) ++ post) pre.length
        (skiaPixel [r, g, b, a]) = pre ++ skiaPixel [r, g, b, a] ++ rest ++ post := by
      have := overwrite_append pre [r, g, b, a] (skiaPixel [r, g, b, a]) (rest ++ post) rfl
      simpa only [List.append_assoc, List.cons_append, List.nil_append] using this
    have position : (pre ++ skiaPixel [r, g, b, a]).length = pre.length + 4 := by
      rw [List.length_append]; rfl
    have alphas : decide (∀ k < n + 1, (r :: g :: b :: a :: rest).getD (4 * k + 3) 0 = 255) =
        (a == 255 && decide (∀ k < n, rest.getD (4 * k + 3) 0 = 255)) := by
      rw [show (a == 255) = decide (a = 255) from rfl, ← Bool.decide_and, decide_eq_decide]
      constructor
      · exact fun all => ⟨all 0 (by omega), fun k hk => all (k + 1) (by omega)⟩
      · rintro ⟨first, others⟩ k hk
        cases k with
        | zero => exact first
        | succ k => exact others k (by omega)
    rw [alphas, convertLoop_succ _ _ _ _ _ (by omega), show pre.length = pre.length + 0 from rfl,
      read 0 (by omega), Nat.add_zero, read 1 (by omega), read 2 (by omega), read 3 (by omega)]
    simp only [List.getD_cons_zero, List.getD_cons_succ]
    rw [word32le_skPixel, stored, ← position, show pre.length + 4 * (n + 1) =
      (pre ++ skiaPixel [r, g, b, a]).length + 4 * n by rw [position]; omega,
      ih fuel _ rest _ rest_full (by omega)]
    rw [Bool.and_assoc]
    simp only [mapPixels, List.take_succ_cons, List.take_zero, List.drop_succ_cons,
      List.drop_zero, List.append_assoc]

theorem convertRGBARowToSkia_row (rowInfo : PngRowInfo) (n : Nat) (pre row post : List UInt8)
    (isOpaque : Bool) (channels : rowInfo.channels = 4) (bytes : rowInfo.rowbytes = 4 * n)
    (full : row.length = 4 * n) :
    convertRGBARowToSkia rowInfo (pre ++ row ++ post) pre.length isOpaque =
      (pre ++ mapPixels 4 skiaPixel n row ++ post,
        isOpaque && decide (∀ k < n, row.getD (4 * k + 3) 0 = 255)) := by
  unfold convertRGBARowToSkia
  rw [channels, bytes]
  exact convertLoop_row n (4 * n) pre row post isOpaque full (by omega)

theorem skiaPixel_length (px : List UInt8) : (skiaPixel px).length = 4 := rfl

theorem skiaPixel_word (px : List UInt8) (mem : List UInt8) (off : Nat)
    (stored : ∀ j < 4, mem.getD (off + j) 0 = (skiaPixel px).getD j 0) :
    readWord32le mem off =
      (px.getD 3 0).toUInt32 <<< 24 ||| (premul (px.getD 0 0) (px.getD 3 0)).toUInt32 <<< 16 |||
        (premul (px.getD 1 0) (px.getD 3 0)).toUInt32 <<< 8 |||
        (premul (px.getD 2 0) (px.getD 3 0)).toUInt32 := by
  unfold readWord32le
  rw [← Nat.add_zero off, stored 0 (by omega), Nat.add_zero, stored 1 (by omega),
    stored 2 (by omega), stored 3 (by omega)]
  simp only [skiaPixel, List.getD_cons_zero, List.getD_cons_succ]
  generalize (px.getD 3 0).toUInt32 <<< 24 = a
  generalize (premul (px.getD 2 0) (px.getD 3 0)).toUInt32 = b
  generalize (premul (px.getD 1 0) (px.getD 3 0)).toUInt32 <<< 8 = g
  generalize (premul (px.getD 0 0) (px.getD 3 0)).toUInt32 <<< 16 = r
  rw [UInt32.or_comm _ a, UInt32.or_comm _ r, UInt32.or_comm b g, ← UInt32.or_assoc,
    ← UInt32.or_assoc]

/-- Each pixel of the row becomes the premultiplied word with its alpha, nothing outside the row
changes, and the opacity flag stays set only if every pixel is opaque. -/
theorem convertRGBARowToSkia_spec (rowInfo : PngRowInfo) (n data : Nat) (mem : List UInt8)
    (isOpaque : Bool) (channels : rowInfo.channels = 4) (bytes : rowInfo.rowbytes = 4 * n)
    (inside : data + 4 * n ≤ mem.length) :
    let result := convertRGBARowToSkia rowInfo mem data isOpaque
    result.1.length = mem.length ∧
    (∀ i, i < data ∨ data + 4 * n ≤ i → result.1.getD i 0 = mem.getD i 0) ∧
    (∀ k < n, ∃ r' g' b' : UInt8, ∃ a, a = mem.getD (data + 4 * k + 3) 0 ∧
      (r'.toNat : ℤ) = round (((mem.getD (data + 4 * k) 0).toNat * a.toNat : ℚ) / 255) ∧
      (g'.toNat : ℤ) = round (((mem.getD (data + 4 * k + 1) 0).toNat * a.toNat : ℚ) / 255) ∧
      (b'.toNat : ℤ) = round (((mem.getD (data + 4 * k + 2) 0).toNat * a.toNat : ℚ) / 255) ∧
      readWord32le result.1 (data + 4 * k) =
        a.toUInt32 <<< 24 ||| r'.toUInt32 <<< 16 ||| g'.toUInt32 <<< 8 ||| b'.toUInt32 ∧
      r' ≤ a ∧ g' ≤ a ∧ b' ≤ a) ∧
    (result.2 = true ↔ isOpaque = true ∧ ∀ k < n, mem.getD (data + 4 * k + 3) 0 = 255) := by
  obtain ⟨pre, row, post, rfl, rfl, full⟩ : ∃ pre row post : List UInt8,
      mem = pre ++ row ++ post ∧ pre.length = data ∧ row.length = 4 * n := by
    refine ⟨mem.take data, (mem.drop data).take (4 * n), (mem.drop data).drop (4 * n), ?_, ?_, ?_⟩
    · rw [List.append_assoc, List.take_append_drop, List.take_append_drop]
    · rw [List.length_take]; omega
    · rw [List.length_take, List.length_drop]; omega
  have wide : ∀ px : List UInt8, px.length = 4 → (skiaPixel px).length = 4 := fun _ _ => rfl
  have length := mapPixels_length 4 4 skiaPixel n row wide full
  have byte (out : List UInt8) (hout : out.length = 4 * n) (i : Nat) (hi : i < 4 * n) :
      (pre ++ out ++ post).getD (pre.length + i) 0 = out.getD i 0 := by
    rw [List.append_assoc, List.getD_append_right _ _ _ _ (by omega), Nat.add_sub_cancel_left,
      List.getD_append _ _ _ _ (by omega)]
  rw [convertRGBARowToSkia_row rowInfo n pre row post isOpaque channels bytes full]
  refine ⟨by simp only [List.length_append, length, full], ?_, ?_, ?_⟩
  · rintro i (before | after)
    · rw [List.append_assoc, List.append_assoc, List.getD_append _ _ _ _ before,
        List.getD_append _ _ _ _ before]
    · rw [List.getD_append_right _ _ _ _ (by rw [List.length_append, length]; exact after),
        List.getD_append_right _ _ _ _ (by rw [List.length_append, full]; exact after),
        List.length_append, List.length_append, length, full]
  · intro k hk
    have old (j : Nat) (hj : j < 4) : (pre ++ row ++ post).getD (pre.length + 4 * k + j) 0 =
        ((row.drop (4 * k)).take 4).getD j 0 := by
      rw [Nat.add_assoc, byte row full _ (by omega), List.getD_eq_getElem?_getD,
        List.getD_eq_getElem?_getD, List.getElem?_take, if_pos hj, List.getElem?_drop]
    have new (j : Nat) (hj : j < 4) :
        (pre ++ mapPixels 4 skiaPixel n row ++ post).getD (pre.length + 4 * k + j) 0 =
          (skiaPixel ((row.drop (4 * k)).take 4)).getD j 0 := by
      rw [Nat.add_assoc, byte _ length _ (by omega),
        mapPixels_getD 4 4 skiaPixel n row wide full hk hj]
    generalize (row.drop (4 * k)).take 4 = px at old new
    refine ⟨premul (px.getD 0 0) (px.getD 3 0), premul (px.getD 1 0) (px.getD 3 0),
      premul (px.getD 2 0) (px.getD 3 0), px.getD 3 0, (old 3 (by omega)).symm, ?_, ?_, ?_,
      skiaPixel_word px _ _ new, premul_le_alpha _ _, premul_le_alpha _ _, premul_le_alpha _ _⟩
    · rw [← old 0 (by omega)]; exact premul_round _ _
    · rw [old 1 (by omega)]; exact premul_round _ _
    · rw [old 2 (by omega)]; exact premul_round _ _
  · have alphas : (∀ k < n, row.getD (4 * k + 3) 0 = 255) ↔
        ∀ k < n, (pre ++ row ++ post).getD (pre.length + 4 * k + 3) 0 = 255 := by
      apply forall₂_congr
      intro k hk
      rw [Nat.add_assoc, byte row full _ (by omega)]
    simp only [alphas, Bool.and_eq_true, decide_eq_true_eq]

theorem convertRGBARowToSkia_spec_two :
    ∃ result, result = convertRGBARowToSkia ⟨2, 8, 6, 8, 4, 32⟩
        [9, 10, 20, 30, 128, 1, 2, 3, 255, 7] 1 true ∧
      result.1 = [9, 15, 10, 5, 128, 3, 2, 1, 255, 7] ∧ result.2 = false ∧
      result.1.length = 10 := by
  have spec := convertRGBARowToSkia_spec ⟨2, 8, 6, 8, 4, 32⟩ 2 1
    [9, 10, 20, 30, 128, 1, 2, 3, 255, 7] true rfl rfl (by decide)
  exact ⟨_, rfl, by decide, by decide, spec.1⟩

end PngDecode.Decoder
