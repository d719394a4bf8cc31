import PngDecode.Libpng.Pixels
import PngDecode.Libpng.Rows

/-! # Encoding a scanline

The bytes that an encoder stores for a row of pixels, before any filter, and that the reader
finds the same pixels in them. -/

namespace PngDecode.Libpng
open PngDecode.Lib

/-! ## Samples of less than a byte -/

/-- The first `n` samples as the digits of a number, in base 2^depth. -/
def digits (depth : Nat) (samples : List UInt8) : Nat → Nat
  | 0 => 0
  | n + 1 => digits depth samples n * 2 ^ depth + (samples.getD n 0).toNat

section Digits
variable {depth : Nat} {samples : List UInt8} (small : ∀ i, (samples.getD i 0).toNat < 2 ^ depth)
include small

theorem digits_lt (n : Nat) : digits depth samples n < 2 ^ (depth * n) := by
  induction n with
  | zero => simp [digits]
  | succ n ih =>
    have digit := small n
    have step : (digits depth samples n + 1) * 2 ^ depth ≤ 2 ^ (depth * n) * 2 ^ depth :=
      Nat.mul_le_mul_right _ ih
    rw [Nat.succ_mul] at step
    rw [digits, Nat.mul_succ, Nat.pow_add]
    omega

theorem digits_digit {n k : Nat} (hk : k < n) :
    digits depth samples n / 2 ^ (depth * (n - 1 - k)) % 2 ^ depth = (samples.getD k 0).toNat := by
  induction n with
  | zero => omega
  | succ n ih =>
    have digit := small n
    have positive := Nat.two_pow_pos depth
    by_cases last : k = n
    · subst last
      rw [Nat.add_sub_cancel, Nat.sub_self, Nat.mul_zero, Nat.pow_zero, Nat.div_one, digits,
        Nat.mul_comm, Nat.mul_add_mod, Nat.mod_eq_of_lt digit]
    · have shorter : n + 1 - 1 - k = n - 1 - k + 1 := by omega
      rw [← ih (by omega), shorter, Nat.mul_succ, Nat.add_comm (depth * _), Nat.pow_add,
        ← Nat.div_div_eq_div_mul, digits, Nat.mul_comm, Nat.mul_add_div positive,
        Nat.div_eq_of_lt digit, Nat.add_zero]

theorem packed_toNat {n : Nat} (fits : depth * n ≤ 8) (byte : depth < 8) :
    ((List.range n).foldl (fun (b : UInt8) i => b <<< UInt8.ofNat depth ||| samples.getD i 0)
      0).toNat = digits depth samples n := by
  induction n with
  | zero => rfl
  | succ n ih =>
    rw [Nat.mul_succ] at fits
    have bound := digits_lt small (n + 1)
    have max : 2 ^ (depth * (n + 1)) ≤ 2 ^ 8 := Nat.pow_le_pow_right (by decide) (by
      rw [Nat.mul_succ]; exact fits)
    rw [digits] at bound
    rw [List.range_succ, List.foldl_append, List.foldl_cons, List.foldl_nil, UInt8.toNat_or,
      UInt8.toNat_shiftLeft, ih (by omega), UInt8.toNat_ofNat', Nat.mod_eq_of_lt (a := depth) (by omega),
      Nat.mod_eq_of_lt byte, Nat.shiftLeft_eq, Nat.mod_eq_of_lt (by omega), ← Nat.shiftLeft_eq,
      ← Nat.shiftLeft_add_eq_or_of_lt (small n), Nat.shiftLeft_eq]
    rfl

end Digits

def packedDepth (depth : Nat) : Prop := depth = 1 ∨ depth = 2 ∨ depth = 4

theorem packByte_toNat {depth : Nat} {samples : List UInt8} (packed : packedDepth depth)
    (small : ∀ i, (samples.getD i 0).toNat < 2 ^ depth) :
    (packByte depth samples).toNat = digits depth samples (8 / depth) := by
  rcases packed with rfl | rfl | rfl <;> exact packed_toNat small (by decide) (by decide)

theorem packedPlace {depth : Nat} (packed : packedDepth depth) (i : Nat) :
    i * depth / 8 = i / (8 / depth) ∧ i % (8 / depth) < 8 / depth ∧
      8 - depth - i * depth % 8 = depth * (8 / depth - 1 - i % (8 / depth)) := by
  rcases packed with rfl | rfl | rfl <;> omega

theorem packedPixel_packRow {depth i : Nat} {samples : List UInt8} (packed : packedDepth depth)
    (small : ∀ i, (samples.getD i 0).toNat < 2 ^ depth) (hi : i < samples.length) :
    packedPixel depth (packRow depth samples) i = samples.getD i 0 := by
  obtain ⟨byte, place, shift⟩ := packedPlace packed i
  have inRow : i * depth / 8 < (samples.length * depth + 7) / 8 := by
    rcases packed with rfl | rfl | rfl <;> omega
  have mask : (UInt8.ofNat (2 ^ depth - 1)).toNat = 2 ^ depth - 1 := by
    rcases packed with rfl | rfl | rfl <;> rfl
  have low : depth * (8 / depth - 1 - i % (8 / depth)) < 8 := by
    have positive : 0 < depth := by rcases packed with rfl | rfl | rfl <;> decide
    omega
  have rest : ∀ k, (samples.drop (i / (8 / depth) * (8 / depth))).getD k 0 =
      samples.getD (i / (8 / depth) * (8 / depth) + k) 0 := fun k => by
    rw [List.getD_eq_getElem?_getD, List.getElem?_drop, ← List.getD_eq_getElem?_getD]
  have smallRest : ∀ k, ((samples.drop (i / (8 / depth) * (8 / depth))).getD k 0).toNat <
      2 ^ depth := fun k => by rw [rest]; exact small _
  have found : (packRow depth samples).getD (i * depth / 8) 0 =
      packByte depth (samples.drop (i / (8 / depth) * (8 / depth))) := by
    rw [packRow, List.getD_eq_getElem?_getD, List.getElem?_map, List.getElem?_range inRow, byte]
    rfl
  apply UInt8.toNat_inj.mp
  rw [packedPixel, found, shift, UInt8.toNat_and, UInt8.toNat_shiftRight, mask,
    Nat.and_two_pow_sub_one_eq_mod, UInt8.toNat_ofNat', Nat.mod_eq_of_lt (b := 2 ^ 8) (by omega),
    Nat.mod_eq_of_lt low, Nat.shiftRight_eq_div_pow, packByte_toNat packed smallRest,
    digits_digit smallRest place, rest, Nat.mul_comm, Nat.div_add_mod]

/-! ## A row of pixels -/

def encodeRow (h : Header) (n : Nat) (pixel : Nat → List UInt8) : List UInt8 :=
  if h.bitDepth < 8 then packRow h.bitDepth ((List.range n).map fun i => (pixel i).getD 0 0)
  else rowOf n pixel

/-- A pixel of an image: its bytes, or a sample of less than eight bits. -/
def IsPixel (h : Header) (px : List UInt8) : Prop :=
  if h.bitDepth < 8 then ∃ sample : UInt8, px = [sample] ∧ sample.toNat < 2 ^ h.bitDepth
  else px.length = h.channels * (h.bitDepth / 8)

theorem Header.Valid.packed {h : Header} (valid : h.Valid) (low : h.bitDepth < 8) :
    packedDepth h.bitDepth ∧ h.channels = 1 := by
  have formats : ∀ f ∈ pixelFormats, f.2 < 8 →
      (f.2 = 1 ∨ f.2 = 2 ∨ f.2 = 4) ∧ channelsOf f.1 = 1 := by decide
  rw [valid.channels]
  exact formats _ valid.format low

theorem Header.Valid.whole {h : Header} (valid : h.Valid) (high : ¬ h.bitDepth < 8) :
    h.pixelDepth / 8 = h.channels * (h.bitDepth / 8) ∧ 8 ≤ h.pixelDepth := by
  have formats : ∀ f ∈ pixelFormats, ¬ f.2 < 8 →
      f.2 * channelsOf f.1 / 8 = channelsOf f.1 * (f.2 / 8) ∧ 8 ≤ f.2 * channelsOf f.1 := by decide
  rw [valid.pixelDepth, valid.channels]
  exact formats _ valid.format high

theorem map_getD_range {k : Nat} {px : List UInt8} (wide : px.length = k) :
    ((List.range k).map fun j => px.getD j 0) = px := by
  apply List.ext_getElem
  · rw [List.length_map, List.length_range, wide]
  · intro j _ hj
    rw [List.getElem_map, List.getElem_range, List.getD_eq_getElem?_getD,
      List.getElem?_eq_getElem hj, Option.getD_some]

section Row
variable {h : Header} (valid : h.Valid) {n : Nat} {pixel : Nat → List UInt8}
  (pixels : ∀ i, IsPixel h (pixel i))
include valid pixels

theorem encodeRow_length : (encodeRow h n pixel).length = rowbytes h.pixelDepth n := by
  unfold encodeRow
  by_cases low : h.bitDepth < 8
  · obtain ⟨packed, one⟩ := valid.packed low
    rw [if_pos low, packRow, List.length_map, List.length_range, List.length_map, List.length_range,
      valid.pixelDepth, one, Nat.mul_one, rowbytes, if_neg (by omega), Nat.shiftRight_eq_div_pow]
  · obtain ⟨bytes, wide⟩ := valid.whole low
    have lengths : ∀ i, (pixel i).length = h.channels * (h.bitDepth / 8) := fun i => by
      have := pixels i
      rwa [IsPixel, if_neg low] at this
    rw [if_neg low, rowOf_length lengths, rowbytes_whole wide, bytes, Nat.mul_comm]

theorem rawPixel_encodeRow {i : Nat} (hi : i < n) :
    rawPixel h (encodeRow h n pixel) i = pixel i := by
  unfold rawPixel encodeRow
  by_cases low : h.bitDepth < 8
  · obtain ⟨packed, -⟩ := valid.packed low
    have sample : ∀ i, pixel i = [(pixel i).getD 0 0] ∧
        ((pixel i).getD 0 0).toNat < 2 ^ h.bitDepth := fun i => by
      have := pixels i
      rw [IsPixel, if_pos low] at this
      obtain ⟨sample, eq, small⟩ := this
      rw [eq]
      exact ⟨rfl, small⟩
    have small : ∀ i, (((List.range n).map fun i => (pixel i).getD 0 0).getD i 0).toNat <
        2 ^ h.bitDepth := fun i => by
      rw [List.getD_eq_getElem?_getD, List.getElem?_map]
      by_cases inside : i < n
      · rw [List.getElem?_range inside]
        exact (sample i).2
      · rw [List.getElem?_eq_none (by simpa using inside)]
        exact Nat.two_pow_pos _
    rw [if_pos low, if_pos low, packedPixel_packRow packed small (by simpa using hi),
      List.getD_eq_getElem?_getD, List.getElem?_map, List.getElem?_range hi]
    exact (sample i).1.symm
  · have lengths : ∀ i, (pixel i).length = h.channels * (h.bitDepth / 8) := fun i => by
      have := pixels i
      rwa [IsPixel, if_neg low] at this
    rw [if_neg low, if_neg low]
    dsimp only
    rw [rowOf, ← pixelAt_flatMap lengths hi]
    refine (List.map_congr_left fun j hj => ?_).trans (map_getD_range (pixelAt_length
      (rowOf_length lengths) hi))
    exact (pixelAt_getD _ (List.mem_range.mp hj) 0).symm

end Row
end PngDecode.Libpng
